/-!
# Complaints about a payload

A payload that does not fit its schema is answered by all complaints about it, each with the
path to the offending value, in the order in which the schema declares its fields.  The offending
values themselves are not part of the answer.
-/

namespace Trialnet.Payload

/-- One step down into a payload. -/
inductive Step where
  | key (name : String)
  | index (i : Nat)
  deriving DecidableEq

/-- What is wrong with a value. -/
inductive Cause where
  | missing
  | notString | notArray | notDictionary | notRecord
  | notInteger | unreadableInteger | oversizedInteger | fractionalInteger | notFinite
  | notTruth | unreadableTruth
  | notFloat | unreadableFloat
  | belowRange | aboveRange
  /-- The value was refused before its fields were looked at, with an explanation. -/
  | refused (explanation : String)
  deriving DecidableEq

/-- The code of a cause. -/
def Cause.code : Cause → String
  | .missing => "missing"
  | .notString => "string_type"
  | .notArray => "list_type"
  | .notDictionary => "dict_type"
  | .notRecord => "model_type"
  | .notInteger => "int_type"
  | .unreadableInteger => "int_parsing"
  | .oversizedInteger => "int_parsing_size"
  | .fractionalInteger => "int_from_float"
  | .notFinite => "finite_number"
  | .notTruth => "bool_type"
  | .unreadableTruth => "bool_parsing"
  | .notFloat => "float_type"
  | .unreadableFloat => "float_parsing"
  | .belowRange => "greater_than_equal"
  | .aboveRange => "less_than_equal"
  | .refused _ => "value_error"

/-- The explanation that a refusal comes with. -/
def Cause.explanation? : Cause → Option String
  | .refused explanation => some s!"Value error, {explanation}"
  | _ => none

/-- One complaint: the path to a value, and what is wrong with it. -/
structure Complaint where
  path : List Step
  cause : Cause
  deriving DecidableEq

/-- All complaints about a payload, and the name of the schema it does not fit. -/
structure Report where
  schema : String
  complaints : List Complaint
  deriving DecidableEq

/-- The first line of a report. -/
def Report.headline (r : Report) : String :=
  let n := r.complaints.length
  let plural := if n = 1 then "" else "s"
  s!"{n} validation error{plural} for {r.schema}"

end Trialnet.Payload
