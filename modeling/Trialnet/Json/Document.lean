import Trialnet.Json.Reader

/-!
# Documents embedded in texts

The configuration of a node travels as a text that holds a JSON object.  A text that holds
anything else is dropped with a warning; no text, or an empty one, stands for no document.  A text
that is nested too deeply for the reader is neither read nor dropped, and whoever decodes it fails.
-/

namespace Trialnet.Json

/-- Why a text is not a document. -/
inductive Problem where
  /-- It is not JSON. -/
  | notJson (fault : Fault)
  /-- It is JSON, but not an object. -/
  | notObject (found : Datum)

/-- A text that was dropped: the field it came from, the text, and what is wrong. -/
structure Warning where
  field : String
  raw : String
  problem : Problem

/-- What is wrong with the text, in words. -/
def Warning.reason (w : Warning) : String :=
  match w.problem with
  | .notJson fault => fault.message w.raw.toList
  | .notObject found => s!"expected a JSON object, got {found.kindName}"

/-- The wording of the warning. -/
def Warning.message (w : Warning) : String := s!"Failed to parse {w.field} JSON: {w.reason}"

/-- The object that a text holds, or what is wrong with it, unless the text is given up. -/
def document (levels : Nat) (raw : String) : Except TooDeep (Except Problem Fields) := do
  match ← read levels raw with
  | .error fault => return .error (.notJson fault)
  | .ok (.object fields) => return .ok fields
  | .ok found => return .error (.notObject found)

/-- The document of a field, if there is one, and the warning if its text is no document. -/
def readDocument (levels : Nat) (field : String) (raw : Option String) :
    Except TooDeep (Option Fields × Option Warning) :=
  match raw with
  | none => .ok (none, none)
  | some raw =>
    if raw = "" then .ok (none, none)
    else do
      match ← document levels raw with
      | .ok fields => return (some fields, none)
      | .error problem => return (none, some ⟨field, raw, problem⟩)

end Trialnet.Json
