import Trialnet.Launch.Wire
import Trialnet.Error

/-!
# Launches that are stored and loaded again

A launch is stored as the JSON text of its wire form.  Loading it again goes through the text,
the schema and the domain.
-/

namespace Trialnet.Launch

/-- The wire form that a stored text holds. -/
def ofStored (levels : Nat) (text : String) : Except Error Wire.Launch :=
  match Json.read levels text with
  | .error cause => .error (.tooDeep cause)
  | .ok (.error fault) => .error (.foreign (fault.message text.toList))
  | .ok (.ok d) => ((Wire.Launch.read d).toExcept Wire.Launch.schema).mapError .payload

/-- The text as which a wire form is stored. -/
def stored (w : Wire.Launch) : Except Error String :=
  (Json.writeLoose w.payload).mapError fun cause => .encode (.unprintable "launch" cause)

/-- The launch after it has been stored and loaded again. -/
def reload (levels : Nat) (l : Launch) : Logged (Except Error Launch) := do
  match ← l.encode with
  | .error e => return .error (.encode e)
  | .ok w => match (stored w).bind (ofStored levels) with
    | .error e => return .error e
    | .ok w => match decode levels w with
      | .error cause => return .error (.tooDeep cause)
      | .ok r => Except.ok <$> r

end Trialnet.Launch
