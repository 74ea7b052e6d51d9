import Trialnet.Payload.Complaint

/-!
# Readings

A reading is what becomes of a payload: a value, or the complaints about it.  Readings combine
side by side (`Reading.app`), so that the complaints about all parts of a payload are gathered
and none hides another.
-/

namespace Trialnet.Payload

/-- A value, or the complaints about the payload it was to be read from. -/
inductive Reading (α : Type) where
  | ok (value : α)
  | bad (complaints : List Complaint)
  deriving DecidableEq

namespace Reading

variable {α β : Type}

/-- The failure with one complaint about the value itself. -/
def complain (cause : Cause) : Reading α := .bad [⟨[], cause⟩]

/-- The reading with a function applied to its value. -/
def map (f : α → β) : Reading α → Reading β
  | .ok a => .ok (f a)
  | .bad cs => .bad cs

/-- Two readings side by side, with the complaints of both. -/
def app : Reading (α → β) → Reading α → Reading β
  | .ok f, .ok a => .ok (f a)
  | .ok _, .bad cs => .bad cs
  | .bad cs, .ok _ => .bad cs
  | .bad cs, .bad ds => .bad (cs ++ ds)

/-- A reading of a value, followed by one that depends on it. -/
def andThen : Reading α → (α → Reading β) → Reading β
  | .ok a, f => f a
  | .bad cs, _ => .bad cs

/-- The reading of a part, its complaints being located one step further down. -/
def under (step : Step) : Reading α → Reading α
  | .ok a => .ok a
  | .bad cs => .bad (cs.map fun c => { c with path := step :: c.path })

/-- What is read from the items of a list one after the other, up to the first that fails. -/
def inTurn (read : α → Reading β) : List α → Reading (List β)
  | [] => .ok []
  | a :: as => (read a).andThen fun b => (inTurn read as).map (b :: ·)

/-- The value, or a report that names the schema. -/
def toExcept (schema : String) : Reading α → Except Report α
  | .ok a => .ok a
  | .bad cs => .error ⟨schema, cs⟩

@[simp] theorem map_ok (f : α → β) (a : α) : map f (.ok a) = .ok (f a) := rfl

@[simp] theorem app_ok_ok (f : α → β) (a : α) : app (.ok f) (.ok a) = .ok (f a) := rfl

@[simp] theorem andThen_ok (a : α) (f : α → Reading β) : andThen (.ok a) f = f a := rfl

@[simp] theorem under_ok (step : Step) (a : α) : under step (.ok a) = .ok a := rfl

@[simp] theorem toExcept_ok (schema : String) (a : α) :
    (Reading.ok a).toExcept schema = .ok a := rfl

/-- Where no item can fail, reading in turn maps. -/
@[simp] theorem inTurn_ok (f : α → β) (as : List α) :
    inTurn (fun a => .ok (f a)) as = .ok (as.map f) := by
  induction as with
  | nil => rfl
  | cons a as ih => simp [inTurn, ih]

end Reading

end Trialnet.Payload
