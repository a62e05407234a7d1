import FieldRules.Record.Issue

/-!
The outcome of reading a record: a value, or all the issues of its parts together.
-/

namespace FieldRules.Record

/-- A value that was read, or what stood against it. -/
inductive Verdict (α : Type) where
  | accepted (a : α)
  | refused (issues : List Issue)

namespace Verdict

variable {α β : Type}

/-- A refusal for one cause, at the place that was read. -/
def refuse (cause : Cause) : Verdict α :=
  .refused [⟨[], cause⟩]

/-- The value after a function. -/
def map (f : α → β) : Verdict α → Verdict β
  | .accepted a => .accepted (f a)
  | .refused issues => .refused issues

/-- A function applied to a value; the issues of both are kept. -/
def apply : Verdict (α → β) → Verdict α → Verdict β
  | .accepted f, v => v.map f
  | .refused issues, .accepted _ => .refused issues
  | .refused issues, .refused more => .refused (issues ++ more)

/-- A second reading of a value that was accepted. -/
def andThen (v : Verdict α) (f : α → Verdict β) : Verdict β :=
  match v with
  | .accepted a => f a
  | .refused issues => .refused issues

/-- The verdict on a part that is found under a key or an index. -/
def under (step : String) : Verdict α → Verdict α
  | .accepted a => .accepted a
  | .refused issues => .refused (issues.map fun i => { i with path := step :: i.path })

instance : Functor Verdict where
  map f v := v.map f

instance : Seq Verdict where
  seq f v := f.apply (v ())

/-- The verdicts on several parts as one. -/
def all : List (Verdict α) → Verdict (List α)
  | [] => .accepted []
  | v :: vs => List.cons <$> v <*> all vs

end Verdict

end FieldRules.Record
