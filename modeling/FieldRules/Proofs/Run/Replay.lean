import FieldRules.Proofs.Run.Pass
import Mathlib.Data.List.Nodup

/-! The changes of a run as a history: made again in order they lead from the fields before the run
to those after it, and taken back in the opposite order they lead back. -/
namespace FieldRules

/-- The mark that a value stands for. -/
def Value.mark? : Value → Option Bool
  | .bool b => some b
  | _ => none

@[simp] theorem Value.mark?_ofMark (mark : Option Bool) : (Value.ofMark mark).mark? = mark := by
  cases mark <;> rfl

/-- A property of a field. -/
def Field.get (f : Field) : Property → Value
  | .checked => .ofMark f.checked
  | .value => f.value

/-- A field of which a property has been replaced. -/
def Field.put (f : Field) : Property → Value → Field
  | .checked, v => { f with checked := v.mark? }
  | .value, v => { f with value := v }

@[simp] theorem Field.name_put (f : Field) (p : Property) (v : Value) :
    (f.put p v).name = f.name := by
  cases p <;> rfl

@[simp] theorem Field.put_get (f : Field) (p : Property) : f.put p (f.get p) = f := by
  cases p <;> simp [put, get]

@[simp] theorem Field.put_put (f : Field) (p : Property) (v w : Value) :
    (f.put p v).put p w = f.put p w := by
  cases p <;> rfl

namespace Change

/-- The fields when a value has been given to the property of the field that a change is about. -/
def write (c : Change) (v : Value) (fields : List Field) : List Field :=
  fields.map fun f => if f.name = c.field then f.put c.property v else f

/-- The fields when a change has been made again. -/
def redo (fields : List Field) (c : Change) : List Field :=
  c.write c.new fields

/-- The fields when a change has been taken back. -/
def undo (fields : List Field) (c : Change) : List Field :=
  c.write c.old fields

/-- The field that a change is about has the old value. -/
def Holds (c : Change) (fields : List Field) : Prop :=
  ∃ f ∈ fields, f.name = c.field ∧ f.get c.property = c.old

/-- Changes lead from fields to others if they do so one by one, and each finds its old value. -/
def Leads : List Field → List Change → List Field → Prop
  | fields, [], fields' => fields = fields'
  | fields, c :: cs, fields' => c.Holds fields ∧ Leads (redo fields c) cs fields'

variable {fields fields' : List Field} {c : Change} {cs : List Change}

@[simp] theorem names_write (c : Change) (v : Value) (fields : List Field) :
    (c.write v fields).map (·.name) = fields.map (·.name) := by
  unfold write
  rw [List.map_map]
  apply List.map_congr_left
  intro f _
  dsimp only [Function.comp_apply]
  split_ifs
  · exact f.name_put c.property v
  · rfl

theorem undo_redo (hn : (fields.map (·.name)).Nodup) (h : c.Holds fields) :
    undo (redo fields c) c = fields := by
  obtain ⟨f, hf, hname, hold⟩ := h
  unfold undo redo write
  rw [List.map_map]
  refine (List.map_congr_left fun g hg => ?_).trans (List.map_id fields)
  by_cases hgc : g.name = c.field
  · have hgf : g = f := List.inj_on_of_nodup_map hn hg hf (hgc.trans hname.symm)
    subst hgf
    simp [hgc, ← hold]
  · simp [hgc]

namespace Leads

theorem append {fields'' : List Field} {cs' : List Change} (h : Leads fields cs fields')
    (h' : Leads fields' cs' fields'') : Leads fields (cs ++ cs') fields'' := by
  induction cs generalizing fields with
  | nil =>
    cases h
    exact h'
  | cons c cs ih => exact ⟨h.1, ih h.2⟩

theorem foldl_redo (h : Leads fields cs fields') : cs.foldl redo fields = fields' := by
  induction cs generalizing fields with
  | nil => exact h
  | cons c cs ih => exact ih h.2

theorem holds {before after : List Change} (h : Leads fields (before ++ c :: after) fields') :
    c.Holds (before.foldl redo fields) := by
  induction before generalizing fields with
  | nil => exact h.1
  | cons b before ih => exact ih h.2

theorem foldl_undo (hn : (fields.map (·.name)).Nodup) (h : Leads fields cs fields') :
    cs.reverse.foldl undo fields' = fields := by
  induction cs generalizing fields with
  | nil => exact h.symm
  | cons c cs ih =>
    have hn' : ((redo fields c).map (·.name)).Nodup := by rwa [redo, names_write]
    rw [List.reverse_cons, List.foldl_append, ih hn' h.2]
    exact undo_redo hn h.1

/-- The change of one property of one field. -/
theorem single {f : Field} {i : ℕ} (hn : (fields.map (·.name)).Nodup) (hf : fields[i]? = some f)
    (p : Property) (v : Value) (reason : String) :
    Leads fields [⟨f.name, p, f.get p, v, reason⟩] (fields.set i (f.put p v)) := by
  refine ⟨⟨f, List.mem_of_getElem? hf, rfl, rfl⟩, ?_⟩
  apply List.ext_getElem?
  intro j
  unfold redo write
  rw [List.getElem?_map, List.getElem?_set]
  by_cases hij : i = j
  · subst hij
    have hlt := (List.getElem?_eq_some_iff.mp hf).1
    rw [hf, if_pos rfl, if_pos hlt, Option.map_some, if_pos rfl]
  · rw [if_neg hij]
    cases hg : fields[j]? with
    | none => rfl
    | some g =>
      have hname : g.name ≠ f.name := by
        intro heq
        have hi : (fields.map (·.name))[i]? = some g.name := by simp [hf, heq]
        have hj : (fields.map (·.name))[j]? = some g.name := by simp [hg]
        have hlt := (List.getElem?_eq_some_iff.mp hi).1
        exact hij ((List.getElem?_inj hlt hn).mp (hi.trans hj.symm))
      simp [hname]

end Leads

end Change

end FieldRules
