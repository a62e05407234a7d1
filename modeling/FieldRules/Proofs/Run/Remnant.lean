import FieldRules.Proofs.Run.Enforced

/-! What a whole run can leave of a value: the value, a text, or, of a list, some of its items with
texts behind them. So however many targets were enforced in between, a value that agrees with the
one before the run is that value. -/
namespace FieldRules

namespace Value

/-- Whether a value is a text. -/
def isText : Value → Bool
  | .text _ => true
  | _ => false

/-- What rules can leave of a value. -/
inductive Leaves (v : Value) : Value → Prop
  | kept : Leaves v v
  | text (s : String) : Leaves v (.text s)
  | list {xs zs : List Value} (ts : List String) (hv : v = .list xs) (hsub : zs.Sublist xs) :
    Leaves v (.list (zs ++ ts.map .text))

variable {u v w : Value} {item : String} {nan : Bool}

theorem leaves_addItem (h : v.addItem item = .ok w) : v.Leaves w := by
  cases v with
  | list xs =>
    simp only [addItem] at h
    obtain ⟨b, -, h⟩ := Fault.bind_eq_ok.mp h
    cases b with
    | true =>
      cases h
      exact .kept
    | false =>
      cases h
      exact .list [item] rfl (.refl xs)
  | _ =>
    rcases becomes_addItem h with _ | s | ⟨hv, -, -⟩
    · exact .kept
    · exact .text s
    · cases hv

theorem leaves_removeItem? {b : Bool} (h : v.removeItem? item = .ok (some (w, b))) :
    v.Leaves w := by
  cases v with
  | list xs =>
    simp only [removeItem?] at h
    obtain ⟨rest, hrest, h⟩ := Fault.bind_eq_ok.mp h
    cases h
    have hleft := Leaves.list [] rfl (Fault.sublist_of_filterM hrest)
    rwa [List.map_nil, List.append_nil] at hleft
  | _ =>
    rcases becomes_removeItem? h with _ | s | ⟨hv, -, -⟩
    · exact .kept
    · exact .text s
    · cases hv

theorem Leaves.trans (h : u.Leaves v) (h' : v.Leaves w) : u.Leaves w := by
  cases h' with
  | kept => exact h
  | text s => exact .text s
  | @list ys zs ts hv hsub =>
    cases h with
    | kept => exact .list ts hv hsub
    | text s => cases hv
    | @list xs xs' ss hu hsub' =>
      -- of what was left before, items of the first list and texts behind them are kept
      cases hv
      obtain ⟨kept, texts, rfl, hkept, htexts⟩ := List.sublist_append_iff.mp hsub
      obtain ⟨ss', -, rfl⟩ := List.sublist_map_iff.mp htexts
      rw [List.append_assoc, ← List.map_append]
      exact .list (ss' ++ ts) hu (hkept.trans hsub')

theorem isText_of_agrees (h : agrees nan v w = true) : v.isText = w.isText := by
  cases v <;> cases w <;> first | rfl | simp [agrees, quantity?] at h

theorem countP_of_agree {xs ys : List Value}
    (h : List.Forall₂ (fun x y => agrees nan x y = true) xs ys) :
    xs.countP (!·.isText) = ys.countP (!·.isText) := by
  induction h with
  | nil => rfl
  | cons hxy _ ih => rw [List.countP_cons, List.countP_cons, ih, isText_of_agrees hxy]

/-- Lists that agree are the same if all but their texts are. -/
theorem eq_of_agree {xs ys : List Value}
    (h : List.Forall₂ (fun x y => agrees nan x y = true) xs ys)
    (hrest : xs.filter (!·.isText) = ys.filter (!·.isText)) : xs = ys := by
  induction h with
  | nil => rfl
  | @cons x y xs ys hxy _ ih =>
    have hkind := isText_of_agrees hxy
    cases hy : y.isText with
    | true =>
      obtain ⟨s, rfl⟩ : ∃ s, y = .text s := by
        cases y <;> first | exact ⟨_, rfl⟩ | cases hy
      rw [eq_text_of_agrees hxy] at hrest ⊢
      rw [ih (by simpa [isText] using hrest)]
    | false =>
      rw [hy] at hkind
      rw [List.filter_cons_of_pos (by simp [hkind]), List.filter_cons_of_pos (by simp [hy])]
        at hrest
      obtain ⟨hhead, htail⟩ := List.cons.inj hrest
      rw [hhead, ih htail]

/-- Items of a list with texts behind them agree with the list only if they are the list. -/
theorem eq_of_agreesItems_append {xs zs : List Value} {ts : List String} (hsub : zs.Sublist xs)
    (h : agreesItems nan xs (zs ++ ts.map text) = true) : zs ++ ts.map text = xs := by
  have htexts : (ts.map text).filter (!·.isText) = [] := by
    simp [List.filter_eq_nil_iff, isText]
  have hfilter : (zs ++ ts.map text).filter (!·.isText) = zs.filter (!·.isText) := by
    rw [List.filter_append, htexts, List.append_nil]
  have hagree := forall₂_of_agreesItems h
  have hcount := countP_of_agree hagree
  rw [List.countP_eq_length_filter, List.countP_eq_length_filter, hfilter] at hcount
  refine (eq_of_agree hagree ?_).symm
  rw [hfilter]
  exact ((hsub.filter _).eq_of_length hcount.symm).symm

namespace Leaves

/-- Nothing else is left of a value without counting as a change. -/
theorem eq_of_unchanged (h : v.Leaves w) (hw : changed v w = false) : w = v := by
  cases h with
  | kept => rfl
  | text s =>
    have hagree : agrees true v (.text s) = true := by simpa [changed] using hw
    exact (eq_text_of_agrees hagree).symm
  | @list xs zs ts hv hsub =>
    subst hv
    have hagree : agreesItems true xs (zs ++ ts.map .text) = true := by
      simpa [changed, agrees] using hw
    rw [eq_of_agreesItems_append hsub hagree]

/-- What is left of a value counts as changed if it differs from the value, or is a bare `nan`. -/
theorem changed_iff (h : v.Leaves w) (hv : v.Keyed) :
    changed v w = true ↔ v ≠ w ∨ v = .double .nan ∧ w = .double .nan := by
  constructor
  · intro hchanged
    by_cases heq : v = w
    · subst heq
      have hnan := eq_nan_of_changed_self hv hchanged
      exact .inr ⟨hnan, hnan⟩
    · exact .inl heq
  · rintro (hne | ⟨rfl, rfl⟩)
    · by_contra hsame
      exact hne (h.eq_of_unchanged (by simpa using hsame)).symm
    · rfl

end Leaves

end Value

/-- What rules can leave of a field: at most the mark and the value have changed. -/
structure Field.Leaves (f g : Field) : Prop where
  rest : g = { f with value := g.value, checked := g.checked }
  value : f.value.Leaves g.value

theorem Field.Leaves.trans {f g k : Field} (h : f.Leaves g) (h' : g.Leaves k) : f.Leaves k := by
  refine ⟨?_, h.value.trans h'.value⟩
  rw [h'.rest, h.rest]

theorem Clause.leaves_of_enforceOn {t : Clause} {f g : Field} (h : t.enforceOn f = .ok g) :
    f.Leaves g := by
  refine ⟨eq_of_enforceOn h, ?_⟩
  rcases value_of_enforceOn h with hkept | ⟨s, htext⟩ | ⟨item, hadd | ⟨b, hremove⟩⟩
  · rw [hkept]
    exact .kept
  · rw [htext]
    exact .text s
  · exact Value.leaves_addItem hadd
  · exact Value.leaves_removeItem? hremove

/-- A run leaves something of each field. -/
theorem Rule.leaves_apply {fields : List Field} {rules : List Rule} {o : Outcome}
    (h : Rule.apply fields rules = .ok o) : List.Forall₂ Field.Leaves fields o.fields := by
  refine Rule.apply_induct (P := fun p => List.Forall₂ Field.Leaves fields p.fields) h
    (List.forall₂_same.mpr fun _ _ => ⟨rfl, .kept⟩) ?_
  rintro r - p p' ⟨ht, hi, hf, hg⟩ hp
  exact Field.forall₂_set hp hf fun x hx => hx.trans (Clause.leaves_of_enforceOn hg)

end FieldRules
