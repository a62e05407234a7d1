import FieldRules.Proofs.Rule.Edits
import FieldRules.Range.Check

/-! Lists of options after a target that adds an option or takes one out: they stay in the range as
long as their size does. -/
namespace FieldRules

/-- A number lies between the bounds that there are. -/
def Bounds.Within (b : Bounds) (n : ℤ) : Prop :=
  (∀ lo, b.min = some lo → lo ≤ n) ∧ ∀ hi, b.max = some hi → n ≤ hi

theorem Bounds.hold_iff {b : Bounds} {n : ℤ} : b.hold n = true ↔ b.Within n := by
  obtain ⟨lo, hi⟩ := b
  cases lo <;> cases hi <;> simp [hold, Within]

/-- A list is written exactly when each of its items is. -/
theorem Json.exists_encodeItems_iff {xs : List Value} :
    (∃ cs, encodeItems xs = .ok cs) ↔ ∀ x ∈ xs, ∃ cs, encodeChars x = .ok cs := by
  induction xs with
  | nil => simp [encodeItems]
  | cons x xs ih =>
    cases xs with
    | nil => simp [encodeItems]
    | cons y ys =>
      rw [List.forall_mem_cons, ← ih, encodeItems]
      · constructor
        · rintro ⟨cs, h⟩
          obtain ⟨first, hfirst, h⟩ := Fault.bind_eq_ok.mp h
          obtain ⟨rest, hrest, -⟩ := Fault.bind_eq_ok.mp h
          exact ⟨⟨first, hfirst⟩, rest, hrest⟩
        · rintro ⟨⟨first, hfirst⟩, rest, hrest⟩
          rw [hfirst, hrest]
          exact ⟨_, rfl⟩
      · simp

namespace Value

variable {xs ys : List Value} {v : Value} {item : String} {textual : Bool}

theorem showable_list_iff : (list xs).Showable ↔ ∀ x ∈ xs, ∃ cs, Json.encodeChars x = .ok cs := by
  rw [← Json.exists_encodeItems_iff]
  constructor
  · rintro ⟨s, h⟩
    obtain ⟨cs, hcs, -⟩ := Fault.map_eq_ok.mp h
    rw [Json.encodeChars] at hcs
    obtain ⟨body, hbody, -⟩ := Fault.bind_eq_ok.mp hcs
    exact ⟨body, hbody⟩
  · rintro ⟨body, hbody⟩
    refine ⟨String.ofList ('[' :: body ++ [']']), ?_⟩
    rw [display, Json.encode, Json.encodeChars, hbody]
    rfl

theorem exists_lists (h : v.items? = some xs) : ∃ textual, Lists xs textual v := by
  cases v with
  | list ys =>
    cases h
    exact ⟨false, .list⟩
  | text s => exact ⟨true, .text h⟩
  | _ => cases h

theorem Lists.items?_eq (h : Lists xs textual v) : v.items? = some xs := by
  cases h with
  | list => rfl
  | text hs => exact hs

/-- A value can be shown with other items when each of these is an old one or a text. -/
theorem Lists.showable {w : Value} (h : Lists xs textual v) (hw : Lists ys textual w)
    (hv : v.Showable) (hys : ∀ y ∈ ys, y ∈ xs ∨ ∃ s, y = .text s) : w.Showable := by
  cases hw with
  | text => exact ⟨_, rfl⟩
  | list =>
    cases h
    rw [showable_list_iff] at hv ⊢
    intro y hy
    rcases hys y hy with hy | ⟨s, rfl⟩
    · exact hv y hy
    · exact ⟨_, rfl⟩

theorem mem_or_eq_of_mem_adjoin {y : Value} (h : y ∈ adjoin xs item) :
    y ∈ xs ∨ y = .text item := by
  unfold adjoin at h
  split_ifs at h
  · exact .inl h
  · rcases List.mem_append.mp h with h | h
    · exact .inl h
    · exact .inr (List.mem_singleton.mp h)

end Value

namespace Clause

variable {c : Clause} {xs : List Value} {item : String}

theorem mem_or_eq_of_mem_edit (hc : c.demand = .contains item) {y : Value} (h : y ∈ c.edit xs) :
    y ∈ xs ∨ y = .text item := by
  unfold edit at h
  rw [hc] at h
  dsimp only at h
  split_ifs at h
  · exact .inl (List.mem_filter.mp h).1
  · exact Value.mem_or_eq_of_mem_adjoin h

end Clause

namespace Range

variable {options : List String} {size : Bounds} {v : Value} {xs : List Value}

/-- Options are told apart by the texts that they show as. -/
theorem holds_choices (hv : v.Showable) (hitems : v.items? = some xs)
    (hxs : ∀ x ∈ xs, ∃ s ∈ options, x.display = .ok s) :
    (choices options size).holds v = .ok (size.hold xs.length) := by
  obtain ⟨text, htext⟩ := hv
  unfold holds
  rw [htext]
  simp only [hitems]
  cases hsize : size.hold xs.length with
  | false => rfl
  | true =>
    refine Fault.allM_eq_true_iff.mpr fun x hx => ?_
    obtain ⟨s, hs, hshow⟩ := hxs x hx
    rw [hshow]
    simp [bind, Except.bind, pure, Except.pure, hs]

theorem of_holds_choices (h : (choices options size).holds v = .ok true) :
    v.Showable ∧ ∃ xs, v.items? = some xs ∧ ∀ x ∈ xs, ∃ s ∈ options, x.display = .ok s := by
  obtain ⟨text, htext, h⟩ := Fault.bind_eq_ok.mp h
  refine ⟨⟨text, htext⟩, ?_⟩
  dsimp only at h
  cases hitems : v.items? with
  | none =>
    rw [hitems] at h
    cases h
  | some xs =>
    rw [hitems] at h
    dsimp only at h
    split_ifs at h
    · refine ⟨xs, rfl, fun x hx => ?_⟩
      obtain ⟨s, hs, hoption⟩ := Fault.bind_eq_ok.mp (Fault.allM_eq_true_iff.mp h x hx)
      exact ⟨s, by simpa [pure, Except.pure] using hoption, hs⟩
    · cases h

end Range

namespace Clause

variable {c : Clause} {f : Field} {options : List String} {size : Bounds} {item : String}

/-- A list of options, or the text of one, to which an option is added or from which one is taken
out is in the range again exactly when its new number of items is within the bounds of the size. -/
theorem holds_choices_enforceOn (hc : c.demand = .contains item) (hitem : item ∈ options)
    (hf : (Range.choices options size).holds f.value = .ok true) :
    ∃ xs g ys b, f.value.items? = some xs ∧ c.enforceOn f = .ok g ∧ g.value.items? = some ys ∧
      ys = (if item = "" then xs else c.edit xs) ∧
      (Range.choices options size).holds g.value = .ok b ∧ (b = true ↔ size.Within ys.length) := by
  obtain ⟨hshow, xs, hitems, hxs⟩ := Range.of_holds_choices hf
  by_cases hempty : item = ""
  · -- an empty option is neither added nor taken out
    have hsame : c.enforceOn f = .ok f := by
      rw [enforceOn, hc]
      exact if_pos hempty
    exact ⟨xs, f, xs, _, hitems, hsame, hitems, (if_pos hempty).symm,
      Range.holds_choices hshow hitems hxs, Bounds.hold_iff⟩
  · obtain ⟨textual, hlists⟩ := Value.exists_lists hitems
    have hshown : ∀ x ∈ xs, x.Showable := by
      intro x hx
      obtain ⟨s, -, hs⟩ := hxs x hx
      exact ⟨s, hs⟩
    obtain ⟨g, hg, hedited, -⟩ := exists_enforceOn_edit ⟨item, hempty, hc⟩ hlists hshown
    have hshow' : g.value.Showable := by
      refine hlists.showable hedited hshow fun y hy => ?_
      exact (mem_or_eq_of_mem_edit hc hy).imp_right fun hy => ⟨item, hy⟩
    have hys : ∀ y ∈ c.edit xs, ∃ s ∈ options, y.display = .ok s := by
      intro y hy
      rcases mem_or_eq_of_mem_edit hc hy with hy | rfl
      · exact hxs y hy
      · exact ⟨item, hitem, rfl⟩
    exact ⟨xs, g, c.edit xs, _, hitems, hg, hedited.items?_eq, (if_neg hempty).symm,
      Range.holds_choices hshow' hedited.items?_eq hys, Bounds.hold_iff⟩

/-- The text of a list with a repeated option. -/
def toppings : Field where
  name := "toppings"
  value := .text "[\"ham\", \"egg\", \"ham\"]"

theorem toppings_enforceOn : ∃ g ys b,
    enforceOn ⟨"toppings", .contains "ham", true⟩ toppings = .ok g ∧
      g.value.items? = some ys ∧ ys.length = 1 ∧
      (Range.choices ["ham", "egg"] ⟨some 2, none⟩).holds g.value = .ok b ∧ b = false := by
  have hvalid : (Range.choices ["ham", "egg"] ⟨some 2, none⟩).holds toppings.value = .ok true := by
    decide +kernel
  obtain ⟨xs, g, ys, b, hxs, hg, hys, hedit, hb, hwithin⟩ :=
    holds_choices_enforceOn (c := ⟨"toppings", .contains "ham", true⟩) rfl (by decide) hvalid
  have hitems : toppings.value.items? = some [.text "ham", .text "egg", .text "ham"] := by
    decide +kernel
  rw [hitems] at hxs
  cases hxs
  have hone : ys.length = 1 := by
    rw [hedit]
    decide
  refine ⟨g, ys, b, hg, hys, hone, hb, Bool.eq_false_iff.mpr fun htrue => ?_⟩
  have hmin := (hwithin.mp htrue).1 2 rfl
  rw [hone] at hmin
  exact absurd hmin (by decide)

end Clause

end FieldRules
