import FieldRules.Record.Verdict

/-! Verdicts that accept: what was put together from several readings is accepted exactly if each of
them is. -/
namespace FieldRules.Record.Verdict

variable {α β : Type} {v : Verdict α} {a : α} {b : β}

theorem map_eq_accepted {f : α → β} : v.map f = .accepted b ↔ ∃ a, v = .accepted a ∧ f a = b := by
  cases v with
  | accepted a => simp [map]
  | refused issues => simp [map]

theorem andThen_eq_accepted {f : α → Verdict β} :
    v.andThen f = .accepted b ↔ ∃ a, v = .accepted a ∧ f a = .accepted b := by
  cases v with
  | accepted a => simp [andThen]
  | refused issues => simp [andThen]

theorem under_eq_accepted {step : String} : v.under step = .accepted a ↔ v = .accepted a := by
  cases v with
  | accepted a => rfl
  | refused issues => simp [under]

theorem seq_eq_accepted {u : Verdict (α → β)} :
    u <*> v = .accepted b ↔ ∃ f a, u = .accepted f ∧ v = .accepted a ∧ f a = b := by
  change u.apply v = .accepted b ↔ _
  cases u with
  | accepted f => simp [apply, map_eq_accepted]
  | refused issues =>
    cases v with
    | accepted a => simp [apply]
    | refused more => simp [apply]

theorem all_eq_accepted {vs : List (Verdict α)} {xs : List α} :
    all vs = .accepted xs ↔ vs = xs.map .accepted := by
  induction vs generalizing xs with
  | nil =>
    cases xs with
    | nil => simp [all]
    | cons x xs => simp [all]
  | cons v vs ih =>
    rw [all, seq_eq_accepted]
    constructor
    · rintro ⟨f, rest, hf, hrest, rfl⟩
      obtain ⟨x, rfl, rfl⟩ := map_eq_accepted.mp hf
      rw [ih.mp hrest, List.map_cons]
    · intro h
      cases xs with
      | nil => cases h
      | cons x xs =>
        obtain ⟨rfl, hrest⟩ := List.cons.inj h
        exact ⟨_, xs, rfl, ih.mpr hrest, rfl⟩

end FieldRules.Record.Verdict
