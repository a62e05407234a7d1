import FieldRules.Fault
import Mathlib.Data.List.Forall2

/-! Computations that may give no answer. One that answers at every item of a list answers for the
whole list. -/
namespace FieldRules.Fault

variable {α β : Type}

theorem bind_eq_ok {x : Except Fault α} {f : α → Except Fault β} {b : β} :
    x >>= f = .ok b ↔ ∃ a, x = .ok a ∧ f a = .ok b := by
  cases x with
  | error fault =>
    constructor
    · intro h
      cases h
    · rintro ⟨a, ha, -⟩
      cases ha
  | ok a =>
    constructor
    · exact fun h => ⟨a, rfl, h⟩
    · rintro ⟨a', ha, h⟩
      cases ha
      exact h

theorem map_eq_ok {x : Except Fault α} {f : α → β} {b : β} :
    x.map f = .ok b ↔ ∃ a, x = .ok a ∧ f a = b := by
  cases x <;> simp [Except.map]

theorem map_eq_error {x : Except Fault α} {f : α → β} {fault : Fault} :
    x.map f = .error fault ↔ x = .error fault := by
  cases x <;> simp [Except.map]

/-- A test that answers at every item answers for a whole list. -/
theorem anyM_eq_ok {f : α → Except Fault Bool} {g : α → Bool} {xs : List α}
    (h : ∀ x ∈ xs, f x = .ok (g x)) : xs.anyM f = .ok (xs.any g) := by
  induction xs with
  | nil => rfl
  | cons x xs ih =>
    obtain ⟨hx, hxs⟩ := List.forall_mem_cons.mp h
    rw [List.anyM, hx, List.any_cons]
    cases g x with
    | true => rfl
    | false => exact ih hxs

theorem allM_eq_ok {f : α → Except Fault Bool} {g : α → Bool} {xs : List α}
    (h : ∀ x ∈ xs, f x = .ok (g x)) : xs.allM f = .ok (xs.all g) := by
  induction xs with
  | nil => rfl
  | cons x xs ih =>
    obtain ⟨hx, hxs⟩ := List.forall_mem_cons.mp h
    rw [List.allM, hx, List.all_cons]
    cases g x with
    | true => exact ih hxs
    | false => rfl

/-- A test of all items succeeds when it does at every item. -/
theorem allM_eq_true_iff {f : α → Except Fault Bool} {xs : List α} :
    xs.allM f = .ok true ↔ ∀ x ∈ xs, f x = .ok true := by
  constructor
  · intro h
    induction xs with
    | nil => simp
    | cons x xs ih =>
      rw [List.allM] at h
      obtain ⟨b, hb, h⟩ := bind_eq_ok.mp h
      cases b with
      | true => exact List.forall_mem_cons.mpr ⟨hb, ih h⟩
      | false => cases h
  · intro h
    rw [allM_eq_ok (g := fun _ => true) h, List.all_eq_true.mpr fun _ _ => rfl]

theorem filterM_eq_ok {f : α → Except Fault Bool} {g : α → Bool} {xs : List α}
    (h : ∀ x ∈ xs, f x = .ok (g x)) : xs.filterM f = .ok (xs.filter g) := by
  suffices hacc : ∀ acc, List.filterAuxM f xs acc = .ok ((xs.filter g).reverse ++ acc) by
    rw [List.filterM, hacc []]
    simp [bind, Except.bind, pure, Except.pure]
  induction xs with
  | nil => intro acc; rfl
  | cons x xs ih =>
    obtain ⟨hx, hxs⟩ := List.forall_mem_cons.mp h
    intro acc
    rw [List.filterAuxM, hx]
    change List.filterAuxM f xs (cond (g x) (x :: acc) acc) = _
    rw [ih hxs]
    cases hg : g x <;> simp [hg]

theorem mapM_eq_ok {f : α → Except Fault β} {g : α → β} {xs : List α}
    (h : ∀ x ∈ xs, f x = .ok (g x)) : xs.mapM f = .ok (xs.map g) := by
  induction xs with
  | nil => rfl
  | cons x xs ih =>
    obtain ⟨hx, hxs⟩ := List.forall_mem_cons.mp h
    rw [List.mapM_cons, hx, ih hxs]
    rfl

theorem forall₂_of_mapM {f : α → Except Fault β} {xs : List α} {ys : List β}
    (h : xs.mapM f = .ok ys) : List.Forall₂ (fun x y => f x = .ok y) xs ys := by
  induction xs generalizing ys with
  | nil =>
    cases h
    exact .nil
  | cons x xs ih =>
    rw [List.mapM_cons] at h
    obtain ⟨y, hy, h⟩ := bind_eq_ok.mp h
    obtain ⟨rest, hrest, h⟩ := bind_eq_ok.mp h
    cases h
    exact .cons hy (ih hrest)

theorem sublist_of_filterM {f : α → Except Fault Bool} {xs ys : List α}
    (h : xs.filterM f = .ok ys) : ys.Sublist xs := by
  suffices hacc : ∀ acc zs, List.filterAuxM f xs acc = .ok zs →
      ∃ ys : List α, ys.Sublist xs ∧ zs = ys.reverse ++ acc by
    rw [List.filterM] at h
    obtain ⟨zs, hzs, h⟩ := bind_eq_ok.mp h
    obtain ⟨ys', hsub, rfl⟩ := hacc [] zs hzs
    cases h
    simpa using hsub
  clear h
  induction xs with
  | nil =>
    intro acc zs h
    cases h
    exact ⟨[], List.Sublist.refl _, rfl⟩
  | cons x xs ih =>
    intro acc zs h
    rw [List.filterAuxM] at h
    obtain ⟨b, -, h⟩ := bind_eq_ok.mp h
    obtain ⟨ys', hsub, rfl⟩ := ih _ zs h
    cases b with
    | true => exact ⟨x :: ys', hsub.cons_cons x, by simp⟩
    | false => exact ⟨ys', hsub.cons x, rfl⟩

/-- A list is filtered only by a test that answers at every item. -/
theorem exists_of_filterM {f : α → Except Fault Bool} {xs ys : List α}
    (h : xs.filterM f = .ok ys) : ∀ x ∈ xs, ∃ b, f x = .ok b := by
  suffices hacc : ∀ acc zs, List.filterAuxM f xs acc = .ok zs → ∀ x ∈ xs, ∃ b, f x = .ok b by
    rw [List.filterM] at h
    obtain ⟨zs, hzs, -⟩ := bind_eq_ok.mp h
    exact hacc [] zs hzs
  clear h
  induction xs with
  | nil => simp
  | cons x xs ih =>
    intro acc zs h
    rw [List.filterAuxM] at h
    obtain ⟨b, hb, h⟩ := bind_eq_ok.mp h
    exact List.forall_mem_cons.mpr ⟨⟨b, hb⟩, ih _ zs h⟩

/-- What fails on the first items of a list is asked of the others. -/
theorem anyM_append {f : α → Except Fault Bool} {xs ys : List α} (h : xs.anyM f = .ok false) :
    (xs ++ ys).anyM f = ys.anyM f := by
  induction xs with
  | nil => rfl
  | cons x xs ih =>
    rw [List.anyM] at h
    obtain ⟨b, hb, h⟩ := bind_eq_ok.mp h
    cases b with
    | true => cases h
    | false =>
      rw [List.cons_append, List.anyM, hb]
      exact ih h

theorem allM_congr {f g : α → Except Fault Bool} {xs : List α} (h : ∀ x ∈ xs, f x = g x) :
    xs.allM f = xs.allM g := by
  induction xs with
  | nil => rfl
  | cons x xs ih =>
    obtain ⟨hx, hxs⟩ := List.forall_mem_cons.mp h
    rw [List.allM, List.allM, hx, ih hxs]

theorem exists_foldlM {P : β → Prop} {f : β → α → Except Fault β} {xs : List α} {b : β}
    (hstep : ∀ b, ∀ x ∈ xs, P b → ∃ b', f b x = .ok b' ∧ P b') (hb : P b) :
    ∃ b', xs.foldlM f b = .ok b' ∧ P b' := by
  induction xs generalizing b with
  | nil => exact ⟨b, rfl, hb⟩
  | cons x xs ih =>
    obtain ⟨b', hb', hP⟩ := hstep b x (by simp) hb
    obtain ⟨b'', hb'', hP'⟩ := ih (fun b y hy => hstep b y (by simp [hy])) hP
    exact ⟨b'', by rw [List.foldlM_cons, hb']; exact hb'', hP'⟩

/-- What every step keeps is kept by all steps, if they give an answer. -/
theorem foldlM_induct {P : β → Prop} {f : β → α → Except Fault β} {xs : List α} {b b' : β}
    (h : xs.foldlM f b = .ok b') (hb : P b)
    (hstep : ∀ b b', ∀ x ∈ xs, P b → f b x = .ok b' → P b') : P b' := by
  induction xs generalizing b with
  | nil =>
    cases h
    exact hb
  | cons x xs ih =>
    rw [List.foldlM_cons] at h
    obtain ⟨b₁, hb₁, h⟩ := bind_eq_ok.mp h
    exact ih h (hstep b b₁ x (by simp) hb hb₁) fun b b' y hy => hstep b b' y (by simp [hy])

/-- What each step brings about and no step takes back holds for all of them at the end. -/
theorem foldlM_each {P : β → Prop} {Q : α → β → Prop} {f : β → α → Except Fault β} {xs : List α}
    {b b' : β} (h : xs.foldlM f b = .ok b') (hb : P b)
    (hP : ∀ b b', ∀ x ∈ xs, P b → f b x = .ok b' → P b')
    (hQ : ∀ b b', ∀ x ∈ xs, P b → f b x = .ok b' → Q x b')
    (hkeep : ∀ b b', ∀ x ∈ xs, ∀ y ∈ xs, P b → f b x = .ok b' → Q y b → Q y b') :
    P b' ∧ ∀ x ∈ xs, Q x b' := by
  induction xs generalizing b with
  | nil =>
    cases h
    exact ⟨hb, by simp⟩
  | cons x xs ih =>
    rw [List.foldlM_cons] at h
    obtain ⟨b₁, hb₁, h⟩ := bind_eq_ok.mp h
    have hP₁ : P b₁ := hP b b₁ x (by simp) hb hb₁
    obtain ⟨hP', hall⟩ := ih h hP₁ (fun b b' y hy => hP b b' y (by simp [hy]))
      (fun b b' y hy => hQ b b' y (by simp [hy]))
      (fun b b' y hy z hz => hkeep b b' y (by simp [hy]) z (by simp [hz]))
    have hx : P b' ∧ Q x b' :=
      foldlM_induct (P := fun b => P b ∧ Q x b) h ⟨hP₁, hQ b b₁ x (by simp) hb hb₁⟩
        fun b b' y hy hb h => ⟨hP b b' y (by simp [hy]) hb.1 h,
          hkeep b b' y (by simp [hy]) x (by simp) hb.1 h hb.2⟩
    exact ⟨hP', List.forall_mem_cons.mpr ⟨hx.2, hall⟩⟩

/-- Where each step of a second fold can follow that of a first, the second can follow the first. -/
theorem foldlM_rel {γ : Type} {R : β → γ → Prop} {f : β → α → Except Fault β}
    {g : γ → α → Except Fault γ} {xs : List α} {b b' : β} {c : γ} (h : xs.foldlM f b = .ok b')
    (hbc : R b c) (hstep : ∀ b b' c, ∀ x ∈ xs, R b c → f b x = .ok b' →
      ∃ c', g c x = .ok c' ∧ R b' c') :
    ∃ c', xs.foldlM g c = .ok c' ∧ R b' c' := by
  induction xs generalizing b c with
  | nil =>
    cases h
    exact ⟨c, rfl, hbc⟩
  | cons x xs ih =>
    rw [List.foldlM_cons] at h
    obtain ⟨b₁, hb₁, h⟩ := bind_eq_ok.mp h
    obtain ⟨c₁, hc₁, hbc₁⟩ := hstep b b₁ c x (by simp) hbc hb₁
    obtain ⟨c', hc', hbc'⟩ := ih h hbc₁ fun b b' c y hy => hstep b b' c y (by simp [hy])
    exact ⟨c', by rw [List.foldlM_cons, hc₁]; exact hc', hbc'⟩

/-- What commutes with every step commutes with all of them. -/
theorem foldlM_map {P : β → Prop} {f : β → α → Except Fault β} {g : β → β} {xs : List α} {b : β}
    (hb : P b) (hP : ∀ b b', ∀ x ∈ xs, P b → f b x = .ok b' → P b')
    (hg : ∀ b, ∀ x ∈ xs, P b → f (g b) x = (f b x).map g) :
    xs.foldlM f (g b) = (xs.foldlM f b).map g := by
  induction xs generalizing b with
  | nil => rfl
  | cons x xs ih =>
    rw [List.foldlM_cons, List.foldlM_cons, hg b x (by simp) hb]
    cases hx : f b x with
    | error fault => rfl
    | ok b' =>
      have hb' : P b' := hP b b' x (by simp) hb hx
      exact ih hb' (fun b b' y hy => hP b b' y (by simp [hy])) fun b y hy => hg b y (by simp [hy])

end FieldRules.Fault
