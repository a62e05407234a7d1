import FieldRules.Proofs.Run.Total
import FieldRules.Rule.Signature
import Mathlib.Data.List.Perm.Basic
import Mathlib.Data.Prod.Lex
import Mathlib.Data.String.Basic

/-! Signatures of rules. Two are equal exactly when the conditions of the rules ask the same, in
whatever order; so rules of one signature hold together. -/
namespace FieldRules

/-- Two clauses ask the same of one field. A value that is noted with being set does not count. -/
structure Clause.AsksAs (c d : Clause) : Prop where
  name_eq : c.name = d.name
  state_eq : c.state = d.state
  negated_eq : c.negated = d.negated
  value_eq : c.state ≠ .set → c.demand.value? = d.demand.value?

theorem Clause.AsksAs.refl (c : Clause) : c.AsksAs c :=
  ⟨rfl, rfl, rfl, fun _ => rfl⟩

theorem Clause.AsksAs.symm {c d : Clause} (h : c.AsksAs d) : d.AsksAs c :=
  ⟨h.name_eq.symm, h.state_eq.symm, h.negated_eq.symm,
    fun hset => (h.value_eq (h.state_eq ▸ hset)).symm⟩

theorem Clause.trait_eq_iff {c d : Clause} : c.trait = d.trait ↔ c.AsksAs d := by
  obtain ⟨cname, cdemand, cnegated⟩ := c
  obtain ⟨dname, ddemand, dnegated⟩ := d
  constructor
  · intro h
    cases cdemand <;> cases ddemand <;> cases h <;>
      exact ⟨rfl, rfl, rfl, by simp [Demand.value?, state, Demand.state]⟩
  · rintro ⟨hname, hstate, hnegated, hvalue⟩
    cases cdemand <;> cases ddemand <;>
      simp_all [trait, state, Demand.state, Demand.value?, Demand.subject?]

namespace Trait

/-- What traits are ordered by, the first part first. -/
def key (a : Trait) : String ×ₗ String ×ₗ Bool ×ₗ String :=
  toLex (a.name, toLex (a.state.name, toLex (a.negated, a.value)))

theorem state_name_injective : Function.Injective State.name := by
  intro s t h
  cases s <;> cases t <;> simp_all [State.name]

theorem key_injective : Function.Injective key := by
  rintro ⟨aname, astate, anegated, avalue⟩ ⟨bname, bstate, bnegated, bvalue⟩ h
  simp only [key, toLex_inj, Prod.mk.injEq] at h
  obtain ⟨rfl, hstate, rfl, rfl⟩ := h
  rw [state_name_injective hstate]

theorem le_iff {a b : Trait} : a.le b = true ↔ a.key ≤ b.key := by
  have hstate : a.state.name = b.state.name ↔ a.state = b.state := state_name_injective.eq_iff
  unfold le key
  simp only [Prod.Lex.toLex_le_toLex, hstate]
  by_cases hname : a.name = b.name
  · by_cases hst : a.state = b.state
    · by_cases hneg : a.negated = b.negated
      · simp [hname, hst, hneg]
      · rw [if_neg (not_not.mpr hname), if_neg (not_not.mpr hst), if_pos hneg]
        cases ha : a.negated <;> cases hb : b.negated <;> simp_all
    · simp [hname, hst, le_iff_lt_or_eq, hstate]
  · simp [hname, le_iff_lt_or_eq]

end Trait

namespace Rule

variable {r s : Rule} {fields : List Field}

theorem signature_eq_nil_iff : r.signature = [] ↔ r.isUnconditional = true := by
  have hlength : r.signature.length = r.conditionList.length := by
    rw [signature, (List.mergeSort_perm _ _).length_eq, List.length_map]
  rw [isUnconditional, List.isEmpty_iff, ← List.length_eq_zero_iff, hlength,
    List.length_eq_zero_iff]

theorem signature_eq_iff_perm : r.signature = s.signature ↔
    (r.conditionList.map Clause.trait).Perm (s.conditionList.map Clause.trait) := by
  have hsorted : ∀ xs : List Trait, (xs.mergeSort Trait.le).Pairwise fun a b => a.le b = true := by
    apply List.pairwise_mergeSort
    · simp only [Trait.le_iff]
      exact fun a b c => le_trans
    · simp only [Bool.or_eq_true, Trait.le_iff]
      exact fun a b => le_total _ _
  have hperm := fun xs : List Trait => List.mergeSort_perm xs Trait.le
  unfold signature
  constructor
  · intro h
    exact (hperm _).symm.trans (h ▸ hperm _)
  · intro h
    refine ((hperm _).trans (h.trans (hperm _).symm)).eq_of_pairwise ?_ (hsorted _) (hsorted _)
    intro a b _ _ hab hba
    exact Trait.key_injective (le_antisymm (Trait.le_iff.mp hab) (Trait.le_iff.mp hba))

end Rule

/-- Two rules have the same conditions, in whatever order. -/
def Rule.SameConditions (r s : Rule) : Prop :=
  ∃ cs, r.conditionList.Perm cs ∧ List.Forall₂ Clause.AsksAs cs s.conditionList

namespace Rule

variable {r s : Rule} {fields : List Field}

/-- What depends only on what a condition asks is found equally often in both rules. -/
theorem SameConditions.map_perm {α : Type} {f : Clause → α} (h : r.SameConditions s)
    (hf : ∀ c d, c.AsksAs d → f c = f d) :
    (r.conditionList.map f).Perm (s.conditionList.map f) := by
  obtain ⟨cs, hperm, hcs⟩ := h
  have hmap : cs.map f = s.conditionList.map f := by
    rw [← List.forall₂_eq_eq_eq, List.forall₂_map_left_iff, List.forall₂_map_right_iff]
    exact hcs.imp hf
  exact hmap ▸ hperm.map f

/-- Rules have one signature exactly when they have the same conditions. -/
theorem signature_eq_iff : r.signature = s.signature ↔ r.SameConditions s := by
  rw [signature_eq_iff_perm]
  constructor
  · intro h
    have hself : List.Forall₂ (fun a c => a = Clause.trait c) (r.conditionList.map Clause.trait)
        r.conditionList := by
      rw [List.forall₂_map_left_iff]
      exact List.forall₂_same.mpr fun _ _ => rfl
    -- the conditions of the first rule in the order of those of the second
    obtain ⟨cs, hcs, hperm⟩ := List.perm_comp_forall₂ h.symm hself
    rw [List.forall₂_map_left_iff] at hcs
    exact ⟨cs, hperm.symm, hcs.flip.imp fun c d hcd => Clause.trait_eq_iff.mp hcd.symm⟩
  · intro h
    exact h.map_perm fun c d hcd => Clause.trait_eq_iff.mpr hcd

theorem SameConditions.symm (h : r.SameConditions s) : s.SameConditions r := by
  rw [← signature_eq_iff] at h ⊢
  exact h.symm

end Rule

theorem Clause.AsksAs.fits_eq {c d : Clause} (h : c.AsksAs d) (v : Value) :
    c.demand.fits v = d.demand.fits v := by
  obtain ⟨cname, cdemand, cnegated⟩ := c
  obtain ⟨dname, ddemand, dnegated⟩ := d
  obtain ⟨-, hstate, -, hvalue⟩ := h
  cases cdemand <;> cases ddemand <;>
    simp_all [state, Demand.state, Demand.value?, Demand.fits]

/-- Conditions that ask the same hold together. -/
theorem Clause.AsksAs.holds_eq {c d : Clause} (h : c.AsksAs d) (fields : List Field) :
    c.holds fields = d.holds fields := by
  have hmeets : (fun f : Field => f.meets c.demand) = fun f => f.meets d.demand := by
    funext f
    unfold Field.meets
    rw [h.fits_eq]
  unfold holds
  rw [h.name_eq, h.negated_eq, hmeets]

namespace Rule

variable {r s : Rule} {fields : List Field}

theorem applies_eq_true_iff : r.applies fields = .ok true ↔
    ∀ c ∈ r.conditionList, c.holds fields = .ok true :=
  Fault.allM_eq_true_iff

theorem SameConditions.applies_eq_true_iff (h : r.SameConditions s) :
    r.applies fields = .ok true ↔ s.applies fields = .ok true := by
  have hall : ∀ r : Rule, r.applies fields = .ok true ↔
      ∀ b ∈ r.conditionList.map (·.holds fields), b = .ok true := by
    intro r
    rw [Rule.applies_eq_true_iff, List.forall_mem_map]
  have hperm := h.map_perm (f := (·.holds fields)) fun c d hcd => hcd.holds_eq fields
  rw [hall, hall]
  exact forall_congr' fun b => by rw [hperm.mem_iff]

theorem SameConditions.applies_eq (h : r.SameConditions s) (hw : Field.AllWritable fields) :
    r.applies fields = s.applies fields := by
  obtain ⟨b, hb⟩ := r.exists_applies hw
  obtain ⟨b', hb'⟩ := s.exists_applies hw
  have hiff : r.applies fields = .ok true ↔ s.applies fields = .ok true := h.applies_eq_true_iff
  rw [hb, hb', Except.ok.injEq, Except.ok.injEq, ← Bool.eq_iff_iff] at hiff
  rw [hb, hb', hiff]

/-- Rules of one signature hold together: over writable fields the conditions of both are judged,
and all conditions of one hold exactly when all conditions of the other do. -/
theorem exists_applies_of_signature_eq (h : r.signature = s.signature)
    (hw : Field.AllWritable fields) :
    ∃ met, r.applies fields = .ok met ∧ s.applies fields = .ok met ∧
      (met = true ↔ ∀ c ∈ r.conditionList, c.holds fields = .ok true) ∧
      (met = true ↔ ∀ d ∈ s.conditionList, d.holds fields = .ok true) := by
  obtain ⟨met, hmet⟩ := r.exists_applies hw
  have hmet' : s.applies fields = .ok met := (signature_eq_iff.mp h).applies_eq hw ▸ hmet
  refine ⟨met, hmet, hmet', ?_, ?_⟩
  · rw [← applies_eq_true_iff, hmet, Except.ok.injEq]
  · rw [← applies_eq_true_iff, hmet', Except.ok.injEq]

/-- When the mode is set, all of the net has `tls` and there is a proxy, the log is verbose. -/
def tracing : Rule where
  conditions := some [⟨"mode", .set none, false⟩, ⟨"net", .contains "tls", false⟩,
    ⟨"proxy", .setToValue "", true⟩, ⟨"mode", .set (some "again"), false⟩]
  targets := [⟨"log", .setToValue "verbose", false⟩]

/-- When the same holds, asked in another order, the log is checked. -/
def logging : Rule where
  conditions := some [⟨"net", .contains "tls", false⟩, ⟨"mode", .set (some "any"), false⟩,
    ⟨"mode", .set none, false⟩, ⟨"proxy", .setToValue "", true⟩]
  targets := [⟨"log", .set none, false⟩]

/-- A mode, two fields of a net, one a list and one a running text, and a proxy in use. -/
def uplink : List Field := [
  { name := "mode", value := .bool true, checked := some true },
  { name := "net.up", value := .list [.text "tls", .bool false], checked := some true },
  { name := "net.down", value := .text "tcp, tls", checked := some true },
  { name := "proxy", value := .text "on", checked := some true }]

theorem tracing_logging_applies : tracing.signature = logging.signature ∧
    tracing.applies uplink = .ok true ∧ logging.applies uplink = .ok true := by
  have hsame : tracing.signature = logging.signature := by
    refine signature_eq_iff.mpr ⟨[⟨"net", .contains "tls", false⟩, ⟨"mode", .set none, false⟩,
      ⟨"mode", .set (some "again"), false⟩, ⟨"proxy", .setToValue "", true⟩], by decide, ?_⟩
    have hmode : Clause.AsksAs ⟨"mode", .set (some "again"), false⟩ ⟨"mode", .set none, false⟩ :=
      ⟨rfl, rfl, rfl, fun h => absurd rfl h⟩
    have hmode' : Clause.AsksAs ⟨"mode", .set none, false⟩ ⟨"mode", .set (some "any"), false⟩ :=
      ⟨rfl, rfl, rfl, fun h => absurd rfl h⟩
    exact .cons (.refl _) (.cons hmode' (.cons hmode (.cons (.refl _) .nil)))
  have hw : Field.AllWritable uplink := by
    simp [Field.AllWritable, uplink, Value.Writable, Value.WritableItems]
  have htracing : tracing.applies uplink = .ok true := by rfl
  obtain ⟨met, hmet, hmet', -, -⟩ := exists_applies_of_signature_eq hsame hw
  rw [htracing] at hmet
  cases hmet
  exact ⟨hsame, htracing, hmet'⟩

end Rule

end FieldRules
