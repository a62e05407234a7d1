import FieldRules.Proofs.Run.Reach
import FieldRules.Proofs.Run.Sequel
import FieldRules.Proofs.Run.Total
import Mathlib.Data.List.Forall2
import Mathlib.Data.List.Induction

/-! The targets that a run enforces, in order. A run does what they do one after another: the last
of them that reaches a field is the reason for the field, and a field that none of them reaches is
left as it was. -/
namespace FieldRules

variable {fields : List Field} {names : List String} {rules : List Rule} {r : Rule} {t : Clause}
  {name : String}

/-- A name reaches another that a field bears. -/
def Path.Reaches (names : List String) (name x : String) : Prop :=
  x ∈ names ∧ Addresses names name x

instance (names : List String) (name x : String) : Decidable (Path.Reaches names name x) :=
  inferInstanceAs (Decidable (_ ∧ _))

theorem Field.exists_mem_reach_iff {x : String} :
    (∃ i ∈ reach names name, names[i]? = some x) ↔ Path.Reaches names name x := by
  unfold Path.Reaches Path.Addresses
  by_cases hname : name ∈ names
  · obtain ⟨i, hi, hreach⟩ := exists_reach_eq hname
    simp only [hreach, List.mem_singleton, exists_eq_left, hi, Option.some.injEq]
    constructor
    · rintro rfl
      exact ⟨hname, .inl rfl⟩
    · rintro ⟨-, rfl | ⟨hnot, -⟩⟩
      · rfl
      · exact absurd hname hnot
  · constructor
    · rintro ⟨i, hi, hx⟩
      obtain ⟨y, hy, hunder⟩ := (mem_reach_of_not_mem hname).mp hi
      rw [hx] at hy
      cases hy
      exact ⟨List.mem_of_getElem? hx, .inr ⟨hname, hunder⟩⟩
    · rintro ⟨hx, rfl | ⟨-, hunder⟩⟩
      · exact absurd hx hname
      · obtain ⟨i, hi⟩ := List.mem_iff_getElem?.mp hx
        exact ⟨i, (mem_reach_of_not_mem hname).mpr ⟨x, hi, hunder⟩, hi⟩

/-- A field and what is left of it: at most the mark and the value have changed, and they only if
there is a reason. -/
def Field.Explained (reasons : Entries String) (f g : Field) : Prop :=
  g = { f with value := g.value, checked := g.checked } ∧ (f.name ∉ reasons.keys → g = f)

theorem Field.forall₂_set {R : Field → Field → Prop} {xs ys : List Field} {i : ℕ} {f g : Field}
    (h : List.Forall₂ R xs ys) (hf : ys[i]? = some f) (hR : ∀ x, R x f → R x g) :
    List.Forall₂ R xs (ys.set i g) := by
  induction h generalizing i with
  | nil => cases hf
  | cons hxy hrest ih =>
    cases i with
    | zero =>
      cases hf
      exact .cons (hR _ hxy) hrest
    | succ i => exact .cons hxy (ih hf)

namespace Rule

/-- Whether a run over fields that comes to a rule after others finds that its conditions hold. -/
def fires (fields : List Field) (before : List Rule) (r : Rule) : Bool :=
  match apply fields before >>= fun o => r.applies o.fields with
  | .ok met => met
  | .error _ => false

/-- The targets that a run over fields enforces, each with its rule, in order. -/
def enforced (fields : List Field) (rules : List Rule) : List (Rule × Clause) :=
  rules.zipIdx.flatMap fun (r, k) =>
    if r.fires fields (rules.take k) then r.targets.map fun t => (r, t) else []

theorem fires_iff {before : List Rule} :
    r.fires fields before = true ↔
      ∃ o, apply fields before = .ok o ∧ r.applies o.fields = .ok true := by
  unfold fires
  rw [← Fault.bind_eq_ok]
  cases apply fields before >>= fun o => r.applies o.fields <;> simp

theorem enforced_concat (fields : List Field) (rules : List Rule) (r : Rule) :
    enforced fields (rules ++ [r]) = enforced fields rules ++
      if r.fires fields rules then r.targets.map fun t => (r, t) else [] := by
  unfold enforced
  rw [List.zipIdx_append, List.flatMap_append]
  congr 1
  · refine List.flatMap_congr fun ⟨s, k⟩ hs => ?_
    have hk : k < rules.length := by
      obtain ⟨hlt, -⟩ := List.getElem?_eq_some_iff.mp (List.mk_mem_zipIdx_iff_getElem?.mp hs)
      exact hlt
    dsimp only
    rw [List.take_append_of_le_length hk.le]
  · simp

theorem of_mem_enforced {e : Rule × Clause} (h : e ∈ enforced fields rules) :
    e.1 ∈ rules ∧ e.2 ∈ e.1.targets := by
  obtain ⟨⟨s, k⟩, hs, he⟩ := List.mem_flatMap.mp h
  have hmem : s ∈ rules := List.mem_of_getElem? (List.mk_mem_zipIdx_iff_getElem?.mp hs)
  dsimp only at he
  split_ifs at he
  · obtain ⟨t, ht, rfl⟩ := List.mem_map.mp he
    exact ⟨hmem, ht⟩
  · cases he

end Rule

namespace Outcome

variable {o o' : Outcome} {i : ℕ}

/-- The outcome after a target of a rule, both given as a pair. -/
def enforcePair (o : Outcome) (e : Rule × Clause) : Except Fault Outcome :=
  enforceTarget e.1 o e.2

/-- A run does what the targets that it enforces do one after another. -/
theorem foldlM_enforced {o : Outcome} (h : Rule.apply fields rules = .ok o) :
    (Rule.enforced fields rules).foldlM enforcePair { fields } = .ok o := by
  induction rules using List.reverseRecOn generalizing o with
  | nil => exact h
  | append_singleton rules r ih =>
    rw [Rule.apply_eq, List.foldlM_append, ← Rule.apply_eq] at h
    obtain ⟨p, hp, h⟩ := Fault.bind_eq_ok.mp h
    have hfollow : p.follow r = .ok o := by simpa using h
    obtain ⟨met, hmet, hfollow⟩ := Fault.bind_eq_ok.mp hfollow
    have hfires : r.fires fields rules = met := by
      rw [Bool.eq_iff_iff, Rule.fires_iff]
      simp [hp, hmet]
    rw [Rule.enforced_concat, List.foldlM_append, ih hp, hfires]
    cases met with
    | false => exact hfollow
    | true =>
      change (r.targets.map fun t => (r, t)).foldlM enforcePair p = .ok o
      rw [List.foldlM_map]
      exact hfollow

theorem names_enforceAt (h : enforceAt r t o i = .ok o') :
    o'.fields.map (·.name) = o.fields.map (·.name) := by
  rcases enforceAt_cases h with ⟨-, rfl⟩ | ⟨f, g, hf, hg, rfl⟩
  · rfl
  · exact Field.names_set hf (Clause.name_of_enforceOn hg)

theorem get?_enforceAt (hn : o.fields.map (·.name) = names) (h : enforceAt r t o i = .ok o') :
    Entries.get? o'.reasons name =
      if names[i]? = some name then some (r.sentenceFor t.name)
      else Entries.get? o.reasons name := by
  have hi : names[i]? = o.fields[i]?.map (·.name) := by rw [← hn, List.getElem?_map]
  rcases enforceAt_cases h with ⟨hf, rfl⟩ | ⟨f, g, hf, -, rfl⟩
  · rw [hi, hf]
    rfl
  · rw [hi, hf, Entries.get?_insert]
    simp

/-- A target gives a new reason to the fields that it reaches. -/
theorem get?_enforceTarget (hn : o.fields.map (·.name) = names)
    (h : enforceTarget r o t = .ok o') :
    Entries.get? o'.reasons name =
      if Path.Reaches names t.name name then some (r.sentenceFor t.name)
      else Entries.get? o.reasons name := by
  unfold enforceTarget at h
  rw [hn] at h
  simp only [← Field.exists_mem_reach_iff]
  generalize Field.reach names t.name = positions at h
  induction positions generalizing o with
  | nil =>
    cases h
    simp
  | cons i positions ih =>
    rw [List.foldlM_cons] at h
    obtain ⟨o₁, ho₁, h⟩ := Fault.bind_eq_ok.mp h
    rw [ih ((names_enforceAt ho₁).trans hn) h, get?_enforceAt hn ho₁]
    by_cases hi : names[i]? = some name
    · simp [hi]
    · simp [hi]

theorem names_enforcePair {e : Rule × Clause} (h : enforcePair o e = .ok o') :
    o'.fields.map (·.name) = o.fields.map (·.name) :=
  Fault.foldlM_induct (P := fun p => p.fields.map (·.name) = o.fields.map (·.name)) h rfl
    fun _ _ _ _ hp h => (names_enforceAt h).trans hp

/-- After some targets the reason for a field is the last of them that reaches it, and the reason
from before if none does. -/
theorem get?_foldlM_enforcePair {es : List (Rule × Clause)}
    (hn : o.fields.map (·.name) = names) (h : es.foldlM enforcePair o = .ok o') (name : String) :
    Entries.get? o'.reasons name =
      ((es.filter fun e => Path.Reaches names e.2.name name).getLast?.map
        fun e => e.1.sentenceFor e.2.name).or (Entries.get? o.reasons name) := by
  induction es using List.reverseRecOn generalizing o' with
  | nil =>
    cases h
    rfl
  | append_singleton es e ih =>
    rw [List.foldlM_append] at h
    obtain ⟨p, hp, h⟩ := Fault.bind_eq_ok.mp h
    have hpair : enforcePair p e = .ok o' := by simpa using h
    have hnames : p.fields.map (·.name) = names :=
      Fault.foldlM_induct (P := fun p => p.fields.map (·.name) = names) hp hn
        fun _ _ _ _ hq h => (names_enforcePair h).trans hq
    rw [get?_enforceTarget hnames hpair, ih hp, List.filter_append, List.getLast?_append]
    by_cases he : Path.Reaches names e.2.name name
    · simp [he]
    · simp [he]

/-- At most the marks and the values of fields have changed, and only where there is a reason. -/
def Explained (fields : List Field) (o : Outcome) : Prop :=
  List.Forall₂ (Field.Explained o.reasons) fields o.fields

theorem explained_init (fields : List Field) : Explained fields { fields } :=
  List.forall₂_same.mpr fun _ _ => ⟨rfl, fun _ => rfl⟩

theorem Explained.step (h : o.Explained fields) (hs : Step r o o') : o'.Explained fields := by
  obtain @⟨t, i, f, g, ht, hi, hf, hg⟩ := hs
  have hweaker : List.Forall₂
      (Field.Explained (Entries.insert o.reasons f.name (r.sentenceFor t.name)))
      fields o.fields := by
    refine List.Forall₂.imp (fun f' g' hfg => ⟨hfg.1, fun hkey => hfg.2 fun hmem => ?_⟩) h
    exact hkey (Entries.mem_keys_insert.mpr (.inr hmem))
  refine Field.forall₂_set hweaker hf fun f' hf' => ?_
  have hname : f'.name = f.name := by rw [hf'.1]
  refine ⟨?_, fun hkey => absurd (Entries.mem_keys_insert.mpr (.inl hname)) hkey⟩
  rw [Clause.eq_of_enforceOn hg, hf'.1]

end Outcome

namespace Rule

variable {o : Outcome}

theorem get?_apply (h : apply fields rules = .ok o) (name : String) :
    o.reasons.get? name =
      ((enforced fields rules).filter fun e =>
        Path.Reaches (fields.map (·.name)) e.2.name name).getLast?.map
          fun e => e.1.sentenceFor e.2.name := by
  have hget := Outcome.get?_foldlM_enforcePair rfl (Outcome.foldlM_enforced h) name
  rwa [Entries.get?_nil, Option.or_none] at hget

theorem mem_keys_apply_iff (h : apply fields rules = .ok o) (name : String) :
    name ∈ o.reasons.keys ↔ ∃ e ∈ enforced fields rules,
      Path.Reaches (fields.map (·.name)) e.2.name name := by
  rw [← Entries.contains_iff, Entries.contains, get?_apply h, Option.isSome_map,
    Option.isSome_iff_ne_none, Ne, List.getLast?_eq_none_iff, List.filter_eq_nil_iff]
  simp

theorem explained_apply (h : apply fields rules = .ok o) : o.Explained fields :=
  apply_induct h (Outcome.explained_init fields) fun _ _ _ _ hs ho => ho.step hs

end Rule

/-- A run leaves the fields in their order, changes nothing of them but marks and values, and those
only where there is a reason. There is a reason for the fields that an enforced target reaches, and
it is the sentence of the last of these targets. If no integer is too long, there is an outcome. -/
theorem Run.explained_by_enforced (fields : List Field) (rules : List Rule)
    (trigger : Option Trigger) (before : Option (List Field)) :
    (Field.AllWritable fields → ∃ o, (Run.of fields rules trigger before).outcome = .ok o) ∧
    ∀ o, (Run.of fields rules trigger before).outcome = .ok o →
      List.Forall₂ (fun f g => g = { f with value := g.value, checked := g.checked } ∧
        (f.name ∉ o.reasons.keys → g = f)) fields o.fields ∧
      (∀ name, name ∈ o.reasons.keys ↔ ∃ e ∈ Rule.enforced fields rules,
        Path.Reaches (fields.map (·.name)) e.2.name name) ∧
      ∀ name, o.reasons.get? name =
        ((Rule.enforced fields rules).filter fun e =>
          Path.Reaches (fields.map (·.name)) e.2.name name).getLast?.map
            fun e => e.1.sentenceFor e.2.name := by
  refine ⟨fun hw => ?_, fun o ho => ?_⟩
  · obtain ⟨o, ho, -⟩ := Run.exists_after (o := { fields, changes := _ }) hw rules
    exact ⟨o, ho⟩
  · rw [Run.outcome_of] at ho
    obtain ⟨p, hp, rfl⟩ := Fault.map_eq_ok.mp ho
    have hexplained : p.Explained fields := Rule.explained_apply hp
    have hkeys := Rule.mem_keys_apply_iff hp
    have hget := Rule.get?_apply hp
    exact ⟨hexplained, hkeys, hget⟩

/-- A gate, two lamps and a bell. -/
def porch : List Field := [
  { name := "gate" }, { name := "lamp.front", value := .text "on", checked := some true },
  { name := "lamp.rear", value := .list [.text "warm"] }, { name := "bell" }]

/-- Opens the gate. -/
def opening : Rule := { targets := [⟨"gate", .setToValue "open", false⟩] }

/-- Puts the lamps out when the gate is open, and a note on the one in the rear. -/
def dimming : Rule where
  conditions := some [⟨"gate", .set none, false⟩]
  targets := [⟨"lamp", .set none, true⟩, ⟨"lamp.rear", .contains "dim", false⟩]

/-- Lights the lamps when the bell is set. -/
def lighting : Rule where
  conditions := some [⟨"bell", .set none, false⟩]
  targets := [⟨"lamp", .set none, false⟩]

/-- The second rule holds because of the first, and the third does not. -/
theorem porch_explained :
    Rule.enforced porch [opening, dimming, lighting] =
      [(opening, ⟨"gate", .setToValue "open", false⟩), (dimming, ⟨"lamp", .set none, true⟩),
        (dimming, ⟨"lamp.rear", .contains "dim", false⟩)] ∧
    ∃ o, (Run.of porch [opening, dimming, lighting] none none).outcome = .ok o ∧
      o.reasons.get? "lamp.front" = some (dimming.sentenceFor "lamp") ∧
      o.reasons.get? "lamp.rear" = some (dimming.sentenceFor "lamp.rear") ∧
      "bell" ∉ o.reasons.keys := by
  have henforced : Rule.enforced porch [opening, dimming, lighting] =
      [(opening, ⟨"gate", .setToValue "open", false⟩), (dimming, ⟨"lamp", .set none, true⟩),
        (dimming, ⟨"lamp.rear", .contains "dim", false⟩)] := by rfl
  have hw : Field.AllWritable porch := by
    simp [Field.AllWritable, porch, Value.Writable, Value.WritableItems]
  obtain ⟨hok, hall⟩ := Run.explained_by_enforced porch [opening, dimming, lighting] none none
  obtain ⟨o, ho⟩ := hok hw
  obtain ⟨-, hkeys, hget⟩ := hall o ho
  rw [henforced] at hkeys hget
  refine ⟨henforced, o, ho, (hget _).trans (by decide), (hget _).trans (by decide), ?_⟩
  rw [hkeys]
  decide

end FieldRules
