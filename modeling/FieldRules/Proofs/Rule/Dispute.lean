import FieldRules.Proofs.Value.Positions
import FieldRules.Rule.Conflict

/-! Rules that are at odds with themselves. Each clause is compared with the first one of its name
only, and still no two clauses that differ go unnoticed. -/
namespace FieldRules

namespace Clause

variable {cs first : List Clause} {c d : Clause} {name : String}

/-- Two clauses differ in their state or in their negation. -/
def AtOdds (c d : Clause) : Prop :=
  c.state ≠ d.state ∨ c.negated ≠ d.negated

instance (c d : Clause) : Decidable (AtOdds c d) :=
  inferInstanceAs (Decidable (_ ∨ _))

theorem not_atOdds_self (c : Clause) : ¬ c.AtOdds c := by
  simp [AtOdds]

/-- Two clauses that differ are not both like a third one. -/
theorem AtOdds.of_third (h : c.AtOdds d) (e : Clause) : e.AtOdds c ∨ e.AtOdds d := by
  by_contra hnone
  simp only [AtOdds, not_or, not_not] at hnone
  obtain ⟨⟨hstate, hnegated⟩, hstate', hnegated'⟩ := hnone
  rcases h with h | h
  · exact h (hstate.symm.trans hstate')
  · exact h (hnegated.symm.trans hnegated')

/-- The first clause of a name. -/
def leading? (cs : List Clause) (name : String) : Option Clause :=
  cs.find? (·.name == name)

/-- Whether a clause is at odds with the first of some clauses that has its name. -/
def strays (cs : List Clause) (c : Clause) : Bool :=
  (leading? cs c.name).any fun d => d.AtOdds c

theorem strays_eq (h : leading? cs c.name = some d) : strays cs c = decide (d.AtOdds c) := by
  rw [strays, h, Option.any_some]

theorem mem_of_leading? (h : leading? cs name = some c) : c ∈ cs ∧ c.name = name :=
  ⟨List.mem_of_find?_eq_some h, by simpa using List.find?_some h⟩

theorem exists_leading? (h : c ∈ cs) : ∃ d, leading? cs c.name = some d :=
  Option.isSome_iff_exists.mp (List.find?_isSome.mpr ⟨c, h, beq_self_eq_true _⟩)

theorem leading?_append (first cs : List Clause) (name : String) :
    leading? (first ++ cs) name = (leading? first name).or (leading? cs name) :=
  List.find?_append

theorem leading?_append_cons (h : leading? first c.name = some d) (name : String) :
    leading? (first ++ c :: cs) name = leading? (first ++ cs) name := by
  rw [leading?_append, leading?_append]
  by_cases hname : c.name = name
  · rw [← hname, h, Option.some_or, Option.some_or]
  · have hskip : leading? (c :: cs) name = leading? cs name :=
      List.find?_cons_of_neg (by simpa using hname)
    rw [hskip]

theorem leading?_append_cons_self (h : leading? first c.name = none) (cs : List Clause) :
    leading? (first ++ c :: cs) c.name = some c := by
  rw [leading?_append, h, Option.none_or]
  exact List.find?_cons_of_pos (beq_self_eq_true _)

theorem disputed_cons (first : List Clause) (c : Clause) (cs : List Clause) :
    disputed first (c :: cs) = match leading? first c.name with
      | none => disputed (first ++ [c]) cs
      | some d => if d.AtOdds c then c.name :: disputed first cs else disputed first cs :=
  rfl

/-- The search keeps the first clause of each name, and these decide about all others. -/
theorem disputed_eq_filter (first cs : List Clause) :
    disputed first cs = (cs.filter (strays (first ++ cs))).map (·.name) := by
  induction cs generalizing first with
  | nil => rfl
  | cons c cs ih =>
    rw [disputed_cons]
    cases hlead : leading? first c.name with
    | none =>
      -- a clause that is the first of its name agrees with itself
      have hstays : ¬ strays (first ++ c :: cs) c = true := by
        simp [strays_eq (leading?_append_cons_self hlead cs), not_atOdds_self]
      rw [List.filter_cons_of_neg hstays]
      dsimp only
      rw [ih, List.append_assoc]
      rfl
    | some d =>
      have hsame : strays (first ++ c :: cs) = strays (first ++ cs) := by
        funext e
        rw [strays, strays, leading?_append_cons hlead]
      have hfirst : leading? (first ++ cs) c.name = some d := by
        rw [leading?_append, hlead, Option.some_or]
      rw [hsame, List.filter_cons, strays_eq hfirst]
      dsimp only
      rw [ih]
      by_cases hodds : d.AtOdds c
      · simp [hodds]
      · simp [hodds]

/-- Where two clauses of a name differ, one of them differs from the first of that name. -/
theorem exists_strays_iff : (∃ c ∈ cs, strays cs c = true ∧ c.name = name) ↔
    ∃ c ∈ cs, ∃ d ∈ cs, c.name = name ∧ d.name = name ∧ c.AtOdds d := by
  constructor
  · rintro ⟨c, hc, hstrays, rfl⟩
    obtain ⟨d, hlead⟩ := exists_leading? hc
    obtain ⟨hd, hname⟩ := mem_of_leading? hlead
    rw [strays_eq hlead, decide_eq_true_eq] at hstrays
    exact ⟨d, hd, c, hc, hname, rfl, hstrays⟩
  · rintro ⟨c, hc, d, hd, rfl, hname, hodds⟩
    obtain ⟨e, hlead⟩ := exists_leading? hc
    rcases hodds.of_third e with hodds | hodds
    · exact ⟨c, hc, by rw [strays_eq hlead, decide_eq_true hodds], rfl⟩
    · rw [← hname] at hlead
      exact ⟨d, hd, by rw [strays_eq hlead, decide_eq_true hodds], hname⟩

end Clause

namespace Rule

variable {rules : List Rule} {number other : ℕ} {name : String}

/-- The two parts of a rule. -/
inductive Part
  | condition
  | target

namespace Part

/-- What a message calls a clause of a part. -/
def word : Part → String
  | .condition => "condition"
  | .target => "target"

/-- The clauses of a part. -/
def clauses (r : Rule) : Part → List Clause
  | .condition => r.conditionList
  | .target => r.targets

/-- Both parts, in the order in which they are looked through. -/
def all : List Part :=
  [.condition, .target]

theorem mem_all (part : Part) : part ∈ all := by
  cases part <;> simp [all]

end Part

/-- A rule has a number among some rules, which are counted from one. -/
def Numbered (rules : List Rule) (number : ℕ) (r : Rule) : Prop :=
  ∃ i, number = i + 1 ∧ rules[i]? = some r

/-- A number ends before the first blank. -/
theorem toString_append_inj {m n : ℕ} {s t : String}
    (h : toString m ++ (" involving " ++ s) = toString n ++ (" involving " ++ t)) :
    m = n ∧ s = t := by
  have hfront : ∀ (n : ℕ) (t : String),
      (toString n ++ (" involving " ++ t)).toList.takeWhile (· ≠ ' ') = (toString n).toList := by
    intro n t
    have hdigits : ∀ c ∈ (toString n).toList, decide (c ≠ ' ') = true := by
      intro c hc
      rw [decide_eq_true_eq]
      rintro rfl
      exact absurd (Numeral.isDigit_of_mem_toString hc) (by decide)
    simp only [String.toList_append]
    rw [List.takeWhile_append_of_pos hdigits]
    simp
  have hsame : m = n := by
    have hfronts := (hfront m s).symm.trans ((congrArg _ (congrArg _ h)).trans (hfront n t))
    exact Numeral.toString_injective (String.toList_inj.mp hfronts)
  subst hsame
  rw [String.append_right_inj, String.append_right_inj] at h
  exact ⟨rfl, h⟩

/-- A message tells the number of the rule, the part and the name. -/
theorem disputeMessage_inj {part part' : Part} {name' : String}
    (h : disputeMessage number part.word name = disputeMessage other part'.word name') :
    number = other ∧ part = part' ∧ name = name' := by
  unfold disputeMessage at h
  simp only [String.append_assoc] at h
  obtain ⟨hnumber, hwords⟩ := toString_append_inj ((String.append_right_inj _).mp h)
  refine ⟨hnumber, ?_⟩
  -- the words for the two parts start with different letters
  have hletters := congrArg String.toList hwords
  cases part <;> cases part' <;> simp [Part.word] at hletters <;>
    exact ⟨rfl, String.toList_inj.mp hletters⟩

/-- There is a message for each clause of a part that is at odds with the first one of its name
there, rule by rule and first for the conditions. -/
theorem disputes_eq_flatMap (rules : List Rule) :
    disputes rules = rules.zipIdx.flatMap fun a => Part.all.flatMap fun part =>
      ((part.clauses a.1).filter (Clause.strays (part.clauses a.1))).map fun c =>
        disputeMessage (a.2 + 1) part.word c.name := by
  unfold disputes
  refine congrArg (List.flatMap · rules.zipIdx) (funext fun a => ?_)
  simp [Part.all, Part.word, Part.clauses, Clause.disputed_eq_filter, Function.comp_def]

theorem mem_disputes_iff {m : String} : m ∈ disputes rules ↔
    ∃ number, ∃ part : Part, ∃ name r, Numbered rules number r ∧
      m = disputeMessage number part.word name ∧
        ∃ c ∈ part.clauses r, Clause.strays (part.clauses r) c = true ∧ c.name = name := by
  rw [disputes_eq_flatMap]
  simp only [List.mem_flatMap, List.mem_map, List.mem_filter, Prod.exists,
    List.mk_mem_zipIdx_iff_getElem?]
  constructor
  · rintro ⟨r, i, hr, part, -, c, ⟨hc, hstrays⟩, rfl⟩
    exact ⟨i + 1, part, c.name, r, ⟨i, rfl, hr⟩, rfl, c, hc, hstrays, rfl⟩
  · rintro ⟨number, part, name, r, ⟨i, rfl, hr⟩, rfl, c, hc, hstrays, rfl⟩
    exact ⟨r, i, hr, part, part.mem_all, c, ⟨hc, hstrays⟩, rfl⟩

/-- There is a message with the number of a rule, a part and a name exactly when two clauses of that
part of the rule have the name and differ in state or negation, although each clause is compared
with the first of its name alone. -/
theorem disputes_sound_complete (rules : List Rule) :
    (disputes rules = rules.zipIdx.flatMap fun a => Part.all.flatMap fun part =>
      ((part.clauses a.1).filter (Clause.strays (part.clauses a.1))).map fun c =>
        disputeMessage (a.2 + 1) part.word c.name) ∧
    ∀ number (part : Part) name, disputeMessage number part.word name ∈ disputes rules ↔
      ∃ r, Numbered rules number r ∧ ∃ c ∈ part.clauses r, ∃ d ∈ part.clauses r,
        c.name = name ∧ d.name = name ∧ c.AtOdds d := by
  refine ⟨disputes_eq_flatMap rules, fun number part name => ?_⟩
  rw [mem_disputes_iff]
  constructor
  · rintro ⟨number', part', name', r, hr, hmessage, hstrays⟩
    obtain ⟨rfl, rfl, rfl⟩ := disputeMessage_inj hmessage
    exact ⟨r, hr, Clause.exists_strays_iff.mp hstrays⟩
  · rintro ⟨r, hr, hodds⟩
    exact ⟨number, part, name, r, hr, rfl, Clause.exists_strays_iff.mpr hodds⟩

end Rule

end FieldRules
