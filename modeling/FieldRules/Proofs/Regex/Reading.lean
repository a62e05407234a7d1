import FieldRules.Regex.Escape
import Mathlib

/-! Reading a regular expression sign by sign. What is read comes from the text, and it is refused
as malformed or not at all. -/
namespace FieldRules.Regex

open Std.Do Reading

set_option mvcgen.warning false

/-- The choices of letters among the flags are in the signs of a text, after a question mark. -/
structure Flags.Within (all : List Sign) (f : Flags) : Prop where
  ascii : f.ascii → .plain '?' ∈ all ∧ .plain 'a' ∈ all
  unicode : f.unicode → .plain '?' ∈ all ∧ .plain 'u' ∈ all

/-- A reader of the signs of a text: the rest is the end of them, and flags come from them. -/
structure Reader.Within (all : List Sign) (r : Reader) : Prop where
  rest : r.rest <:+ all
  flags : r.flags.Within all

variable {α : Type} {all : List Sign}

/-- After reading: the reader is still in the text, and what was read has a property. The only
refusal is that the text is malformed. -/
abbrev Reads (all : List Sign) (Q : α → Prop) : PostCond α (.arg Reader (.except Refusal .pure)) :=
  post⟨fun a r => ⌜r.Within all ∧ Q a⌝, fun e => ⌜e = .malformed⌝⟩

theorem Reader.Within.drop {r : Reader} (h : r.Within all) (n : ℕ) :
    Reader.Within all { r with rest := r.rest.drop n } where
  rest := (List.drop_suffix n r.rest).trans h.rest
  flags := h.flags

theorem Reader.Within.tail {r : Reader} (h : r.Within all) :
    Reader.Within all { r with rest := r.rest.tail } := by
  simpa using h.drop 1

theorem throw_spec {e : Refusal} {Q : α → Assertion (.arg Reader (.except Refusal .pure))} :
    ⦃fun _ => ⌜e = .malformed⌝⦄ (throw e : Reading α) ⦃post⟨Q, fun e => ⌜e = .malformed⌝⟩⦄ :=
  fun _ h => h

@[spec]
theorem malformed_spec {P : Assertion (.arg Reader (.except Refusal .pure))}
    {Q : α → Assertion (.arg Reader (.except Refusal .pure))} :
    ⦃P⦄ (malformed : Reading α) ⦃post⟨Q, fun e => ⌜e = .malformed⌝⟩⦄ := by
  intro r _
  exact rfl

theorem peek_exact {r₀ : Reader} :
    ⦃fun r => ⌜r = r₀⌝⦄ peek
    ⦃post⟨fun s r => ⌜r = r₀ ∧ s = r₀.rest.head?⌝, fun e => ⌜e = .malformed⌝⟩⦄ := by
  mvcgen [peek]
  simp_all

theorem next_exact {r₀ : Reader} :
    ⦃fun r => ⌜r = r₀⌝⦄ next
    ⦃post⟨fun s r => ⌜r = { r₀ with rest := r₀.rest.tail } ∧ s = r₀.rest.head?⌝,
      fun e => ⌜e = .malformed⌝⟩⦄ := by
  mvcgen [next, peek_exact]
  rename_i h _ _ _ h'
  obtain ⟨rfl, rfl⟩ := h
  subst_vars
  exact ⟨h'.1, rfl⟩

/-- Characters that are taken are those at the front, one after the other. -/
theorem takeWhile_exact {p : Char → Bool} {n : ℕ} {r₀ : Reader} :
    ⦃fun r => ⌜r = r₀⌝⦄ takeWhile p n
    ⦃post⟨fun cs r => ⌜∃ rest, r = { r₀ with rest } ∧ r₀.rest = cs.map .plain ++ rest ∧
      ∀ c ∈ cs, p c⌝, fun e => ⌜e = .malformed⌝⟩⦄ := by
  induction n generalizing r₀ with
  | zero =>
    mvcgen [takeWhile]
    subst_vars
    exact ⟨_, rfl, rfl, by simp⟩
  | succ n ih =>
    mvcgen [takeWhile, peek_exact, next_exact, ih]
    · rename_i s hs sign c _ hc s₁ hpeek sign₁ s₂ hnext cs s₃ htake
      obtain ⟨rfl, hhead⟩ := hpeek
      obtain ⟨rfl, -⟩ := hnext
      obtain ⟨rest, rfl, hrest, hcs⟩ := htake
      subst hs
      refine ⟨rest, rfl, ?_, List.forall_mem_cons.mpr ⟨hc, hcs⟩⟩
      rw [List.map_cons, List.cons_append, ← hrest]
      exact (List.cons_head?_tail hhead.symm).symm
    · rename_i s hs sign c _ hc s₁ hpeek
      obtain ⟨rfl, -⟩ := hpeek
      subst hs
      exact ⟨_, rfl, rfl, by simp⟩
    · rename_i s hs _ _ _ _ s₁ hpeek
      obtain ⟨rfl, -⟩ := hpeek
      subst hs
      exact ⟨_, rfl, rfl, by simp⟩

variable (all)

theorem peek_spec :
    ⦃fun r => ⌜r.Within all⌝⦄ peek ⦃Reads all fun s => ∀ c, s = some c → c ∈ all⦄ := by
  mvcgen [peek_exact]
  rename_i h _ _
  rintro rfl rfl
  exact ⟨h, fun c hc => h.rest.mem (List.mem_of_head? hc)⟩

theorem next_spec :
    ⦃fun r => ⌜r.Within all⌝⦄ next ⦃Reads all fun s => ∀ c, s = some c → c ∈ all⦄ := by
  mvcgen [next_exact]
  rename_i h _ _
  rintro rfl rfl
  exact ⟨h.tail, fun c hc => h.rest.mem (List.mem_of_head? hc)⟩

theorem accept_spec (c : Char) :
    ⦃fun r => ⌜r.Within all⌝⦄ accept c ⦃Reads all fun b => b → .plain c ∈ all⦄ := by
  have hpeek := peek_spec all
  have hnext := next_spec all
  mvcgen [accept, hpeek, hnext]
  all_goals simp_all

theorem takeWhile_spec (p : Char → Bool) (n : ℕ) :
    ⦃fun r => ⌜r.Within all⌝⦄ takeWhile p n
    ⦃Reads all fun cs => cs.map .plain <:+: all ∧ ∀ c ∈ cs, p c⦄ := by
  mvcgen [takeWhile_exact]
  rename_i s h cs _
  rintro ⟨rest, rfl, hrest, hcs⟩
  have hfront : cs.map Sign.plain <+: s.rest := ⟨rest, hrest.symm⟩
  have hend : rest <:+ s.rest := ⟨_, hrest.symm⟩
  exact ⟨⟨hend.trans h.rest, h.flags⟩, hfront.isInfix.trans h.rest.isInfix, hcs⟩

/-- Signs that were written with digits alone are those digits. -/
theorem map_plain_of_digits {taken : List Sign}
    (h : ∀ c ∈ taken.flatMap Sign.chars, isDigitIn 10 c) :
    (taken.flatMap Sign.chars).map .plain = taken := by
  induction taken with
  | nil => rfl
  | cons sign taken ih =>
    rw [List.flatMap_cons, List.forall_mem_append] at h
    rw [List.flatMap_cons, List.map_append, ih h.2]
    cases sign with
    | plain c => rfl
    | escaped c | dangling => exact absurd (h.1 '\\' List.mem_cons_self) (by decide)

theorem name_spec (stop : Char) :
    ⦃fun r => ⌜r.Within all⌝⦄ name stop
    ⦃Reads all fun cs => (∀ c ∈ cs, isDigitIn 10 c) → cs.map .plain <:+: all⦄ := by
  mvcgen [name, peek_exact]
  rename_i h rest taken _ _ _ _ _ hpeek
  rw [hpeek.1]
  refine ⟨h.drop _, fun hdigits => ?_⟩
  rw [map_plain_of_digits hdigits]
  exact (List.takeWhile_prefix _).isInfix.trans h.rest.isInfix

theorem groupCount_spec :
    ⦃fun r => ⌜r.Within all⌝⦄ groupCount ⦃Reads all fun _ => True⦄ := by
  mvcgen [groupCount]

theorem checkBehind_spec (index : ℕ) :
    ⦃fun r => ⌜r.Within all⌝⦄ checkBehind index ⦃Reads all fun _ => True⦄ := by
  mvcgen [checkBehind]

theorem groupWidth_spec (index : ℕ) :
    ⦃fun r => ⌜r.Within all⌝⦄ groupWidth index ⦃Reads all fun _ => True⦄ := by
  mvcgen [groupWidth]

theorem hexCode_spec (digits : ℕ) :
    ⦃fun r => ⌜r.Within all⌝⦄ hexCode digits ⦃Reads all fun _ => True⦄ := by
  have htake := takeWhile_spec all
  mvcgen [hexCode, htake]
  simp_all

theorem namedCode_spec : ⦃fun r => ⌜r.Within all⌝⦄ namedCode ⦃Reads all fun _ => True⦄ := by
  have haccept := accept_spec all
  have hname := name_spec all
  mvcgen [namedCode, haccept, hname]
  all_goals simp_all

theorem octalCode_spec (first : Char) :
    ⦃fun r => ⌜r.Within all⌝⦄ octalCode first ⦃Reads all fun _ => True⦄ := by
  have htake := takeWhile_spec all
  mvcgen [octalCode, htake]
  all_goals simp_all

theorem commonEscape_spec (c : Char) :
    ⦃fun r => ⌜r.Within all⌝⦄ commonEscape c ⦃Reads all fun _ => True⦄ := by
  have hhex := hexCode_spec all
  have hnamed := namedCode_spec all
  mvcgen [commonEscape, hhex, hnamed]

theorem setEscape_spec (c : Char) :
    ⦃fun r => ⌜r.Within all⌝⦄ setEscape c ⦃Reads all fun _ => True⦄ := by
  have hoctal := octalCode_spec all
  have hcommon := commonEscape_spec all
  mvcgen [setEscape, hoctal, hcommon]

theorem samePiece_spec (index : ℕ) :
    ⦃fun r => ⌜r.Within all⌝⦄ samePiece index ⦃Reads all fun _ => True⦄ := by
  have hwidth := groupWidth_spec all
  have hbehind := checkBehind_spec all
  mvcgen [samePiece, hwidth, hbehind]
  assumption

theorem numberEscape_spec (first : Char) :
    ⦃fun r => ⌜r.Within all⌝⦄ numberEscape first ⦃Reads all fun _ => True⦄ := by
  have htake := takeWhile_spec all
  have hcount := groupCount_spec all
  have hsame := samePiece_spec all
  mvcgen [numberEscape, htake, hcount, hsame]
  all_goals simp_all

theorem escapePiece_spec (c : Char) :
    ⦃fun r => ⌜r.Within all⌝⦄ escapePiece c ⦃Reads all fun _ => True⦄ := by
  have htake := takeWhile_spec all
  have hnumber := numberEscape_spec all
  have hcommon := commonEscape_spec all
  mvcgen [escapePiece, htake, hnumber, hcommon]
  rename_i h
  exact h.1

theorem setPart_spec (sign : Option Sign) :
    ⦃fun r => ⌜r.Within all⌝⦄ setPart sign ⦃Reads all fun _ => True⦄ := by
  have hescape := setEscape_spec all
  mvcgen [setPart, hescape]

theorem setItems_spec (fuel : ℕ) (items : List SetItem) :
    ⦃fun r => ⌜r.Within all⌝⦄ setItems fuel items ⦃Reads all fun _ => True⦄ := by
  have hnext := next_spec all
  have haccept := accept_spec all
  have hpart := setPart_spec all
  induction fuel generalizing items with
  | zero => mvcgen [setItems]
  | succ fuel ih =>
    mvcgen [setItems, ih, hnext, haccept, hpart]
    all_goals tauto

end FieldRules.Regex
