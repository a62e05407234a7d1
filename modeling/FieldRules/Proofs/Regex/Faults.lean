import FieldRules.Proofs.Regex.Reading
import FieldRules.Proofs.Value.Decoded
import FieldRules.Regex.Parser

/-! Regular expressions that are always judged. A text without ten digits in a row, and without
flags for two repertoires of letters, is read or refused as malformed. -/
namespace FieldRules.Regex

open Std.Do Reading

set_option mvcgen.warning false

/-- No ten digits stand in a row. -/
def FewDigits (all : List Sign) : Prop :=
  ∀ ds : List Char, ds.map .plain <:+: all → (∀ d ∈ ds, isDigitIn 10 d) → ds.length < 10

variable {all : List Sign}

@[grind =]
theorem Reader.within_iff {r : Reader} : r.Within all ↔ r.rest <:+ all ∧ r.flags.Within all :=
  ⟨fun h => ⟨h.rest, h.flags⟩, fun h => ⟨h.1, h.2⟩⟩

/-- At most nine digits are few enough to be read. -/
theorem readNat_eq {cs : List Char} (h : cs.length < 10) :
    Numeral.readNat cs = .ok (Numeral.value cs) :=
  if_pos (h.le.trans (by decide))

/-- A count of at most nine digits is small enough. -/
theorem repetitions_eq {cs : List Char} (h : cs.length < 10) :
    repetitions cs = pure (Numeral.value cs) := by
  have hvalue : Numeral.value cs < 10 ^ 9 :=
    (Numeral.value_lt cs).trans_le (Nat.pow_le_pow_right (by omega) (by omega))
  unfold repetitions
  rw [readNat_eq h]
  exact if_neg (by omega)

variable (all)

theorem repetitions_spec (cs : List Char) :
    ⦃fun r => ⌜r.Within all ∧ cs.length < 10⌝⦄ repetitions cs ⦃Reads all fun _ => True⦄ := by
  intro r h
  rw [repetitions_eq h.2]
  exact ⟨h.1, trivial⟩

theorem braceBounds_spec (h : FewDigits all) :
    ⦃fun r => ⌜r.Within all⌝⦄ braceBounds ⦃Reads all fun _ => True⦄ := by
  have hpeek := peek_spec all
  have haccept := accept_spec all
  have htake := takeWhile_spec all
  have hrepetitions := repetitions_spec all
  mvcgen [braceBounds, hpeek, haccept, htake, hrepetitions]
  all_goals tauto

theorem repeatLast_spec (least : ℕ) (most : Option ℕ) (pieces : List Piece) :
    ⦃fun r => ⌜r.Within all⌝⦄ repeatLast least most pieces ⦃Reads all fun _ => True⦄ := by
  have haccept := accept_spec all
  mvcgen [repeatLast, haccept]
  all_goals grind

@[grind .]
theorem Flags.within_none : Flags.Within all {} :=
  ⟨by simp, by simp⟩

theorem Flags.within_iff {f : Flags} : f.Within all ↔
    (f.ascii → .plain '?' ∈ all ∧ .plain 'a' ∈ all) ∧
      (f.unicode → .plain '?' ∈ all ∧ .plain 'u' ∈ all) :=
  ⟨fun h => ⟨h.ascii, h.unicode⟩, fun h => ⟨h.1, h.2⟩⟩

@[grind =]
theorem Flags.within_union {f g : Flags} :
    (f.union g).Within all ↔ f.Within all ∧ g.Within all := by
  simp only [Flags.within_iff, Flags.union, Flags.zip, Bool.or_eq_true]
  tauto

/-- Letters are chosen inside a group only by its own flags or outside of it. -/
@[grind ←]
theorem Flags.Within.inside {f on : Flags} (hf : f.Within all) (hon : on.Within all) (off : Flags) :
    (f.within on off).Within all := by
  rw [Flags.within_iff] at hf hon ⊢
  unfold Flags.within
  split <;> simp [Flags.union, Flags.zip] <;> grind

theorem Flags.within_ofLetter? {c : Char} {f : Flags} (hquery : .plain '?' ∈ all)
    (hc : .plain c ∈ all) (h : Flags.ofLetter? c = some f) : f.Within all := by
  unfold Flags.ofLetter? at h
  split at h <;> cases h <;> exact ⟨by simp [*], by simp [*]⟩

theorem flagLetters_spec (fuel : ℕ) (seen : Flags) (c : Char) :
    ⦃fun r => ⌜r.Within all ∧ .plain '?' ∈ all ∧ seen.Within all ∧ .plain c ∈ all⌝⦄
    flagLetters fuel seen c ⦃Reads all fun p => p.1.Within all⦄ := by
  have hnext := next_spec all
  have hletter := @Flags.within_ofLetter? all
  induction fuel generalizing seen c with
  | zero => mvcgen [flagLetters]
  | succ fuel ih =>
    mvcgen [flagLetters, hnext, ih]
    all_goals grind

theorem groupFlags_spec (fuel : ℕ) (c : Char) :
    ⦃fun r => ⌜r.Within all ∧ .plain '?' ∈ all ∧ .plain c ∈ all⌝⦄ groupFlags fuel c
    ⦃Reads all fun p => ∀ on off, p = some (on, off) → on.Within all⦄ := by
  have hnext := next_spec all
  have hletters := flagLetters_spec all
  mvcgen [groupFlags, hnext, hletters]
  all_goals grind

theorem openGroup_spec (groupName : Option (List Char)) :
    ⦃fun r => ⌜r.Within all⌝⦄ openGroup groupName ⦃Reads all fun _ => True⦄ := by
  have hcount := groupCount_spec all
  mvcgen [openGroup, hcount]
  all_goals grind

theorem closeGroup_spec (index : ℕ) (width : Width) :
    ⦃fun r => ⌜r.Within all⌝⦄ closeGroup index width ⦃Reads all fun _ => True⦄ := by
  mvcgen [closeGroup]
  grind

theorem closing_spec : ⦃fun r => ⌜r.Within all⌝⦄ closing ⦃Reads all fun _ => True⦄ := by
  have haccept := accept_spec all
  mvcgen [closing, haccept]
  grind

theorem askedGroup_spec (h : FewDigits all) (cs : List Char) :
    ⦃fun r => ⌜r.Within all ∧ ((∀ c ∈ cs, isDigitIn 10 c) → cs.map .plain <:+: all)⌝⦄
    askedGroup cs ⦃Reads all fun _ => True⦄ := by
  mvcgen [askedGroup, throw_spec, -Spec.throw_MonadExcept]
  · rename_i hdigits f hread _ hwithin
    have hall : ∀ c ∈ cs, isDigitIn 10 c := List.all_eq_true.mp hdigits
    rw [readNat_eq (h cs (hwithin.2 hall) hall)] at hread
    cases hread
  all_goals grind

theorem skipLine_spec : ⦃fun r => ⌜r.Within all⌝⦄ skipLine ⦃Reads all fun _ => True⦄ := by
  have hpeek := peek_spec all
  mvcgen [skipLine, hpeek]
  all_goals grind [Reader.Within.drop]

theorem skipComment_spec : ⦃fun r => ⌜r.Within all⌝⦄ skipComment ⦃Reads all fun _ => True⦄ := by
  have hpeek := peek_spec all
  mvcgen [skipComment, hpeek]
  all_goals grind [Reader.Within.drop]

theorem behindWidth_spec (w : Width) :
    ⦃fun r => ⌜r.Within all⌝⦄ behindWidth w ⦃Reads all fun _ => True⦄ := by
  mvcgen [behindWidth]
  all_goals grind

/-- What every function of the reader does in a number of steps. -/
structure StepsRead (fuel : ℕ) : Prop where
  alternatives (first : Bool) :
    ⦃fun r => ⌜r.Within all⌝⦄ alternatives fuel first ⦃Reads all fun _ => True⦄
  branches (first : Bool) :
    ⦃fun r => ⌜r.Within all⌝⦄ branches fuel first ⦃Reads all fun _ => True⦄
  sequence (first : Bool) (pieces : List Piece) :
    ⦃fun r => ⌜r.Within all⌝⦄ sequence fuel first pieces ⦃Reads all fun _ => True⦄
  capture (groupName : Option (List Char)) :
    ⦃fun r => ⌜r.Within all⌝⦄ capture fuel groupName ⦃Reads all fun _ => True⦄
  extension (first atStart : Bool) :
    ⦃fun r => ⌜r.Within all ∧ .plain '?' ∈ all⌝⦄ extension fuel first atStart
    ⦃Reads all fun _ => True⦄
  lookAhead (negated : Bool) :
    ⦃fun r => ⌜r.Within all⌝⦄ lookAhead fuel negated ⦃Reads all fun _ => True⦄
  lookBehind (negated : Bool) :
    ⦃fun r => ⌜r.Within all⌝⦄ lookBehind fuel negated ⦃Reads all fun _ => True⦄

theorem stepsRead_zero : StepsRead all 0 where
  alternatives first := by mvcgen [alternatives]
  branches first := by mvcgen [branches]
  sequence first pieces := by mvcgen [sequence]
  capture groupName := by mvcgen [capture]
  extension first atStart := by mvcgen [extension]
  lookAhead negated := by mvcgen [lookAhead]
  lookBehind negated := by mvcgen [lookBehind]

variable {all} {fuel : ℕ}

theorem StepsRead.alternatives_succ (h : StepsRead all fuel) (first : Bool) :
    ⦃fun r => ⌜r.Within all⌝⦄ Regex.alternatives (fuel + 1) first ⦃Reads all fun _ => True⦄ := by
  have hbranches := h.branches
  mvcgen [Regex.alternatives, hbranches]

theorem StepsRead.branches_succ (h : StepsRead all fuel) (first : Bool) :
    ⦃fun r => ⌜r.Within all⌝⦄ Regex.branches (fuel + 1) first ⦃Reads all fun _ => True⦄ := by
  have hsequence := h.sequence
  have hbranches := h.branches
  have haccept := accept_spec all
  mvcgen [Regex.branches, hsequence, hbranches, haccept]
  all_goals grind

theorem StepsRead.capture_succ (h : StepsRead all fuel) (groupName : Option (List Char)) :
    ⦃fun r => ⌜r.Within all⌝⦄ Regex.capture (fuel + 1) groupName ⦃Reads all fun _ => True⦄ := by
  have halternatives := h.alternatives
  have hopen := openGroup_spec all
  have hclosing := closing_spec all
  have hclose := closeGroup_spec all
  mvcgen [Regex.capture, halternatives, hopen, hclosing, hclose]
  all_goals assumption

theorem StepsRead.lookAhead_succ (h : StepsRead all fuel) (negated : Bool) :
    ⦃fun r => ⌜r.Within all⌝⦄ Regex.lookAhead (fuel + 1) negated ⦃Reads all fun _ => True⦄ := by
  have halternatives := h.alternatives
  have hclosing := closing_spec all
  mvcgen [Regex.lookAhead, halternatives, hclosing]
  all_goals assumption

theorem StepsRead.lookBehind_succ (h : StepsRead all fuel) (negated : Bool) :
    ⦃fun r => ⌜r.Within all⌝⦄ Regex.lookBehind (fuel + 1) negated ⦃Reads all fun _ => True⦄ := by
  have halternatives := h.alternatives
  have hcount := groupCount_spec all
  have hclosing := closing_spec all
  have hwidth := behindWidth_spec all
  mvcgen [Regex.lookBehind, halternatives, hcount, hclosing, hwidth]
  all_goals grind

theorem StepsRead.sequence_succ (h : StepsRead all fuel) (hd : FewDigits all) (first : Bool)
    (pieces : List Piece) :
    ⦃fun r => ⌜r.Within all⌝⦄ Regex.sequence (fuel + 1) first pieces ⦃Reads all fun _ => True⦄ := by
  have hsequence := h.sequence
  have hcapture := h.capture
  have hextension := h.extension
  have hpeek := peek_spec all
  have hnext := next_spec all
  have haccept := accept_spec all
  have hescape := escapePiece_spec all
  have hitems := setItems_spec all
  have hline := skipLine_spec all
  have hrepeat := repeatLast_spec all
  have hbrace := braceBounds_spec all hd
  mvcgen [Regex.sequence, hsequence, hcapture, hextension, hpeek, hnext, haccept, hescape, hitems,
    hline, hrepeat, hbrace]
  all_goals grind

theorem StepsRead.extension_succ (h : StepsRead all fuel) (hd : FewDigits all)
    (first atStart : Bool) :
    ⦃fun r => ⌜r.Within all ∧ .plain '?' ∈ all⌝⦄ Regex.extension (fuel + 1) first atStart
    ⦃Reads all fun _ => True⦄ := by
  have halternatives := h.alternatives
  have hsequence := h.sequence
  have hcapture := h.capture
  have hahead := h.lookAhead
  have hbehind := h.lookBehind
  have hnext := next_spec all
  have haccept := accept_spec all
  have hname := name_spec all
  have hsame := samePiece_spec all
  have hclosing := closing_spec all
  have hcomment := skipComment_spec all
  have hasked := askedGroup_spec all hd
  have hcheck := checkBehind_spec all
  have hflags := groupFlags_spec all
  mvcgen [Regex.extension, halternatives, hsequence, hcapture, hahead, hbehind, hnext, haccept,
    hname, hsame, hclosing, hcomment, hasked, hcheck, hflags]
  all_goals grind

theorem stepsRead (hd : FewDigits all) : ∀ fuel, StepsRead all fuel
  | 0 => stepsRead_zero all
  | fuel + 1 =>
    have h := stepsRead hd fuel
    { alternatives := h.alternatives_succ
      branches := h.branches_succ
      sequence := h.sequence_succ hd
      capture := h.capture_succ
      extension := h.extension_succ hd
      lookAhead := h.lookAhead_succ
      lookBehind := h.lookBehind_succ }

theorem whole_spec (hd : FewDigits all)
    (hl : ¬ (.plain '?' ∈ all ∧ .plain 'a' ∈ all ∧ .plain 'u' ∈ all)) :
    ⦃fun r => ⌜r.Within all⌝⦄ whole ⦃Reads all fun _ => True⦄ := by
  have hpeek := peek_spec all
  have halternatives := fun fuel => (stepsRead hd fuel).alternatives
  mvcgen [whole, hpeek, halternatives, throw_spec, -Spec.throw_MonadExcept]
  · rename_i h
    exact h.1
  · rename_i hboth h
    rw [Bool.and_eq_true] at hboth
    have hascii := h.flags.ascii hboth.1
    have hunicode := h.flags.unicode hboth.2
    exact absurd ⟨hascii.1, hascii.2, hunicode.2⟩ hl

theorem flatMap_signs (cs : List Char) : (signs cs).flatMap Sign.chars = cs := by
  fun_induction signs cs <;> simp_all [Sign.chars]

theorem infix_of_map_plain {ds cs : List Char} (h : ds.map .plain <:+: signs cs) : ds <:+: cs := by
  obtain ⟨front, rest, h⟩ := h
  refine ⟨front.flatMap Sign.chars, rest.flatMap Sign.chars, ?_⟩
  rw [← flatMap_signs cs, ← h]
  simp [Sign.chars, List.flatMap_map]

theorem mem_of_plain_mem_signs {c : Char} {cs : List Char} (h : .plain c ∈ signs cs) : c ∈ cs := by
  rw [← flatMap_signs cs]
  exact List.mem_flatMap.mpr ⟨_, h, by simp [Sign.chars]⟩

theorem isDigit_of_isDigitIn {c : Char} (h : isDigitIn 10 c) : Json.isDigit c := by
  by_contra hnot
  simp only [Json.isDigit, Bool.and_eq_true, decide_eq_true_eq] at hnot
  unfold isDigitIn digitIn at h
  dsimp only at h
  rw [if_neg hnot, if_neg] at h
  · cases h
  · split_ifs <;> omega

/-- A text without ten digits in a row, in which flags for both repertoires of letters cannot be
written, is a regular expression or a malformed one. -/
theorem parse_ne_fault {s : String} {f : Fault} {codeOfName? : List Char → Option Nat}
    (hd : ∀ ds, ds <:+: s.toList → (∀ d ∈ ds, Json.isDigit d) → ds.length < 10)
    (hl : ¬ ('?' ∈ s.toList ∧ 'a' ∈ s.toList ∧ 'u' ∈ s.toList)) :
    Regex.parse {} s codeOfName? ≠ .error (.fault f) := by
  have hdigits : FewDigits (signs s.toList) := fun ds hds hall =>
    hd ds (infix_of_map_plain hds) fun d h => isDigit_of_isDigitIn (hall d h)
  have hletters : ¬ (.plain '?' ∈ signs s.toList ∧ .plain 'a' ∈ signs s.toList ∧
      .plain 'u' ∈ signs s.toList) := fun ⟨hq, ha, hu⟩ =>
    hl ⟨mem_of_plain_mem_signs hq, mem_of_plain_mem_signs ha, mem_of_plain_mem_signs hu⟩
  have hwhole := whole_spec hdigits hletters { rest := signs s.toList, codeOfName? }
    ⟨List.suffix_refl _, Flags.within_none _⟩
  intro hparse
  cases hrun : whole.run { rest := signs s.toList, codeOfName? } with
  | ok r =>
    rw [Regex.parse, hrun] at hparse
    cases hparse
  | error refusal =>
    have hmalformed : refusal = .malformed := by
      simp only [wp, PredTrans.apply_pushArg, hrun] at hwhole
      exact hwhole
    rw [Regex.parse, hrun, hmalformed] at hparse
    cases hparse

end FieldRules.Regex
