import FieldRules.Proofs.Numeral
import FieldRules.Proofs.Range.Grammar

/-! Reading a text as a range: every part of the reader takes what the form that it is for allows,
and makes of it what the form does. -/
namespace FieldRules.Range

variable {t : String} {r : Range} {cs lo hi : List Char} {min max : Option ℤ}

theorem value_eq_decimal (ds : List Char) : Numeral.value ds = decimal ds := by
  unfold Numeral.value Numeral.ofDigits decimal
  rw [Nat.ofDigits_eq_foldr, List.foldr_reverse]
  congr 1
  funext n d
  simp [Nat.add_comm]

theorem readNat_of_isNumeral (h : IsNumeral cs)
    (hcount : cs.countP Text.isDigit ≤ Numeral.maxDigits) :
    Numeral.readNat cs = .ok (decimal cs) := by
  rw [countP_of_isNumeral h] at hcount
  rw [Numeral.readNat, if_pos hcount, value_eq_decimal]

theorem bound_of_isBound (h : IsBound cs min)
    (hcount : cs.countP Text.isDigit ≤ Numeral.maxDigits) : bound cs = .ok min := by
  cases h with
  | none => rfl
  | plain h =>
    rw [bound, if_neg (by simpa using h.1), Numeral.readInt_of_isDigit h.2,
      readNat_of_isNumeral h hcount]
    rfl
  | @minus ds h =>
    have hminus : Text.isDigit '-' = false := by decide
    rw [List.countP_cons_of_neg (by simp [hminus])] at hcount
    rw [bound, if_neg (by simp), Numeral.readInt, readNat_of_isNumeral h hcount]
    rfl

theorem boundsOf_of_isBound (hlo : IsBound lo min) (hhi : IsBound hi max)
    (hcount : lo.countP Text.isDigit ≤ Numeral.maxDigits ∧
      hi.countP Text.isDigit ≤ Numeral.maxDigits) : boundsOf lo hi = .ok ⟨min, max⟩ := by
  rw [boundsOf, bound_of_isBound hlo hcount.1, bound_of_isBound hhi hcount.2]
  rfl

/-- Digits, perhaps after a minus sign. -/
def IsSigned (cs : List Char) : Prop :=
  ∃ sign ds, (sign = [] ∨ sign = ['-']) ∧ cs = sign ++ ds ∧ ∀ d ∈ ds, Text.isDigit d

theorem isSigned_of_isBound (h : IsBound cs min) : IsSigned cs ∧ cs ≠ ['-'] := by
  cases h with
  | none => exact ⟨⟨[], [], .inl rfl, rfl, by simp⟩, by simp⟩
  | plain h =>
    refine ⟨⟨[], cs, .inl rfl, rfl, h.2⟩, ?_⟩
    rintro rfl
    exact absurd (h.2 '-' List.mem_cons_self) (by decide)
  | @minus ds h =>
    refine ⟨⟨['-'], ds, .inr rfl, rfl, h.2⟩, fun hnone => ?_⟩
    exact h.1 (List.cons.inj hnone).2

theorem isBound_of_isDigit (h : ∀ d ∈ cs, Text.isDigit d) : ∃ min, IsBound cs min := by
  by_cases hempty : cs = []
  · exact ⟨none, hempty ▸ .none⟩
  · exact ⟨_, .plain ⟨hempty, h⟩⟩

theorem exists_isBound (h : IsSigned cs) (hne : cs ≠ ['-']) : ∃ min, IsBound cs min := by
  obtain ⟨sign, ds, rfl | rfl, rfl, hds⟩ := h
  · exact isBound_of_isDigit hds
  · have hsome : ds ≠ [] := by
      rintro rfl
      exact hne rfl
    exact ⟨_, .minus ⟨hsome, hds⟩⟩

theorem signedDigits_append {c : Char} (h : IsSigned lo) (hc : Text.isDigit c = false)
    (hminus : c ≠ '-') (rest : List Char) : signedDigits (lo ++ c :: rest) = (lo, c :: rest) := by
  obtain ⟨sign, ds, hsign, rfl, hds⟩ := h
  obtain ⟨htake, hdrop⟩ := Text.run_append hds hc rest
  rcases hsign with rfl | rfl
  · rw [List.nil_append]
    unfold signedDigits
    split
    · rename_i cs hcs
      cases ds with
      | nil => exact absurd (List.cons.inj hcs).1 hminus
      | cons d ds =>
        have hd : Text.isDigit d = true := hds d List.mem_cons_self
        rw [(List.cons.inj hcs).1] at hd
        exact absurd hd (by decide)
    · rw [htake, hdrop]
  · rw [List.append_assoc, List.singleton_append, signedDigits, htake, hdrop]
    rfl

theorem of_signedDigits {rest : List Char} (h : signedDigits cs = (lo, rest)) :
    cs = lo ++ rest ∧ IsSigned lo := by
  have hdigits : ∀ cs : List Char, ∀ d ∈ cs.takeWhile Text.isDigit, Text.isDigit d :=
    fun cs d => List.mem_takeWhile_imp
  unfold signedDigits at h
  split at h
  · cases h
    exact ⟨by simp, ['-'], _, .inr rfl, rfl, hdigits _⟩
  · cases h
    exact ⟨by simp, [], _, .inl rfl, rfl, hdigits _⟩

theorem interval?_eq_some :
    interval? cs = some (lo, hi) ↔ cs = parens lo hi ∧ IsSigned lo ∧ IsSigned hi := by
  constructor
  · intro h
    unfold interval? at h
    split at h
    · split at h
      · rename_i hfront
        split at h
        · rename_i hback
          cases h
          obtain ⟨rfl, hlo⟩ := of_signedDigits hfront
          obtain ⟨rfl, hhi⟩ := of_signedDigits hback
          exact ⟨rfl, hlo, hhi⟩
        · cases h
      · cases h
    · cases h
  · rintro ⟨rfl, hlo, hhi⟩
    rw [parens, interval?, signedDigits_append hlo (by decide) (by decide)]
    simp only [signedDigits_append hhi (c := ')') (by decide) (by decide)]

theorem mem_boundedTypes {word : String} {type : ScalarType} :
    (word, type) ∈ boundedTypes ↔ BoundedWord word type := by
  constructor
  · intro h
    simp only [boundedTypes, List.mem_cons, Prod.mk.injEq, List.not_mem_nil, or_false] at h
    rcases h with ⟨rfl, rfl⟩ | ⟨rfl, rfl⟩ | ⟨rfl, rfl⟩
    · exact .string
    · exact .integer
    · exact .number
  · rintro ⟨⟩ <;> simp [boundedTypes]

/-- The words for types with bounds do not start one another. -/
theorem after?_boundedWord {word other : String} {type type' : ScalarType}
    (hword : BoundedWord word type) (hother : BoundedWord other type') (rest : List Char) :
    after? other (word.toList ++ rest) = if other = word then some rest else none := by
  cases hword <;> cases hother <;> rfl

theorem bounded?_append {word : String} {type : ScalarType} {rest : List Char}
    (hword : BoundedWord word type) (hread : interval? rest = some (lo, hi)) :
    bounded? (word.toList ++ rest) = some (type, lo, hi) := by
  simp only [bounded?, boundedTypes, List.findSome?_cons, after?_boundedWord hword .string,
    after?_boundedWord hword .integer, after?_boundedWord hword .number]
  cases hword <;> simp [hread]

theorem bounded?_eq_some {type : ScalarType} : bounded? cs = some (type, lo, hi) ↔
    ∃ word, BoundedWord word type ∧ cs = word.toList ++ parens lo hi ∧
      IsSigned lo ∧ IsSigned hi := by
  constructor
  · intro h
    obtain ⟨⟨word, type'⟩, hword, h⟩ := List.exists_of_findSome?_eq_some h
    obtain ⟨rest, hrest, h⟩ := Option.bind_eq_some_iff.mp h
    obtain ⟨⟨lo', hi'⟩, hbounds, h⟩ := Option.bind_eq_some_iff.mp h
    cases h
    obtain ⟨rfl, hlo, hhi⟩ := interval?_eq_some.mp hbounds
    exact ⟨word, mem_boundedTypes.mp hword, after?_eq_some.mp hrest, hlo, hhi⟩
  · rintro ⟨word, hword, rfl, hlo, hhi⟩
    exact bounded?_append hword (interval?_eq_some.mpr ⟨rfl, hlo, hhi⟩)

theorem boundedScalar?_eq_some (hconcise : Concise t) :
    boundedScalar? t.toList = some r ↔ IsBounded t r := by
  constructor
  · intro h
    obtain ⟨⟨type, lo, hi⟩, hbounded, h⟩ := Option.bind_eq_some_iff.mp h
    obtain ⟨word, hword, ht, hlo, hhi⟩ := bounded?_eq_some.mp hbounded
    dsimp only at h
    split_ifs at h with hminus
    obtain ⟨hlone, hhine⟩ := not_or.mp hminus
    obtain ⟨min, hmin⟩ := exists_isBound hlo hlone
    obtain ⟨max, hmax⟩ := exists_isBound hhi hhine
    rw [boundsOf_of_isBound hmin hmax (hconcise _ _ (.interval hword ht hmin hmax))] at h
    cases h
    exact .intro hword ht hmin hmax
  · rintro ⟨hword, ht, hmin, hmax⟩
    obtain ⟨hlo, hlone⟩ := isSigned_of_isBound hmin
    obtain ⟨hhi, hhine⟩ := isSigned_of_isBound hmax
    rw [boundedScalar?, bounded?_eq_some.mpr ⟨_, hword, ht, hlo, hhi⟩]
    dsimp only [Option.bind_eq_bind, Option.bind_some]
    rw [if_neg (not_or.mpr ⟨hlone, hhine⟩),
      boundsOf_of_isBound hmin hmax (hconcise _ _ (.interval hword ht hmin hmax))]

/-- What stands in square brackets after the front of a list is read as the bounds that it is. -/
theorem isSized_iff {front : List Char} {size : Bounds} (hconcise : Concise t)
    (hfront : IsListFront front) (ht : t.toList = front ++ cs) :
    IsSized cs size ↔ ∃ lo hi, size? cs = some (lo, hi) ∧ boundsOf lo hi = .ok size := by
  constructor
  · rintro (_ | ⟨hsize, hmin, hmax⟩)
    · exact ⟨[], [], rfl, rfl⟩
    · exact ⟨_, _, size?_of_isSize hsize,
        boundsOf_of_isBound hmin hmax (hconcise _ _ (.size hfront ht hsize))⟩
  · rintro ⟨lo, hi, hread, hbounds⟩
    rcases isSize_of_size? hread with ⟨rfl, rfl, rfl⟩ | hsize
    · cases hbounds
      exact .empty
    · have ⟨_, _, _, hlo, hhi⟩ := hsize
      obtain ⟨min, hmin⟩ := isBound_of_isDigit hlo
      obtain ⟨max, hmax⟩ := isBound_of_isDigit hhi
      rw [boundsOf_of_isBound hmin hmax (hconcise _ _ (.size hfront ht hsize))] at hbounds
      cases hbounds
      exact .bounds hsize hmin hmax

theorem isWord_iff : IsWord t r ↔ ∃ type,
    (ScalarType.all.find? fun type => type.name == t) = some type ∧ r = .scalar type {} := by
  constructor
  · rintro ⟨type, rfl, rfl⟩
    refine ⟨type, ?_, rfl⟩
    cases type <;> rfl
  · rintro ⟨type, hfind, rfl⟩
    have hname := List.find?_some hfind
    exact ⟨type, (eq_of_beq hname).symm, rfl⟩

theorem isArray_iff (hconcise : Concise t) : IsArray t r ↔
    ∃ type lo hi, array? t.toList = some (type, lo, hi) ∧
      (boundsOf lo hi).map (.array type) = .ok r := by
  constructor
  · rintro ⟨ht, hsize⟩
    obtain ⟨lo, hi, hread, hbounds⟩ := (isSized_iff hconcise (.inl ⟨_, rfl⟩) ht).mp hsize
    exact ⟨_, lo, hi, ht ▸ array?_word _ hread, Fault.map_eq_ok.mpr ⟨_, hbounds, rfl⟩⟩
  · rintro ⟨type, lo, hi, harray, hr⟩
    obtain ⟨cs, ht, hread⟩ := eq_of_array? harray
    obtain ⟨size, hbounds, rfl⟩ := Fault.map_eq_ok.mp hr
    exact .intro ht ((isSized_iff hconcise (.inl ⟨type, rfl⟩) ht).mpr ⟨lo, hi, hread, hbounds⟩)

theorem isOptions_iff {opts : List String} : IsOptions t opts ↔ opts = options t := by
  have hbars : ∀ parts, Text.Cuts "||" t parts ↔ parts = Text.split "||" t :=
    fun _ => Text.cuts_iff (by decide)
  have hslashes : ∀ parts, Text.Cuts " / " t parts ↔ parts = Text.split " / " t :=
    fun _ => Text.cuts_iff (by decide)
  by_cases hwithin : "||".toList <:+: t.toList
  · rw [options, if_pos (Text.occursIn_iff.mpr hwithin)]
    constructor
    · rintro (⟨-, hcut⟩ | ⟨hnone, -⟩)
      · exact (hbars _).mp hcut
      · exact absurd hwithin hnone
    · intro hopts
      exact .bars hwithin ((hbars _).mpr hopts)
  · rw [options, if_neg (mt Text.occursIn_iff.mp hwithin)]
    constructor
    · rintro (⟨h, -⟩ | ⟨-, hcut⟩)
      · exact absurd h hwithin
      · rw [(hslashes _).mp hcut]
    · rintro rfl
      exact .slashes hwithin ((hslashes _).mpr rfl)

theorem isChoices_iff (hconcise : Concise t) : IsChoices t r ↔
    ∃ body lo hi, choices? t.toList = some (body, lo, hi) ∧
      (boundsOf lo hi).map (.choices (options (String.ofList body))) = .ok r := by
  constructor
  · rintro ⟨ht, hbody, hclose, hsize, hoptions⟩
    have hne := mt String.toList_eq_nil_iff.mp hbody
    obtain ⟨lo, hi, hread, hbounds⟩ :=
      (isSized_iff hconcise (.inr ⟨_, hne, hclose, rfl⟩) ht).mp hsize
    rw [isOptions_iff.mp hoptions]
    refine ⟨_, lo, hi, ht ▸ choices?_options hne hclose hread, ?_⟩
    rw [String.ofList_toList, hbounds]
    rfl
  · rintro ⟨body, lo, hi, hchoices, hr⟩
    obtain ⟨cs, ht, hbody, hclose, hread⟩ := eq_of_choices? hchoices
    obtain ⟨size, hbounds, rfl⟩ := Fault.map_eq_ok.mp hr
    have hsize := (isSized_iff hconcise (.inr ⟨body, hbody, hclose, rfl⟩) ht).mpr
      ⟨lo, hi, hread, hbounds⟩
    rw [← String.toList_ofList (l := body)] at ht hclose
    exact .intro ht (by simpa using hbody) hclose hsize (isOptions_iff.mpr rfl)

theorem isChoice_iff : IsChoice t r ↔
    (Text.occursIn "||".toList t.toList ∨ Text.occursIn " / ".toList t.toList) ∧
      r = .choice (options t) := by
  rw [Text.occursIn_iff, Text.occursIn_iff]
  constructor
  · rintro ⟨h, hoptions⟩
    exact ⟨h, by rw [isOptions_iff.mp hoptions]⟩
  · rintro ⟨h, rfl⟩
    exact .intro h (isOptions_iff.mpr rfl)

theorem isPattern_iff : IsPattern t r ↔ looksLikeRegex t.toList ∧ r = .pattern t := by
  simp only [IsPattern, looksLikeRegex, regexFirst, regexLast, Bool.or_eq_true, Option.any_eq_true,
    List.contains_iff_mem, and_comm]

theorem not_oversized (hconcise : Concise t) : ¬ Oversized t.toList := by
  rintro ⟨front, cs, lo, hi, ht, hfront, hsize, hlong⟩
  obtain ⟨hlo, hhi⟩ := hconcise lo hi (.size hfront ht hsize)
  obtain ⟨points, -, -, hlow, hhigh⟩ := hsize
  rw [List.countP_eq_length.mpr hlow] at hlo
  rw [List.countP_eq_length.mpr hhigh] at hhi
  omega

theorem exists_parseTrimmed (hconcise : Concise t) : ∃ r, parseTrimmed t = .ok r := by
  cases hparse : parseTrimmed t with
  | error f => exact absurd (parseTrimmed_eq_error.mp hparse).2 (not_oversized hconcise)
  | ok r => exact ⟨r, rfl⟩

/-- The forms that show only in the characters of a text. -/
theorem first_iff_of_characters : First t r [IsChoice, IsPattern, IsOther] ↔
    (if Text.occursIn "||".toList t.toList ∨ Text.occursIn " / ".toList t.toList then
        .ok (.choice (options t))
      else if looksLikeRegex t.toList then .ok (.pattern t)
      else .ok anyText : Except Fault Range) = .ok r := by
  split_ifs with hchoice hpattern
  · refine first_of_iff (fun r => ?_) ⟨_, rfl⟩
    rw [isChoice_iff, and_iff_right hchoice, Except.ok.injEq, eq_comm]
  · rw [first_of_none fun r h => hchoice (isChoice_iff.mp h).1]
    refine first_of_iff (fun r => ?_) ⟨_, rfl⟩
    rw [isPattern_iff, and_iff_right hpattern, Except.ok.injEq, eq_comm]
  · rw [first_of_none fun r h => hchoice (isChoice_iff.mp h).1,
      first_of_none fun r h => hpattern (isPattern_iff.mp h).1]
    refine first_of_iff (fun r => ?_) ⟨_, rfl⟩
    rw [IsOther, Except.ok.injEq, eq_comm, anyText]

/-- What a text is read as when it is not empty is what the first form that it has makes of it. -/
theorem first_iff_parseTrimmed (hconcise : Concise t) (hempty : t ≠ "") :
    First t r forms ↔ parseTrimmed t = .ok r := by
  have hread := exists_parseTrimmed hconcise
  unfold parseTrimmed at hread ⊢
  rw [forms, first_of_none fun r h => hempty h.1]
  cases hword : ScalarType.all.find? fun type => type.name == t with
  | some type =>
    rw [hword] at hread
    exact first_of_iff (fun r => by simp [isWord_iff, hword, eq_comm]) hread
  | none =>
    rw [hword] at hread
    rw [first_of_none (by simp [isWord_iff, hword])]
    cases hbounded : boundedScalar? t.toList with
    | some range =>
      rw [hbounded] at hread
      exact first_of_iff (fun r => by simp [← boundedScalar?_eq_some hconcise, hbounded]) hread
    | none =>
      rw [hbounded] at hread
      rw [first_of_none (by simp [← boundedScalar?_eq_some hconcise, hbounded])]
      cases harray : array? t.toList with
      | some found =>
        obtain ⟨type, lo, hi⟩ := found
        rw [harray] at hread
        exact first_of_iff (fun r => by simp [isArray_iff hconcise, harray]) hread
      | none =>
        rw [harray] at hread
        rw [first_of_none (by simp [isArray_iff hconcise, harray])]
        cases hchoices : choices? t.toList with
        | some found =>
          obtain ⟨body, lo, hi⟩ := found
          rw [hchoices] at hread
          exact first_of_iff (fun r => by simp [isChoices_iff hconcise, hchoices]) hread
        | none =>
          rw [first_of_none (by simp [isChoices_iff hconcise, hchoices])]
          exact first_iff_of_characters

/-- A text is read as what it stands for without the blanks at its ends, and it stands for one range
alone: what the first form that it has makes of it. -/
theorem parse_first_form {s : String} (hconcise : Concise (Text.trim s)) :
    ∃ r, parse s = .ok r ∧ ∀ r', First (Text.trim s) r' forms ↔ r' = r := by
  obtain ⟨r, hparse, hfirst⟩ : ∃ r, parse s = .ok r ∧
      ∀ r', First (Text.trim s) r' forms ↔ parse s = .ok r' := by
    unfold parse
    split_ifs with hempty
    · refine ⟨anyText, rfl, fun r' => first_of_iff (fun r => ?_) ⟨_, rfl⟩⟩
      rw [IsEmpty, and_iff_right hempty, Except.ok.injEq, eq_comm, anyText]
    · obtain ⟨r, hparse⟩ := exists_parseTrimmed hconcise
      exact ⟨r, hparse, fun _ => first_iff_parseTrimmed hconcise hempty⟩
  refine ⟨r, hparse, fun r' => ?_⟩
  rw [hfirst r', hparse, Except.ok.injEq, eq_comm]

theorem sides_first_form : Concise (Text.trim " (beans||rice / peas)[1..]\n") ∧
    parse " (beans||rice / peas)[1..]\n" = .ok (.choices ["beans", "rice / peas"] ⟨some 1, none⟩) ∧
    ∀ r, First (Text.trim " (beans||rice / peas)[1..]\n") r forms ↔
      r = .choices ["beans", "rice / peas"] ⟨some 1, none⟩ := by
  have hconcise : Concise (Text.trim " (beans||rice / peas)[1..]\n") :=
    concise_of_groups fun ds hds _ => hds.length_le.trans (by decide)
  obtain ⟨r, hparse, hfirst⟩ := parse_first_form hconcise
  cases hparse
  exact ⟨hconcise, rfl, hfirst⟩

-- A lone minus sign is no bound, and leaves a text that ends like a regular expression.
example : parse "integer(-..5)" = .ok (.pattern "integer(-..5)") := rfl

end FieldRules.Range
