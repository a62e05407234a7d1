import FieldRules.Proofs.Double.Bound
import FieldRules.Proofs.Fault
import FieldRules.Value.Display

/-! Values without integers that are too long: writing and showing them never fails. -/
namespace FieldRules.Value

mutual

/-- Every integer in a value is short enough to be written. -/
def Writable : Value → Prop
  | .int i => i.natAbs < Nat.pow 10 Numeral.maxDigits
  | .double d => d.Writable
  | .list xs => WritableItems xs
  | .map es => WritableEntries es
  | _ => True

/-- The same of all items. -/
def WritableItems : List Value → Prop
  | [] => True
  | x :: xs => x.Writable ∧ WritableItems xs

/-- The same of the values of all entries. -/
def WritableEntries : List (String × Value) → Prop
  | [] => True
  | (_, x) :: es => x.Writable ∧ WritableEntries es

end

theorem writable_text (s : String) : Writable (.text s) := by
  simp [Writable]

theorem writable_list {xs : List Value} : Writable (.list xs) ↔ ∀ x ∈ xs, x.Writable := by
  rw [Writable]
  induction xs with
  | nil => simp [WritableItems]
  | cons x xs ih => simp [WritableItems, ih]

theorem writable_map {es : List (String × Value)} :
    Writable (.map es) ↔ ∀ e ∈ es, e.2.Writable := by
  rw [Writable]
  induction es with
  | nil => simp [WritableEntries]
  | cons e es ih => simp [WritableEntries, ih]

mutual

theorem exists_encodeChars : ∀ v : Value, v.Writable → ∃ cs, Json.encodeChars v = .ok cs
  | .null, _ => ⟨_, rfl⟩
  | .bool _, _ => ⟨_, rfl⟩
  | .int _, h => ⟨_, Numeral.write_eq_ok h⟩
  | .double _, _ => ⟨_, rfl⟩
  | .text _, _ => ⟨_, rfl⟩
  | .list xs, h => by
    obtain ⟨body, hbody⟩ := exists_encodeItems xs h
    exact ⟨_, by rw [Json.encodeChars, hbody]; rfl⟩
  | .map es, h => by
    obtain ⟨body, hbody⟩ := exists_encodeEntries es h
    exact ⟨_, by rw [Json.encodeChars, hbody]; rfl⟩

theorem exists_encodeItems :
    ∀ xs : List Value, WritableItems xs → ∃ cs, Json.encodeItems xs = .ok cs
  | [], _ => ⟨_, rfl⟩
  | [x], h => exists_encodeChars x h.1
  | x :: y :: xs, h => by
    obtain ⟨first, hfirst⟩ := exists_encodeChars x h.1
    obtain ⟨rest, hrest⟩ := exists_encodeItems (y :: xs) h.2
    refine ⟨first ++ ',' :: rest, ?_⟩
    rw [Json.encodeItems, hfirst, hrest]
    · rfl
    · simp

theorem exists_encodeEntries :
    ∀ es : List (String × Value), WritableEntries es → ∃ cs, Json.encodeEntries es = .ok cs
  | [], _ => ⟨_, rfl⟩
  | [(_, x)], h => by
    obtain ⟨value, hvalue⟩ := exists_encodeChars x h.1
    exact ⟨_, by rw [Json.encodeEntries, hvalue]; rfl⟩
  | (k, x) :: e :: es, h => by
    obtain ⟨value, hvalue⟩ := exists_encodeChars x h.1
    obtain ⟨rest, hrest⟩ := exists_encodeEntries (e :: es) h.2
    refine ⟨Json.encodeText k ++ ':' :: value ++ ',' :: rest, ?_⟩
    rw [Json.encodeEntries, hvalue, hrest]
    · rfl
    · simp

end

mutual

theorem exists_inspectChars : ∀ v : Value, v.Writable → ∃ cs, v.inspectChars = .ok cs
  | .null, _ => ⟨_, rfl⟩
  | .bool _, _ => ⟨_, rfl⟩
  | .int _, h => ⟨_, Numeral.write_eq_ok h⟩
  | .double _, _ => ⟨_, rfl⟩
  | .text _, _ => ⟨_, rfl⟩
  | .list xs, h => by
    obtain ⟨body, hbody⟩ := exists_inspectItems xs h
    exact ⟨_, by rw [inspectChars, hbody]; rfl⟩
  | .map es, h => by
    obtain ⟨body, hbody⟩ := exists_inspectEntries es h
    exact ⟨_, by rw [inspectChars, hbody]; rfl⟩

theorem exists_inspectItems :
    ∀ xs : List Value, WritableItems xs → ∃ cs, inspectItems xs = .ok cs
  | [], _ => ⟨_, rfl⟩
  | [x], h => exists_inspectChars x h.1
  | x :: y :: xs, h => by
    obtain ⟨first, hfirst⟩ := exists_inspectChars x h.1
    obtain ⟨rest, hrest⟩ := exists_inspectItems (y :: xs) h.2
    refine ⟨first ++ ',' :: ' ' :: rest, ?_⟩
    rw [inspectItems, hfirst, hrest]
    · rfl
    · simp

theorem exists_inspectEntries :
    ∀ es : List (String × Value), WritableEntries es → ∃ cs, inspectEntries es = .ok cs
  | [], _ => ⟨_, rfl⟩
  | [(_, x)], h => by
    obtain ⟨value, hvalue⟩ := exists_inspectChars x h.1
    exact ⟨_, by rw [inspectEntries, hvalue]; rfl⟩
  | (k, x) :: e :: es, h => by
    obtain ⟨value, hvalue⟩ := exists_inspectChars x h.1
    obtain ⟨rest, hrest⟩ := exists_inspectEntries (e :: es) h.2
    refine ⟨Text.Quoted.encode k.toList ++ ':' :: ' ' :: value ++ ',' :: ' ' :: rest, ?_⟩
    rw [inspectEntries, hvalue, hrest]
    · rfl
    · simp

end

theorem exists_encode {v : Value} (h : v.Writable) : ∃ s, Json.encode v = .ok s := by
  obtain ⟨cs, hcs⟩ := exists_encodeChars v h
  exact ⟨_, by rw [Json.encode, hcs]; rfl⟩

theorem exists_display {v : Value} (h : v.Writable) : ∃ s, v.display = .ok s := by
  cases v with
  | null => exact ⟨_, rfl⟩
  | bool b => exact ⟨_, rfl⟩
  | text s => exact ⟨_, rfl⟩
  | list xs => exact exists_encode h
  | double d =>
    cases hi : d.toInt? with
    | none =>
      simp only [display, hi]
      exact ⟨_, rfl⟩
    | some i =>
      simp only [display, hi, Numeral.write_eq_ok (h i hi)]
      exact ⟨_, rfl⟩
  | int i =>
    obtain ⟨cs, hcs⟩ := exists_inspectChars (.int i) h
    refine ⟨String.ofList cs, ?_⟩
    simp only [display, inspect, hcs]
    rfl
  | map es =>
    obtain ⟨cs, hcs⟩ := exists_inspectChars (.map es) h
    refine ⟨String.ofList cs, ?_⟩
    simp only [display, inspect, hcs]
    rfl

mutual

/-- Texts, truth values and integers, and lists of such values. -/
def Simple : Value → Prop
  | .text _ => True
  | .bool _ => True
  | .int _ => True
  | .list xs => SimpleItems xs
  | _ => False

/-- The same of all items. -/
def SimpleItems : List Value → Prop
  | [] => True
  | x :: xs => x.Simple ∧ SimpleItems xs

end

mutual

theorem writable_of_encodeChars {v : Value} {cs : List Char} (hs : v.Simple)
    (h : Json.encodeChars v = .ok cs) : v.Writable := by
  cases v with
  | bool b => simp [Writable]
  | text s => exact writable_text s
  | int i =>
    rw [Json.encodeChars] at h
    rw [Writable]
    exact Numeral.lt_of_write h
  | list xs =>
    rw [Json.encodeChars] at h
    obtain ⟨body, hbody, -⟩ := Fault.bind_eq_ok.mp h
    rw [Simple] at hs
    rw [Writable]
    exact writable_of_encodeItems hs hbody
  | _ => exact hs.elim

theorem writable_of_encodeItems {xs : List Value} {cs : List Char} (hs : SimpleItems xs)
    (h : Json.encodeItems xs = .ok cs) : WritableItems xs := by
  match xs with
  | [] => trivial
  | [x] =>
    rw [Json.encodeItems] at h
    exact ⟨writable_of_encodeChars hs.1 h, trivial⟩
  | x :: y :: xs =>
    rw [Json.encodeItems] at h
    · obtain ⟨first, hfirst, h⟩ := Fault.bind_eq_ok.mp h
      obtain ⟨rest, hrest, -⟩ := Fault.bind_eq_ok.mp h
      exact ⟨writable_of_encodeChars hs.1 hfirst, writable_of_encodeItems hs.2 hrest⟩
    · simp

end

theorem simple_list {xs : List Value} : Simple (.list xs) ↔ ∀ x ∈ xs, x.Simple := by
  rw [Simple]
  induction xs with
  | nil => simp [SimpleItems]
  | cons x xs ih => simp [SimpleItems, ih]

/-- Showing a simple value fails on integers that are too long, and only on them. -/
theorem exists_display_iff {v : Value} (h : v.Simple) :
    (∃ s, v.display = .ok s) ↔ v.Writable := by
  refine ⟨?_, exists_display⟩
  rintro ⟨s, hs⟩
  cases v with
  | text s => exact writable_text s
  | bool b => simp [Writable]
  | int i =>
    simp only [display, inspect, inspectChars] at hs
    obtain ⟨cs, hcs, -⟩ := Fault.map_eq_ok.mp hs
    rw [Writable]
    exact Numeral.lt_of_write hcs
  | list xs =>
    obtain ⟨cs, hcs, -⟩ := Fault.map_eq_ok.mp hs
    exact writable_of_encodeChars h hcs
  | _ => exact h.elim

end FieldRules.Value
