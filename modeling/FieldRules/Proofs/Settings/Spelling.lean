import FieldRules.Proofs.Settings.Layers
import FieldRules.Settings.Variables

/-! Entries whose names count in any case: the last spelling of a key decides. -/
namespace FieldRules.Settings

open Value Entries

section

variable {α : Type} {key name : String} {es : Entries α}

theorem getLast?_filter_cons {β : Type} (p : β → Bool) (x : β) (xs : List β) :
    ((x :: xs).filter p).getLast? =
      (xs.filter p).getLast?.or (if p x = true then some x else none) := by
  cases hx : p x with
  | false => simp [hx]
  | true =>
    rw [List.filter_cons_of_pos hx, List.getLast?_cons, if_pos rfl]
    cases (xs.filter p).getLast? with
    | none => rfl
    | some y => rfl

/-- The value of the last entry whose name is a key in any case. -/
def lastSpelt? (key : String) (es : Entries α) : Option α :=
  (es.filter fun e => Text.lower e.1 == key).getLast?.map (·.2)

/-- Whether a key is there as it is spelt, and after that in another spelling. -/
def respelt (key : String) : Entries α → Bool
  | [] => false
  | e :: es => if e.1 = key then es.any fun e => Text.lower e.1 == key else respelt key es

theorem lastSpelt?_cons (e : String × α) (es : Entries α) : lastSpelt? key (e :: es) =
    (lastSpelt? key es).or (if Text.lower e.1 = key then some e.2 else none) := by
  rw [lastSpelt?, getLast?_filter_cons, Option.map_or, lastSpelt?]
  by_cases h : Text.lower e.1 = key
  · simp [h]
  · simp [h]

theorem isSome_lastSpelt? (es : Entries α) :
    (lastSpelt? key es).isSome = es.any fun e => Text.lower e.1 == key := by
  induction es with
  | nil => rfl
  | cons e es ih =>
    rw [lastSpelt?_cons, Option.isSome_or, ih, List.any_cons, Bool.or_comm]
    by_cases h : Text.lower e.1 = key
    · simp [h]
    · simp [h]

theorem isSome_lastSpelt?_of_respelt (h : respelt key es = true) :
    (lastSpelt? key es).isSome = true := by
  induction es with
  | nil => cases h
  | cons e es ih =>
    rw [lastSpelt?_cons, Option.isSome_or, Bool.or_eq_true]
    left
    rw [respelt] at h
    split at h
    · rw [isSome_lastSpelt?, h]
    · exact ih h

/-- Under a key that several names become, the value of the last of these comes to stand. -/
theorem get?_ofPairs_map {f : String → String} (hf : ∀ name, f name = key ↔ Text.lower name = key)
    (es : Entries α) : get? (ofPairs (es.map fun e => (f e.1, e.2))) key = lastSpelt? key es := by
  suffices hover : ∀ front, get? (overlay front (es.map fun e => (f e.1, e.2))) key =
      (lastSpelt? key es).or (get? front key) by
    rw [ofPairs, hover, get?_nil, Option.or_none]
  unfold overlay
  induction es with
  | nil => simp [lastSpelt?]
  | cons e es ih =>
    intro front
    rw [List.map_cons, List.foldl_cons, ih, get?_insert, lastSpelt?_cons, Option.or_assoc]
    congr 1
    by_cases h : Text.lower e.1 = key
    · simp [h, (hf e.1).mpr h]
    · simp [h, mt (hf e.1).mp h]

/-- The last of some names that is a key in any case. -/
def lastNamed? (key : String) (names : List String) : Option String :=
  (names.filter fun name => Text.lower name == key).getLast?

theorem mem_of_lastNamed? {names : List String} (h : lastNamed? key names = some name) :
    name ∈ names ∧ Text.lower name = key := by
  simpa using List.mem_filter.mp (List.mem_of_getLast? h)

theorem lastNamed?_append (names more : List String) : lastNamed? key (names ++ more) =
    (lastNamed? key more).or (lastNamed? key names) := by
  rw [lastNamed?, List.filter_append, List.getLast?_append]
  rfl

theorem lastNamed?_cons (name : String) (names : List String) : lastNamed? key (name :: names) =
    (lastNamed? key names).or (if Text.lower name = key then some name else none) := by
  rw [lastNamed?, getLast?_filter_cons, lastNamed?]
  simp only [beq_iff_eq]

theorem isSome_lastNamed? (names : List String) :
    (lastNamed? key names).isSome = names.any fun name => Text.lower name == key := by
  rw [Bool.eq_iff_iff, lastNamed?, List.getLast?_isSome]
  simp

theorem exists_lastNamed? {names : List String} (hkey : Text.lower key = key) (h : key ∈ names) :
    ∃ name, lastNamed? key names = some name := by
  rw [← Option.isSome_iff_exists, isSome_lastNamed?]
  exact List.any_eq_true.mpr ⟨key, h, by simpa using hkey⟩

theorem lastNamed?_eq_none {names : List String} (h : ∀ name ∈ names, Text.lower name ≠ key) :
    lastNamed? key names = none := by
  rw [lastNamed?, List.filter_eq_nil_iff.mpr (by simpa using h), List.getLast?_nil]

theorem lastSpelt?_eq (hn : (Entries.keys es).Nodup) :
    lastSpelt? key es = (lastNamed? key (Entries.keys es)).bind (get? es) := by
  have hkeys : lastNamed? key (Entries.keys es) =
      (es.filter fun e => Text.lower e.1 == key).getLast?.map (·.1) := by
    rw [lastNamed?, Entries.keys, List.filter_map, List.getLast?_map]
    rfl
  rw [hkeys, lastSpelt?]
  cases hlast : (es.filter fun e => Text.lower e.1 == key).getLast? with
  | none => rfl
  | some e =>
    have he : e ∈ es := List.mem_of_mem_filter (List.mem_of_getLast? hlast)
    exact (get?_eq_some hn he).symm

/-- A key is respelt exactly if it is there and another spelling is the last. -/
theorem respelt_iff (hkey : Text.lower key = key) (hn : (Entries.keys es).Nodup) :
    respelt key es = true ↔
      key ∈ Entries.keys es ∧ lastNamed? key (Entries.keys es) ≠ some key := by
  induction es with
  | nil => simp [respelt, Entries.keys]
  | cons e es ih =>
    obtain ⟨hfresh, hes⟩ := List.nodup_cons.mp hn
    rw [respelt, keys_cons, lastNamed?_cons]
    by_cases hname : e.1 = key
    · have hlast : lastNamed? key (Entries.keys es) ≠ some key := by
        intro h
        rw [← hname] at h
        exact hfresh (mem_of_lastNamed? h).1
      have hany : (es.any fun e => Text.lower e.1 == key) =
          (lastNamed? key (Entries.keys es)).isSome := by
        rw [isSome_lastNamed?, Entries.keys, List.any_map]
        rfl
      rw [if_pos hname, hany, hname, if_pos hkey]
      cases hsome : lastNamed? key (Entries.keys es) with
      | none => simp
      | some other => simpa [hsome] using hlast
    · rw [if_neg hname, ih hes, List.mem_cons, or_iff_right (Ne.symm hname)]
      refine and_congr_right fun hmem => ?_
      obtain ⟨other, hother⟩ := exists_lastNamed? hkey hmem
      rw [hother, Option.some_or]

end

variable {key : String}

theorem keyNamed_eq_iff {keys : List String} (hmem : key ∈ keys) (hkey : Text.lower key = key)
    (name : String) : keyNamed keys name = key ↔ Text.lower name = key := by
  unfold keyNamed
  cases hfind : keys.find? fun k => k == Text.lower name with
  | none =>
    have hne : Text.lower name ≠ key := by
      rintro rfl
      simpa using List.find?_eq_none.mp hfind _ hmem
    have hname : name ≠ key := fun heq => hne (heq ▸ hkey)
    simp [hne, hname]
  | some k =>
    have hk : k = Text.lower name := by simpa using List.find?_some hfind
    rw [Option.getD_some, hk]

/-- A section under its keys as they are spelt has the last spelling of each. -/
theorem get?_respell {keys : List String} (hmem : key ∈ keys) (hkey : Text.lower key = key)
    (found : Option Value) :
    get? (entriesOf (found.map (respell keys))) key = lastSpelt? key (entriesOf found) := by
  rcases found with _ | (_ | _ | _ | _ | _ | _ | es)
  case some.map => exact get?_ofPairs_map (keyNamed_eq_iff hmem hkey) es
  all_goals rfl

end FieldRules.Settings
