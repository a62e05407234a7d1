import FieldRules.Proofs.Json.Bracket
import FieldRules.Proofs.Text.Erasure
import FieldRules.Proofs.Value.Unrest

/-! Whether a value has an item once it has been added, or taken out. A list has what was added and
not what was taken out, and so has a text that is read as a list. A running text need not: with an
item added it may be read as a list of something else, and what is left of it may have the item
again. -/
namespace FieldRules.Value

/-- A value has an item: in a list, in a text that is read as one, or as a part of a running
text. -/
inductive Has (item : String) : Value → Prop
  | list {xs : List Value} {x : Value} (hx : x ∈ xs) (h : x.display = .ok item) :
    Has item (.list xs)
  | listText {s : String} {xs : List Value} {x : Value} (hs : Json.decodeList s = some xs)
    (hx : x ∈ xs) (h : x.display = .ok item) : Has item (.text s)
  | text {s : String} (hs : Json.decodeList s = none) (h : item.toList <:+: s.toList) :
    Has item (.text s)

variable {v w : Value} {xs : List Value} {item s : String}

theorem has_list_iff : Has item (.list xs) ↔ ∃ x ∈ xs, x.display = .ok item := by
  constructor
  · intro hhas
    cases hhas with
    | list hx hshow => exact ⟨_, hx, hshow⟩
  · rintro ⟨x, hx, hshow⟩
    exact .list hx hshow

theorem has_listText_iff (h : Json.decodeList s = some xs) :
    Has item (.text s) ↔ ∃ x ∈ xs, x.display = .ok item := by
  constructor
  · intro hhas
    cases hhas with
    | listText hs hx hshow =>
      cases h.symm.trans hs
      exact ⟨_, hx, hshow⟩
    | text hs => cases h.symm.trans hs
  · rintro ⟨x, hx, hshow⟩
    exact .listText h hx hshow

theorem has_text_iff (h : Json.decodeList s = none) :
    Has item (.text s) ↔ item.toList <:+: s.toList := by
  constructor
  · intro hhas
    cases hhas with
    | listText hs => cases h.symm.trans hs
    | text _ hwithin => exact hwithin
  · exact .text h

theorem any_shown_iff (h : ∀ x ∈ xs, x.Showable) :
    xs.any (·.shown == item) = true ↔ ∃ x ∈ xs, x.display = .ok item := by
  rw [List.any_eq_true]
  refine exists_congr fun x => and_congr_right fun hx => ?_
  rw [display_eq_ok (h x hx), Except.ok.injEq, beq_iff_eq]

/-- What it means that a value has an item. -/
theorem exists_hasItem_iff (hxs : ∀ xs, v = .list xs → ∀ x ∈ xs, x.Showable) (item : String) :
    ∃ b, v.hasItem item = .ok b ∧ (b = true ↔ Has item v) := by
  cases v with
  | list xs =>
    have hshow := hxs xs rfl
    refine ⟨_, anyShows_eq_ok hshow, ?_⟩
    rw [any_shown_iff hshow, has_list_iff]
  | text s =>
    cases hs : Json.decodeList s with
    | some xs =>
      have hshow := showable_of_writable (Json.writable_decodeList hs)
      have hhas : hasItem (.text s) item = anyShows item xs := by simp only [hasItem, hs]
      refine ⟨_, hhas.trans (anyShows_eq_ok hshow), ?_⟩
      rw [any_shown_iff hshow, has_listText_iff hs]
    | none =>
      refine ⟨Text.occursIn item.toList s.toList, by simp only [hasItem, hs], ?_⟩
      rw [Text.occursIn_iff, has_text_iff hs]
  | _ =>
    refine ⟨false, rfl, ?_⟩
    simp only [Bool.false_eq_true, false_iff]
    intro hhas
    cases hhas

theorem exists_hasItem_text (s item : String) :
    ∃ b, hasItem (.text s) item = .ok b ∧ (b = true ↔ Has item (.text s)) :=
  exists_hasItem_iff (by simp) item

/-- An item is there exactly if adding it changes nothing. -/
theorem keeps_iff : v.Keeps item ↔ v.hasItem item = .ok true := by
  cases v with
  | list xs =>
    simp only [Keeps, hasItem, addItem_list_eq, Fault.map_eq_ok]
    constructor
    · rintro ⟨b, hb, hsame⟩
      cases b with
      | true => exact hb
      | false => simp at hsame
    · exact fun h => ⟨true, h, rfl⟩
  | text s =>
    obtain ⟨b, hb, hhas⟩ := exists_hasItem_text s item
    rw [hb, Except.ok.injEq, hhas]
    cases hs : Json.decodeList s with
    | some xs =>
      have hshow := showable_of_writable (Json.writable_decodeList hs)
      rw [keeps_listText hs, has_listText_iff hs, any_shown_iff hshow]
    | none => rw [keeps_text hs, has_text_iff hs]
  | _ => simp [Keeps, addItem, hasItem]

/-- An item can be added wherever it can be asked for. -/
theorem exists_addItem_iff :
    (∃ w, v.addItem item = .ok w) ↔ ∃ b, v.hasItem item = .ok b := by
  cases v with
  | list xs =>
    simp only [hasItem, addItem_list_eq, Fault.map_eq_ok]
    constructor
    · rintro ⟨w, b, hb, -⟩
      exact ⟨b, hb⟩
    · rintro ⟨b, hb⟩
      exact ⟨_, b, hb, rfl⟩
  | text s =>
    obtain ⟨w, hw, -⟩ := exists_addItem (writable_text s) item
    obtain ⟨b, hb, -⟩ := exists_hasItem_text s item
    exact ⟨fun _ => ⟨b, hb⟩, fun _ => ⟨w, hw⟩⟩
  | _ => simp [addItem, hasItem]

/-- A value has no items, or is a running text without this one. -/
def Lacks (v : Value) (item : String) : Prop :=
  match v with
  | .list _ => False
  | .text s => Json.decodeList s = none ∧ ¬ item.toList <:+: s.toList
  | _ => True

/-- A running text with an item after its end, or an item that takes the place of a value. -/
def appended (v : Value) (item : String) : String :=
  match v with
  | .text s => if s = "" then item else s ++ " " ++ item
  | _ => item

theorem addItem_of_lacks (h : v.Lacks item) : v.addItem item = .ok (.text (v.appended item)) := by
  cases v with
  | list xs => exact h.elim
  | text s =>
    obtain ⟨hs, hwithin⟩ := h
    have hoccurs : ¬ Text.occursIn item.toList s.toList = true := by rwa [Text.occursIn_iff]
    simp only [addItem, hs, if_neg hoccurs, appended]
  | _ => rfl

theorem suffix_appended (v : Value) (item : String) :
    item.toList <:+ (v.appended item).toList := by
  cases v with
  | text s =>
    unfold appended
    dsimp only
    split_ifs
    · exact List.suffix_refl _
    · exact ⟨(s ++ " ").toList, by simp⟩
  | _ => exact List.suffix_refl _

/-- A value that an item is added to becomes a text that is read as a list, and the item is not in
it. -/
def Misreads (v : Value) (item : String) : Prop :=
  v.Lacks item ∧ ∃ xs, Json.decodeList (v.appended item) = some xs ∧
    ∀ x ∈ xs, x.display ≠ .ok item

theorem misreads_iff (h : v.Lacks item) :
    v.Misreads item ↔ ¬ Has item (.text (v.appended item)) := by
  have hwithin := (suffix_appended v item).isInfix
  cases hs : Json.decodeList (v.appended item) with
  | some xs => simp [Misreads, h, hs, has_listText_iff hs]
  | none => simp [Misreads, hs, has_text_iff hs, hwithin]

theorem hasItem_addItem_list (h : addItem (.list xs) item = .ok w) :
    w.hasItem item = .ok true := by
  rw [addItem_list_eq] at h
  obtain ⟨b, hb, rfl⟩ := Fault.map_eq_ok.mp h
  cases b with
  | true => exact hb
  | false =>
    have hsame : anyShows item [.text item] = .ok true := by
      simp [anyShows, List.anyM, display, bind, Except.bind, pure, Except.pure]
    exact (Fault.anyM_append hb).trans hsame

theorem hasItem_addItem_text (hs : ¬ Lacks (.text s) item) (h : addItem (.text s) item = .ok w) :
    w.hasItem item = .ok true := by
  cases hread : Json.decodeList s with
  | some xs =>
    obtain ⟨t, hadd, ht, -⟩ := exists_addItem_listText hread (Json.durable_decodeList hread) item
    rw [hadd] at h
    cases h
    exact keeps_iff.mp ((keeps_listText ht).mpr (any_shown_adjoin xs item))
  | none =>
    obtain ⟨t, hadd, -, -, hsame⟩ := exists_addItem_text hread item
    have hwithin : item.toList <:+: s.toList := not_not.mp fun hno => hs ⟨hread, hno⟩
    rw [hadd, hsame hwithin] at h
    cases h
    exact keeps_iff.mp ((keeps_text hread).mpr hwithin)

/-- A value has an item when it has been added, unless it is misread then. -/
theorem exists_hasItem_addItem (h : v.addItem item = .ok w) :
    ∃ b, w.hasItem item = .ok b ∧ (b = false ↔ v.Misreads item) := by
  by_cases hlacks : v.Lacks item
  · -- the item goes in as text, which is read anew
    rw [addItem_of_lacks hlacks] at h
    cases h
    obtain ⟨b, hb, hhas⟩ := exists_hasItem_text (v.appended item) item
    refine ⟨b, hb, ?_⟩
    rw [misreads_iff hlacks, ← hhas, Bool.not_eq_true]
  · refine ⟨true, ?_, by simp [Misreads, hlacks]⟩
    cases v with
    | list xs => exact hasItem_addItem_list h
    | text s => exact hasItem_addItem_text hlacks h
    | _ => exact absurd trivial hlacks

/-- A value is misread only with an item that ends in a bracket. -/
theorem Misreads.lastMark? {c : Char} (h : v.Misreads item)
    (hitem : Json.lastMark? item = some c) : c = ']' := by
  obtain ⟨-, xs, hxs, -⟩ := h
  have hmark := Json.lastMark?_of_decodeList hxs
  obtain ⟨front, hfront⟩ := suffix_appended v item
  rw [Json.lastMark?, ← hfront, List.reverse_append, List.find?_append] at hmark
  rw [Json.lastMark?] at hitem
  rw [hitem] at hmark
  exact Option.some.inj hmark

/-- What is left of a running text when an item is taken out has the item. -/
def Regains (v : Value) (item : String) : Prop :=
  ∃ s, v = .text s ∧ Json.decodeList s = none ∧ Has item (.text (Text.eraseItems item s))

/-- An item can be taken out of everything but a list that cannot be shown. -/
theorem exists_removeItem?_iff : (∃ rest, v.removeItem? item = .ok rest) ↔
    ∀ xs, v = .list xs → ∀ x ∈ xs, x.Showable := by
  cases v with
  | list xs =>
    simp only [list.injEq, forall_eq']
    constructor
    · rintro ⟨rest, h⟩ x hx
      obtain ⟨ys, hys, -⟩ := Fault.bind_eq_ok.mp h
      obtain ⟨b, hb⟩ := Fault.exists_of_filterM hys x hx
      obtain ⟨s, hs, -⟩ := Fault.bind_eq_ok.mp hb
      exact ⟨s, hs⟩
    · exact fun hshow => ⟨_, removeItem?_list hshow item⟩
  | text s =>
    obtain ⟨rest, hrest, -⟩ := exists_removeItem? (writable_text s) item
    simp [hrest]
  | _ => simp [removeItem?]

theorem not_has_discard (hxs : ∀ x ∈ xs, x.Showable) (item : String) :
    ¬ ∃ x ∈ discard xs item, x.display = .ok item := by
  rintro ⟨x, hx, hshow⟩
  obtain ⟨hmem, hne⟩ := List.mem_filter.mp hx
  rw [display_eq_ok (hxs x hmem)] at hshow
  exact bne_iff_ne.mp hne (Except.ok.inj hshow)

theorem removeItem?_eq_none (h : v.removeItem? item = .ok none) :
    v.hasItem item = .ok false ∧ ¬ v.Regains item := by
  cases v with
  | list xs =>
    rw [removeItem?_list (exists_removeItem?_iff.mp ⟨_, h⟩ xs rfl)] at h
    cases h
  | text s =>
    cases hs : Json.decodeList s with
    | some xs =>
      obtain ⟨t, hremove, -⟩ :=
        exists_removeItem?_listText hs (Json.durable_decodeList hs) item
      rw [hremove] at h
      cases h
    | none =>
      simp only [removeItem?, hs] at h
      cases h
  | _ => exact ⟨rfl, by simp [Regains]⟩

theorem ne_empty_of_has (hitem : item ≠ "") (h : Has item (.text s)) : s ≠ "" := by
  rintro rfl
  have hread : Json.decodeList "" = none := rfl
  rw [has_text_iff hread] at h
  simp [hitem] at h

/-- An item is gone when it has been taken out, unless what is left has it again. -/
theorem exists_hasItem_removeItem? {remains : Bool} (hitem : item ≠ "")
    (h : v.removeItem? item = .ok (some (w, remains))) :
    ∃ b, w.hasItem item = .ok b ∧ (b = true ↔ v.Regains item) ∧ (b = true → remains = true) := by
  cases v with
  | list xs =>
    have hxs := exists_removeItem?_iff.mp ⟨_, h⟩ xs rfl
    rw [removeItem?_list hxs] at h
    cases h
    have hrest : ∀ x ∈ discard xs item, x.Showable :=
      fun x hx => hxs x (List.mem_filter.mp hx).1
    obtain ⟨b, hb, hhas⟩ := exists_hasItem_iff (v := .list (discard xs item)) (by simpa) item
    have hgone : ¬ b = true := by
      rw [hhas, has_list_iff]
      exact not_has_discard hxs item
    exact ⟨b, hb, by simp [hgone, Regains], fun hb => absurd hb hgone⟩
  | text s =>
    cases hs : Json.decodeList s with
    | some xs =>
      obtain ⟨t, hremove, ht⟩ :=
        exists_removeItem?_listText hs (Json.durable_decodeList hs) item
      rw [hremove] at h
      cases h
      obtain ⟨b, hb, hhas⟩ := exists_hasItem_text t item
      have hshow := showable_of_writable (Json.writable_decodeList hs)
      have hgone : ¬ b = true := by
        rw [hhas, has_listText_iff ht.decode]
        exact not_has_discard hshow item
      exact ⟨b, hb, by simp [hgone, Regains, hs], fun hb => absurd hb hgone⟩
    | none =>
      simp only [removeItem?, hs] at h
      cases h
      obtain ⟨b, hb, hhas⟩ := exists_hasItem_text (Text.eraseItems item s) item
      refine ⟨b, hb, by simp [hhas, Regains, hs], fun hb => ?_⟩
      exact bne_iff_ne.mpr (ne_empty_of_has hitem (hhas.mp hb))
  | _ => cases h

end FieldRules.Value
