import FieldRules.Proofs.Entries
import FieldRules.Proofs.Json.Token
import FieldRules.Proofs.Value.Decoded

/-! Reading undoes writing. A text that was written from a value is cut into the tokens of the
value, and the descent over them gives the value back. -/
namespace FieldRules.Json

mutual

/-- What the text of a value says in full: integers are not too long, floating-point numbers have
texts of their own, and no key of a mapping stands twice. -/
def Durable : Value → Prop
  | .int i => i.natAbs < Nat.pow 10 Numeral.maxDigits
  | .double d => ∀ rest, Ends rest →
    token? (numbers.chars d ++ rest) = some (.atom (.double d), rest)
  | .list xs => DurableItems xs
  | .map es => (Entries.keys es).Nodup ∧ DurableEntries es
  | _ => True

/-- The same of all items. -/
def DurableItems : List Value → Prop
  | [] => True
  | x :: xs => Durable x ∧ DurableItems xs

/-- The same of the values of all entries. -/
def DurableEntries : List (String × Value) → Prop
  | [] => True
  | (_, x) :: es => Durable x ∧ DurableEntries es

end

mutual

/-- The tokens of a value. -/
def tokensOf : Value → List Token
  | .list xs => .openList :: itemTokens xs
  | .map es => .openMap :: entryTokens es
  | v => [.atom v]

/-- The tokens of items up to the end of their list. -/
def itemTokens : List Value → List Token
  | [] => [.closeList]
  | [x] => tokensOf x ++ [.closeList]
  | x :: xs => tokensOf x ++ .comma :: itemTokens xs

/-- The tokens of entries up to the end of their mapping. -/
def entryTokens : List (String × Value) → List Token
  | [] => [.closeMap]
  | [(k, x)] => .atom (.text k) :: .colon :: (tokensOf x ++ [.closeMap])
  | (k, x) :: es => .atom (.text k) :: .colon :: (tokensOf x ++ .comma :: entryTokens es)

end

theorem durable_list {xs : List Value} : Durable (.list xs) ↔ ∀ x ∈ xs, Durable x := by
  rw [Durable]
  induction xs with
  | nil => simp [DurableItems]
  | cons x xs ih => simp [DurableItems, ih]

/-- A value never starts with the end of a list or of a mapping. -/
theorem tokensOf_head (v : Value) :
    ∃ t ts, tokensOf v = t :: ts ∧ t ≠ .closeList ∧ t ≠ .closeMap := by
  cases v <;> exact ⟨_, _, by simp only [tokensOf]; rfl, by simp⟩

theorem valueWithin_items {x : Value} {xs : List Value} {fuel : ℕ} {rest : List Token}
    (h : itemsWithin fuel (itemTokens (x :: xs) ++ rest) = some (x :: xs, rest)) :
    valueWithin (fuel + 1) (tokensOf (.list (x :: xs)) ++ rest) =
      some (.list (x :: xs), rest) := by
  obtain ⟨t, ts, ht, hne, -⟩ := tokensOf_head x
  obtain ⟨ts', hts⟩ : ∃ ts', itemTokens (x :: xs) ++ rest = t :: ts' := by
    cases xs <;> simp [itemTokens, ht]
  rw [tokensOf, List.cons_append]
  rw [hts] at h ⊢
  rw [valueWithin, h]
  · rfl
  · simpa using hne

theorem valueWithin_entries {e : String × Value} {es : List (String × Value)} {fuel : ℕ}
    {rest : List Token} (hkeys : (Entries.keys (e :: es)).Nodup)
    (h : entriesWithin fuel (entryTokens (e :: es) ++ rest) = some (e :: es, rest)) :
    valueWithin (fuel + 1) (tokensOf (.map (e :: es)) ++ rest) = some (.map (e :: es), rest) := by
  obtain ⟨ts, hts⟩ : ∃ ts, entryTokens (e :: es) ++ rest = .atom (.text e.1) :: ts := by
    cases es <;> simp [entryTokens]
  rw [tokensOf, List.cons_append]
  rw [hts] at h ⊢
  have hes := Entries.ofPairs_eq hkeys
  rw [valueWithin, h]
  · exact congrArg (fun es => some (Value.map es, rest)) hes
  · simp

-- every step of the descent takes a token, so as many steps as there are tokens are enough
mutual

theorem valueWithin_tokensOf : ∀ (v : Value) (fuel : ℕ) (rest : List Token), Durable v →
    (tokensOf v).length ≤ fuel → valueWithin fuel (tokensOf v ++ rest) = some (v, rest)
  | v, 0, _, _, hfuel => by
    obtain ⟨t, ts, ht, -⟩ := tokensOf_head v
    simp [ht] at hfuel
  | .list [], _ + 1, _, _, _ => rfl
  | .list (x :: xs), fuel + 1, rest, hv, hfuel =>
    valueWithin_items (itemsWithin_itemTokens x xs fuel rest (by rwa [Durable] at hv)
      (by simpa [tokensOf] using hfuel))
  | .map [], _ + 1, _, _, _ => rfl
  | .map ((k, x) :: es), fuel + 1, rest, hv, hfuel => by
    rw [Durable] at hv
    exact valueWithin_entries hv.1 (entriesWithin_entryTokens k x es fuel rest hv.2
      (by simpa [tokensOf] using hfuel))
  | .null, _ + 1, _, _, _ => rfl
  | .bool _, _ + 1, _, _, _ => rfl
  | .int _, _ + 1, _, _, _ => rfl
  | .double _, _ + 1, _, _, _ => rfl
  | .text _, _ + 1, _, _, _ => rfl

theorem itemsWithin_itemTokens : ∀ (x : Value) (xs : List Value) (fuel : ℕ) (rest : List Token),
    DurableItems (x :: xs) → (itemTokens (x :: xs)).length ≤ fuel →
      itemsWithin fuel (itemTokens (x :: xs) ++ rest) = some (x :: xs, rest)
  | x, xs, 0, _, _, hfuel => by
    cases xs <;> simp [itemTokens] at hfuel
  | x, [], fuel + 1, rest, hx, hfuel => by
    have hread := valueWithin_tokensOf x fuel (.closeList :: rest) hx.1
      (by simpa [itemTokens] using hfuel)
    simp [itemsWithin, itemTokens, hread]
  | x, y :: ys, fuel + 1, rest, hx, hfuel => by
    have hlen : (tokensOf x).length + 1 + (itemTokens (y :: ys)).length ≤ fuel + 1 := by
      simpa [itemTokens, Nat.add_assoc, Nat.add_comm 1] using hfuel
    have hread := valueWithin_tokensOf x fuel (.comma :: (itemTokens (y :: ys) ++ rest)) hx.1
      (by omega)
    have hmore := itemsWithin_itemTokens y ys fuel rest hx.2 (by omega)
    simp [itemsWithin, itemTokens, hread, hmore]

theorem entriesWithin_entryTokens : ∀ (k : String) (x : Value) (es : List (String × Value))
    (fuel : ℕ) (rest : List Token), DurableEntries ((k, x) :: es) →
      (entryTokens ((k, x) :: es)).length ≤ fuel →
        entriesWithin fuel (entryTokens ((k, x) :: es) ++ rest) = some ((k, x) :: es, rest)
  | k, x, es, 0, _, _, hfuel => by
    cases es <;> simp [entryTokens] at hfuel
  | k, x, [], fuel + 1, rest, hx, hfuel => by
    have hread := valueWithin_tokensOf x fuel (.closeMap :: rest) hx.1
      (by simp [entryTokens] at hfuel; omega)
    simp [entriesWithin, entryTokens, hread]
  | k, x, (l, y) :: es, fuel + 1, rest, hx, hfuel => by
    have hlen : (tokensOf x).length + 3 + (entryTokens ((l, y) :: es)).length ≤ fuel + 1 := by
      simp only [entryTokens, List.length_cons, List.length_append] at hfuel
      omega
    have hread := valueWithin_tokensOf x fuel (.comma :: (entryTokens ((l, y) :: es) ++ rest)) hx.1
      (by omega)
    have hmore := entriesWithin_entryTokens l y es fuel rest hx.2 (by omega)
    simp [entriesWithin, entryTokens, hread, hmore]

end

-- items and entries are stated with the closing bracket, which ends the last number among them
mutual

theorem spells_encodeChars : ∀ v, Durable v → ∃ cs, encodeChars v = .ok cs ∧ Spells cs (tokensOf v)
  | .null, _ => ⟨_, rfl, .atom fun _ _ => rfl⟩
  | .bool true, _ => ⟨_, rfl, .atom fun _ _ => rfl⟩
  | .bool false, _ => ⟨_, rfl, .atom fun _ _ => rfl⟩
  | .int i, h => ⟨_, Numeral.write_eq_ok h, .atom fun _ hrest => token?_chars h hrest⟩
  | .double d, h => ⟨_, rfl, .atom h⟩
  | .text s, _ => ⟨_, rfl, .atom fun rest _ => token?_encodeText s rest⟩
  | .list xs, h => by
    obtain ⟨body, hbody, hspells⟩ := spells_encodeItems xs h
    refine ⟨'[' :: (body ++ [']']), by rw [encodeChars, hbody]; rfl, ?_⟩
    exact .mark (fun _ => rfl) hspells
  | .map es, h => by
    obtain ⟨body, hbody, hspells⟩ := spells_encodeEntries es h.2
    refine ⟨'\x7b' :: (body ++ ['\x7d']), by rw [encodeChars, hbody]; rfl, ?_⟩
    exact .mark (fun _ => rfl) hspells

theorem spells_encodeItems : ∀ xs, DurableItems xs →
    ∃ cs, encodeItems xs = .ok cs ∧ Spells (cs ++ [']']) (itemTokens xs)
  | [], _ => ⟨_, rfl, .atom fun _ _ => rfl⟩
  | [x], h => by
    obtain ⟨cs, hcs, hspells⟩ := spells_encodeChars x h.1
    exact ⟨cs, hcs, hspells.append (.atom fun _ _ => rfl) fun _ _ => .inr (.inl rfl)⟩
  | x :: y :: ys, h => by
    obtain ⟨cs, hcs, hspells⟩ := spells_encodeChars x h.1
    obtain ⟨ds, hds, hmore⟩ := spells_encodeItems (y :: ys) h.2
    refine ⟨cs ++ ',' :: ds, by rw [encodeItems, hcs, hds]; rfl; simp, ?_⟩
    rw [List.append_assoc]
    exact hspells.append (.mark (fun _ => rfl) hmore) fun _ _ => .inl rfl

theorem spells_encodeEntries : ∀ es, DurableEntries es →
    ∃ cs, encodeEntries es = .ok cs ∧ Spells (cs ++ ['\x7d']) (entryTokens es)
  | [], _ => ⟨_, rfl, .atom fun _ _ => rfl⟩
  | [(k, x)], h => by
    obtain ⟨cs, hcs, hspells⟩ := spells_encodeChars x h.1
    refine ⟨encodeText k ++ ':' :: cs, by rw [encodeEntries, hcs]; rfl, ?_⟩
    rw [List.append_assoc]
    refine .cons (token?_encodeText k) (.mark (fun _ => rfl) ?_)
    exact hspells.append (.atom fun _ _ => rfl) fun _ _ => .inr (.inr rfl)
  | (k, x) :: (l, y) :: es, h => by
    obtain ⟨cs, hcs, hspells⟩ := spells_encodeChars x h.1
    obtain ⟨ds, hds, hmore⟩ := spells_encodeEntries ((l, y) :: es) h.2
    refine ⟨encodeText k ++ ':' :: cs ++ ',' :: ds, by rw [encodeEntries, hcs, hds]; rfl; simp, ?_⟩
    rw [List.append_assoc, List.append_assoc]
    refine .cons (token?_encodeText k) (.mark (fun _ => rfl) ?_)
    exact hspells.append (.mark (fun _ => rfl) hmore) fun _ _ => .inl rfl

end

/-- Reading undoes writing. -/
theorem exists_decode {v : Value} (h : Durable v) : ∃ s, encode v = .ok s ∧ decode s = some v := by
  obtain ⟨cs, hcs, hspells⟩ := spells_encodeChars v h
  refine ⟨String.ofList cs, by rw [encode, hcs]; rfl, ?_⟩
  have hread := valueWithin_tokensOf v (2 * (tokensOf v).length) [] h (by omega)
  rw [List.append_nil] at hread
  simp [decode, hspells.tokens_eq, hread]

theorem decode_of_encode {v : Value} {s : String} (h : Durable v) (hs : encode v = .ok s) :
    decode s = some v := by
  obtain ⟨t, ht, hread⟩ := exists_decode h
  rw [hs] at ht
  cases ht
  exact hread

theorem Durable.writable {v : Value} (h : Durable v) : v.Writable := by
  obtain ⟨s, -, hs⟩ := exists_decode h
  exact writable_decode hs

theorem durable_text (s : String) : Durable (.text s) := by
  simp [Durable]

theorem durable_int {i : ℤ} {k : ℕ} (h : i.natAbs < 10 ^ k) (hk : k ≤ Numeral.maxDigits) :
    Durable (.int i) := by
  rw [Durable]
  generalize Numeral.maxDigits = m at hk
  exact h.trans_le (Nat.pow_le_pow_right (by decide) hk)

/-- A list is written as a text, from which it is read again. -/
structure Written (xs : List Value) (s : String) : Prop where
  encode : encode (.list xs) = .ok s
  decode : decodeList s = some xs

theorem exists_written {xs : List Value} (h : ∀ x ∈ xs, Durable x) : ∃ s, Written xs s := by
  obtain ⟨s, hs, hread⟩ := exists_decode (durable_list.mpr h)
  exact ⟨s, hs, by rw [decodeList, hread]⟩

end FieldRules.Json
