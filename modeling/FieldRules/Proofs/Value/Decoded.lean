import FieldRules.Json.Decode
import FieldRules.Proofs.Entries
import FieldRules.Proofs.Value.Writable

/-! Values read from JSON. Reading only puts together what it finds in the text, so what holds of
the numbers and texts there, and of lists and mappings with it, holds of every value that is read.
Integers that are longer than writing allows are refused, so all these values can be written. -/
namespace FieldRules

namespace Numeral

theorem digit_lt (c : Char) : (Text.digitValue? c).getD 0 < 10 := by
  unfold Text.digitValue?
  cases Text.digitRanges.find? _ with
  | none => simp
  | some r => exact Nat.mod_lt _ (by decide)

theorem ofDigits_lt {digits : List ℕ} (h : ∀ d ∈ digits, d < 10) :
    ofDigits digits < Nat.pow 10 digits.length := by
  suffices hacc : ∀ n, digits.foldl (fun n d => 10 * n + d) n < (n + 1) * 10 ^ digits.length by
    simpa [ofDigits] using hacc 0
  induction digits with
  | nil => intro n; simp
  | cons d digits ih =>
    obtain ⟨hd, hdigits⟩ := List.forall_mem_cons.mp h
    intro n
    calc (d :: digits).foldl (fun n d => 10 * n + d) n
        < (10 * n + d + 1) * 10 ^ digits.length := ih hdigits (10 * n + d)
      _ ≤ (n + 1) * 10 * 10 ^ digits.length := Nat.mul_le_mul_right _ (by omega)
      _ = (n + 1) * 10 ^ (d :: digits).length := by
        rw [List.length_cons, Nat.pow_succ, Nat.mul_assoc, Nat.mul_comm 10]

theorem value_lt (cs : List Char) : value cs < Nat.pow 10 cs.length := by
  unfold value
  have hdigits : ∀ d ∈ cs.map fun c => (Text.digitValue? c).getD 0, d < 10 := by
    simpa using fun c _ => digit_lt c
  have := ofDigits_lt hdigits
  rwa [List.length_map] at this

theorem lt_of_readNat {cs : List Char} {n : ℕ} (h : readNat cs = .ok n) :
    n < Nat.pow 10 maxDigits := by
  unfold readNat at h
  split_ifs at h with hlen
  cases h
  have hlt := value_lt cs
  generalize maxDigits = k at hlen ⊢
  exact hlt.trans_le (Nat.pow_le_pow_right (by omega) hlen)

end Numeral

namespace Json

/-- A property of the values that single tokens stand for. -/
structure Elementary (P : Value → Prop) : Prop where
  text : ∀ s, P (.text s)
  word : ∀ e ∈ words, P e.2
  int : ∀ i : ℤ, i.natAbs < Nat.pow 10 Numeral.maxDigits → P (.int i)
  double : ∀ negative digits exponent, P (.double (.ofDecimal negative digits exponent))

/-- A property of the smallest values that are read, and of lists and mappings of values that have
it. -/
structure Hereditary (P : Value → Prop) : Prop extends Elementary P where
  list : ∀ xs, (∀ x ∈ xs, P x) → P (.list xs)
  map : ∀ es, (Entries.keys es).Nodup → (∀ e ∈ es, P e.2) → P (.map es)

/-- What a token holds has the property. -/
def Token.Has (P : Value → Prop) : Token → Prop
  | .atom v => P v
  | _ => True

namespace Elementary

variable {P : Value → Prop}

theorem number? (hP : Elementary P) {negative : Bool} {cs rest : List Char} {v : Value}
    (h : Json.number? negative cs = some (v, rest)) : P v := by
  unfold Json.number? at h
  obtain ⟨⟨whole, cs⟩, -, h⟩ := Option.bind_eq_some_iff.mp h
  dsimp only at h
  split at h
  · cases h
    exact hP.double _ _ _
  · split at h
    · split at h
      · rename_i n hn
        cases h
        have hlt := Numeral.lt_of_readNat hn
        exact hP.int _ (by cases negative <;> simpa using hlt)
      · cases h
    · cases h
      exact hP.double _ _ _

theorem token? (hP : Elementary P) {cs rest : List Char} {t : Token}
    (h : Json.token? cs = some (t, rest)) : t.Has P := by
  unfold Json.token? at h
  split at h
  case h_7 =>
    obtain ⟨⟨ns, rest'⟩, -, h⟩ := Option.map_eq_some_iff.mp h
    cases h
    exact hP.text _
  case h_8 =>
    split at h
    · rename_i hw
      cases h
      obtain ⟨⟨w, v⟩, hmem, hw⟩ := List.exists_of_findSome?_eq_some hw
      obtain ⟨rest', -, hw⟩ := Option.map_eq_some_iff.mp hw
      cases hw
      exact hP.word _ hmem
    · obtain ⟨⟨v, rest'⟩, hn, h⟩ := Option.map_eq_some_iff.mp h
      cases h
      split at hn <;> exact hP.number? hn
  all_goals
    cases h
    trivial

theorem tokensWithin (hP : Elementary P) {fuel : ℕ} {cs : List Char} {ts : List Token}
    (h : Json.tokensWithin fuel cs = some ts) : ∀ t ∈ ts, t.Has P := by
  induction fuel generalizing cs ts with
  | zero =>
    unfold Json.tokensWithin at h
    split_ifs at h
    cases h
    simp
  | succ fuel ih =>
    unfold Json.tokensWithin at h
    split at h
    · cases h
      simp
    · obtain ⟨⟨t, rest⟩, ht, h⟩ := Option.bind_eq_some_iff.mp h
      obtain ⟨ts', hts, h⟩ := Option.bind_eq_some_iff.mp h
      cases h
      exact List.forall_mem_cons.mpr ⟨hP.token? ht, ih hts⟩

end Elementary

namespace Hereditary

variable {P : Value → Prop}

theorem valueWithin (hP : Hereditary P) {fuel : ℕ}
    (ihi : ∀ {ts xs rest}, itemsWithin fuel ts = some (xs, rest) → (∀ t ∈ ts, t.Has P) →
      (∀ x ∈ xs, P x) ∧ ∀ t ∈ rest, t.Has P)
    (ihe : ∀ {ts es rest}, entriesWithin fuel ts = some (es, rest) → (∀ t ∈ ts, t.Has P) →
      (∀ e ∈ es, P e.2) ∧ ∀ t ∈ rest, t.Has P)
    {ts rest : List Token} {v : Value} (h : Json.valueWithin (fuel + 1) ts = some (v, rest))
    (hts : ∀ t ∈ ts, t.Has P) : P v ∧ ∀ t ∈ rest, t.Has P := by
  unfold Json.valueWithin at h
  split at h
  · cases h
    exact List.forall_mem_cons.mp hts
  · cases h
    obtain ⟨-, -, hrest⟩ := by simpa using hts
    exact ⟨hP.list _ (by simp), hrest⟩
  · rename_i ts' hne hfuel
    obtain ⟨⟨xs, rest'⟩, hxs, h⟩ := Option.bind_eq_some_iff.mp h
    cases h
    cases hfuel
    obtain ⟨hall, hrest⟩ := ihi hxs (List.forall_mem_cons.mp hts).2
    exact ⟨hP.list _ hall, hrest⟩
  · cases h
    obtain ⟨-, -, hrest⟩ := by simpa using hts
    exact ⟨hP.map _ List.nodup_nil (by simp), hrest⟩
  · rename_i ts' hne hfuel
    obtain ⟨⟨es, rest'⟩, hes, h⟩ := Option.bind_eq_some_iff.mp h
    cases h
    cases hfuel
    obtain ⟨hall, hrest⟩ := ihe hes (List.forall_mem_cons.mp hts).2
    exact ⟨hP.map _ (Entries.nodup_keys_ofPairs es) (Entries.forall_overlay (by simp) hall), hrest⟩
  · cases h

/-- Reading by descent only puts together what the tokens hold. -/
theorem within (hP : Hereditary P) (fuel : ℕ) :
    (∀ {ts v rest}, Json.valueWithin fuel ts = some (v, rest) → (∀ t ∈ ts, t.Has P) →
      P v ∧ ∀ t ∈ rest, t.Has P) ∧
    (∀ {ts xs rest}, itemsWithin fuel ts = some (xs, rest) → (∀ t ∈ ts, t.Has P) →
      (∀ x ∈ xs, P x) ∧ ∀ t ∈ rest, t.Has P) ∧
    (∀ {ts es rest}, entriesWithin fuel ts = some (es, rest) → (∀ t ∈ ts, t.Has P) →
      (∀ e ∈ es, P e.2) ∧ ∀ t ∈ rest, t.Has P) := by
  induction fuel with
  | zero => simp [Json.valueWithin, itemsWithin, entriesWithin]
  | succ fuel ih =>
    obtain ⟨ihv, ihi, ihe⟩ := ih
    refine ⟨hP.valueWithin ihi ihe, ?_, ?_⟩
    · intro ts xs rest h hts
      unfold itemsWithin at h
      obtain ⟨⟨x, ts'⟩, hx, h⟩ := Option.bind_eq_some_iff.mp h
      obtain ⟨hv, hts'⟩ := ihv hx hts
      dsimp only at h
      split at h
      · cases h
        exact ⟨by simpa using hv, (List.forall_mem_cons.mp hts').2⟩
      · obtain ⟨⟨xs', rest'⟩, hxs, h⟩ := Option.bind_eq_some_iff.mp h
        cases h
        obtain ⟨hall, hrest⟩ := ihi hxs (List.forall_mem_cons.mp hts').2
        exact ⟨List.forall_mem_cons.mpr ⟨hv, hall⟩, hrest⟩
      · cases h
    · intro ts es rest h hts
      unfold entriesWithin at h
      split at h
      · rename_i k ts' hfuel
        cases hfuel
        obtain ⟨⟨x, ts'⟩, hx, h⟩ := Option.bind_eq_some_iff.mp h
        obtain ⟨hv, hts'⟩ := ihv hx fun t ht => hts t (by simp [ht])
        dsimp only at h
        split at h
        · cases h
          exact ⟨by simpa using hv, (List.forall_mem_cons.mp hts').2⟩
        · obtain ⟨⟨es', rest'⟩, hes, h⟩ := Option.bind_eq_some_iff.mp h
          cases h
          obtain ⟨hall, hrest⟩ := ihe hes (List.forall_mem_cons.mp hts').2
          exact ⟨List.forall_mem_cons.mpr ⟨hv, hall⟩, hrest⟩
        · cases h
      · cases h

theorem decode (hP : Hereditary P) {s : String} {v : Value} (h : Json.decode s = some v) :
    P v := by
  unfold Json.decode at h
  obtain ⟨ts, hts, h⟩ := Option.bind_eq_some_iff.mp h
  split at h
  · rename_i v' hv
    cases h
    exact ((hP.within _).1 hv (hP.tokensWithin hts)).1
  · cases h

end Hereditary

theorem decode_of_decodeList {s : String} {xs : List Value} (h : decodeList s = some xs) :
    decode s = some (.list xs) := by
  unfold decodeList at h
  split at h
  · rename_i hd
    cases h
    exact hd
  · cases h

theorem hereditary_writable : Hereditary Value.Writable where
  text := Value.writable_text
  word := by simp [words, Value.Writable, Double.writable_nan, Double.writable_infinity]
  int i hi := by rwa [Value.Writable]
  double negative digits exponent := by
    rw [Value.Writable]
    exact Double.writable_ofDecimal negative digits exponent
  list _ := Value.writable_list.mpr
  map _ _ := Value.writable_map.mpr

/-- A value that was read can be written. -/
theorem writable_decode {s : String} {v : Value} (h : decode s = some v) : v.Writable :=
  hereditary_writable.decode h

theorem writable_decodeList {s : String} {xs : List Value} (h : decodeList s = some xs) :
    ∀ x ∈ xs, x.Writable :=
  Value.writable_list.mp (writable_decode (decode_of_decodeList h))

end Json

end FieldRules
