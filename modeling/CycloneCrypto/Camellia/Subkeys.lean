import CycloneCrypto.Camellia.Round

/-!
# The subkey loop of `camelliaInit`

Each entry `(index, key, shift, position)` of `ks1` and `ks2` asks for the 64-bit half
`position` of the bank `key` rotated left by `shift` bits. The code computes it from two or three
of the bank's words, `n = (shift + position) / 32` and `m = (shift + position) % 32`, without a
128-bit rotation, and with shifts by `m` and `32 - m` that C defines only below 32: the body
`subkeyWords` is `none` where it would shift by 32, and `subkeyWords_eq_some` shows it never
does, because `m = 0` takes the words whole.

* `subkeyWords_eq` -- for every bank value and every offset `shift + position`, the two words are
  the high half of the bank rotated by the offset; `hi64_rotateLeft_add` -- rotating 64 bits
  further turns the high half into the low one;
* `subkeyLoop_entry` -- the loop writes every entry's two words, and no later entry overwrites
  them, when the entries' slots are apart (`SlotsApart`, true of both tables);
* **`subkeyLoop_spec`** -- for every entry of both tables the body is defined and the loop stores
  its two words, the rotated half; `subkeyLoop_pairs` -- the loop's output read as the RFC's list
  of 64-bit subkeys (`tableSubkeys`).
-/

namespace CycloneCrypto.Camellia

open Rfc3713

/-- The 128-bit value held big-endian in the four words of the bank at offset `b`. -/
def bank (k : Nat → Word) (b : Nat) : BitVec 128 := (k b ++ k (b + 1)) ++ (k (b + 2) ++ k (b + 3))

@[simp] theorem hi64_bank (k : Nat → Word) (b : Nat) : hi64 (bank k b) = k b ++ k (b + 1) :=
  extractLsb'_append_hi _ _

@[simp] theorem lo64_bank (k : Nat → Word) (b : Nat) : lo64 (bank k b) = k (b + 2) ++ k (b + 3) :=
  extractLsb'_append_lo _ _

/-! ## 1. One entry -/

theorem getLsbD_bank (k : Nat → Word) (b : Nat) {j : Nat} (hj : j < 128) :
    (bank k b).getLsbD j = (k (b + (3 - j / 32))).getLsbD (j % 32) := by
  simp only [bank, BitVec.getLsbD_append]
  rcases (by omega : j < 32 ∨ (32 ≤ j ∧ j < 64) ∨ (64 ≤ j ∧ j < 96) ∨ 96 ≤ j) with h | h | h | h <;>
    simp (disch := omega) [h, decide_eq_true, decide_eq_false, Nat.sub_sub] <;> congr 2 <;> omega

theorem getLsbD_rotateLeft128 (x : BitVec 128) (o : Nat) {j : Nat} (hj : j < 128) :
    (x.rotateLeft o).getLsbD j = x.getLsbD ((j + 128 - o % 128) % 128) := by
  rw [BitVec.getLsbD_rotateLeft]
  by_cases h : j < o % 128 <;> simp [h, hj] <;> congr 1 <;> omega

/-- Bit `k` of `(a << m) | (b >> (32 - m))`, a shift count `m` in `1 … 31`. -/
theorem getLsbD_funnel (a b : Word) {m : Nat} (hm : 0 < m) (hm' : m < 32) {k : Nat} (hk : k < 32) :
    ((a <<< m) ||| (b >>> (32 - m))).getLsbD k =
      if m ≤ k then a.getLsbD (k - m) else b.getLsbD (k + 32 - m) := by
  simp only [BitVec.getLsbD_or, BitVec.getLsbD_shiftLeft, BitVec.getLsbD_ushiftRight]
  by_cases h : m ≤ k
  · simp (disch := omega) [h, hk, decide_eq_true, decide_eq_false]
  · simp (disch := omega) [h, hk, decide_eq_true, decide_eq_false]
    congr 1; omega

/-- **The two words of an entry are the high 64 bits of the bank rotated left by
    `shift + position`**, for every bank value and every offset: the words `n`, `n + 1` (and
    `n + 2`) modulo 4 funnel-shifted by `m`, or taken whole when `m = 0`. -/
theorem subkeyWords_eq (k : Nat → Word) (p : CamelliaSubkey) :
    (subkeyPair k p).1 ++ (subkeyPair k p).2 =
      hi64 ((bank k p.key).rotateLeft (p.shift + p.position)) := by
  have hw : subkeyPair k p = _ :=
    Option.some_injective _ ((Option.some_get _).trans (subkeyWords_eq_some k p rfl rfl))
  ext i
  have hi := i.isLt
  rw [hi64, BitVec.getLsbD_extractLsb', getLsbD_rotateLeft128 _ _ (by omega),
    getLsbD_bank _ _ (by omega), hw]
  simp only [hi, decide_True, Bool.true_and]
  split_ifs with hm <;> dsimp only <;> rw [getLsbD_append_words]
  · split_ifs <;> congr 2 <;> omega
  · split_ifs <;> rw [getLsbD_funnel _ _ (by omega) (by omega) (by omega)] <;> split_ifs <;>
      congr 2 <;> omega

/-- Rotating 64 bits further brings the low half to the top. -/
theorem hi64_rotateLeft_add (x : BitVec 128) (s : Nat) :
    hi64 (x.rotateLeft (s + 64)) = lo64 (x.rotateLeft s) := by
  ext i
  have hi := i.isLt
  simp only [hi64, lo64, BitVec.getLsbD_extractLsb', getLsbD_rotateLeft128 _ _ (by omega : 64 + i.val < 128),
    getLsbD_rotateLeft128 _ _ (by omega : 0 + i.val < 128), hi, decide_True, Bool.true_and]
  congr 1; omega

/-! ## 2. The loop -/

/-- The slots `index`, `index + 1` of any two entries are apart. -/
def SlotsApart (tbl : List CamelliaSubkey) : Prop :=
  tbl.Pairwise fun p q => p.index + 1 < q.index ∨ q.index + 1 < p.index

instance (tbl : List CamelliaSubkey) : Decidable (SlotsApart tbl) :=
  inferInstanceAs (Decidable (List.Pairwise _ _))

/-- A slot no entry of the table writes keeps its value. -/
theorem subkeyLoop_of_not_mem (k : Nat → Word) (tbl : List CamelliaSubkey) {j : Nat}
    (h : ∀ q ∈ tbl, j ≠ q.index ∧ j ≠ q.index + 1) (ks : Nat → Word) :
    subkeyLoop k tbl ks j = ks j := by
  induction tbl generalizing ks with
  | nil => rfl
  | cons q qs ih =>
    obtain ⟨h1, h2⟩ := h q (List.mem_cons_self _ _)
    rw [subkeyLoop, ih (fun q' hq' => h q' (List.mem_cons_of_mem _ hq')),
      Function.update_noteq h2, Function.update_noteq h1]

/-- **The loop leaves every entry's two words in its slots.** -/
theorem subkeyLoop_entry (k : Nat → Word) {tbl : List CamelliaSubkey} (hs : SlotsApart tbl)
    {p : CamelliaSubkey} (hp : p ∈ tbl) (ks : Nat → Word) :
    subkeyLoop k tbl ks p.index = (subkeyPair k p).1 ∧
      subkeyLoop k tbl ks (p.index + 1) = (subkeyPair k p).2 := by
  induction tbl generalizing ks with
  | nil => cases hp
  | cons q qs ih =>
    rw [SlotsApart, List.pairwise_cons] at hs
    rcases List.mem_cons.1 hp with rfl | hp
    · have hfree : ∀ j, j = p.index ∨ j = p.index + 1 → ∀ q ∈ qs, j ≠ q.index ∧ j ≠ q.index + 1 :=
        fun j hj q hq => by have := hs.1 q hq; omega
      simp only [subkeyLoop, subkeyLoop_of_not_mem k qs (hfree _ (.inl rfl)),
        subkeyLoop_of_not_mem k qs (hfree _ (.inr rfl)), Function.update_same,
        Function.update_noteq (Nat.ne_of_lt (Nat.lt_succ_self _)), and_self]
    · exact ih hs.2 hp _

/-- The 64-bit subkeys an entry list asks for, in its order: half `position` of the bank `key`
    rotated left by `shift`, the banks' values given by `X`. -/
def tableSubkeys (X : Nat → BitVec 128) (tbl : List CamelliaSubkey) : List (BitVec 64) :=
  tbl.map fun p => (if p.position = l then hi64 else lo64) ((X p.key).rotateLeft p.shift)

/-- The halves the entries ask for are the words the loop computes. -/
theorem subkeyWords_half (k : Nat → Word) {p : CamelliaSubkey} (hp : p.position = l ∨ p.position = r) :
    (subkeyPair k p).1 ++ (subkeyPair k p).2 =
      (if p.position = l then hi64 else lo64) ((bank k p.key).rotateLeft p.shift) := by
  rw [subkeyWords_eq]
  rcases hp with h | h <;> simp only [h, l, r] <;> simp [hi64_rotateLeft_add]

/-- The two tables: slots apart, halves `L` or `R`, and entry `j` at slot `2 j`. -/
def WellFormed (tbl : List CamelliaSubkey) : Prop :=
  SlotsApart tbl ∧ (∀ p ∈ tbl, p.position = l ∨ p.position = r) ∧
    ∀ j < tbl.length, (tbl.getD j ⟨0, 0, 0, 0⟩).index = 2 * j

instance (tbl : List CamelliaSubkey) : Decidable (WellFormed tbl) :=
  inferInstanceAs (Decidable (_ ∧ _ ∧ _))

theorem ks1_wellFormed : WellFormed ks1 := by decide

theorem ks2_wellFormed : WellFormed ks2 := by decide

/-- **For every entry `(index, key, shift, position)` of `ks1` and of `ks2` and every content of
    the banks, the body of the subkey loop shifts no word by 32 and the loop stores the two words
    it computes in `ks[index]`, `ks[index + 1]`: the high half (`L`) or the low half (`R`) of the
    bank's 128 bits rotated left by `shift`.** -/
theorem subkeyLoop_spec :
    ∀ tbl ∈ [ks1, ks2], ∀ p ∈ tbl, ∀ k ks : Nat → Word,
      subkeyWords k p = some (subkeyLoop k tbl ks p.index, subkeyLoop k tbl ks (p.index + 1)) ∧
      subkeyLoop k tbl ks p.index ++ subkeyLoop k tbl ks (p.index + 1) =
        (if p.position = l then hi64 else lo64) ((bank k p.key).rotateLeft p.shift) := by
  intro tbl htbl p hp k ks
  have hw : WellFormed tbl := by
    simp only [List.mem_cons, List.mem_singleton, List.not_mem_nil, or_false] at htbl
    rcases htbl with rfl | rfl
    · exact ks1_wellFormed
    · exact ks2_wellFormed
  obtain ⟨h1, h2⟩ := subkeyLoop_entry k hw.1 hp ks
  rw [h1, h2]
  exact ⟨(Option.some_get _).symm, subkeyWords_half k (hw.2.1 p hp)⟩

/-- `kw1`, whose offset `0 + 0` takes the words whole: the case a shift by `32 - m` would make
    undefined. -/
theorem subkeyLoop_spec_kw1 :
    ks1 ∈ [ks1, ks2] ∧ (⟨0, kl, 0, l⟩ : CamelliaSubkey) ∈ ks1 ∧
      subkeyWords (fun _ => 0) ⟨0, kl, 0, l⟩ =
        some (subkeyLoop (fun _ => 0) ks1 (fun _ => 0) 0, subkeyLoop (fun _ => 0) ks1 (fun _ => 0) 1) :=
  ⟨List.mem_cons_self _ _, by decide,
    (subkeyLoop_spec ks1 (List.mem_cons_self _ _) ⟨0, kl, 0, l⟩ (by decide) (fun _ => 0) (fun _ => 0)).1⟩

/-- The loop's output, read as pairs of words, is the list of 64-bit subkeys the table asks for. -/
theorem subkeyLoop_pairs (k : Nat → Word) {tbl : List CamelliaSubkey} (hw : WellFormed tbl)
    (ks : Nat → Word) {j : Nat} (hj : j < tbl.length) :
    subkeyLoop k tbl ks (2 * j) ++ subkeyLoop k tbl ks (2 * j + 1) =
      (tableSubkeys (bank k) tbl).getD j 0 := by
  have hget : tbl.getD j ⟨0, 0, 0, 0⟩ = tbl[j] := by simp [hj]
  have hp : tbl.getD j ⟨0, 0, 0, 0⟩ ∈ tbl := hget ▸ List.getElem_mem hj
  have hidx := hw.2.2 j hj
  obtain ⟨h1, h2⟩ := subkeyLoop_entry k hw.1 hp ks
  rw [hidx] at h1 h2
  rw [h1, h2, subkeyWords_half k (hw.2.1 _ hp), tableSubkeys, hget]
  simp [hj]

end CycloneCrypto.Camellia
