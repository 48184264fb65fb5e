import CycloneCrypto.Rfc3713.Cipher

/-!
# RFC 3713 decryption undoes encryption

Decryption is encryption under `decryptSubkeys`, which swaps the whitening keys and reverses the
round and `ke` keys. That this inverts encryption holds for every subkey sequence, not only for
the ones the key schedule produces:

* `FLINV_FL`, `FL_FLINV` -- the two FL functions are inverse under one key;
* `sixRounds_mirror`, `flLayer_mirror` -- a group of six rounds, and an FL layer, are undone by
  the same step keyed in mirror order on the swapped halves;
* `groups_snoc` -- the groups read from the last one, the order decryption peels them in;
* `groups_mirror` -- by induction over the groups, the whole pipeline is undone;
* **`encryptWith_inverse`** for every subkey sequence, and `encryptWith_congr`;
* `toBlock_ofBlock`, `toBlock_injective`, `ofBlock_toBlock` -- the 16 bytes of a block and its
  128-bit value are the same data.
-/

namespace CycloneCrypto.Rfc3713

/-! ## 1. One step at a time -/

@[simp] theorem hi64_append (a b : BitVec 64) : hi64 (a ++ b) = a := by
  simp only [hi64, extractLsb'_append_hi]

@[simp] theorem lo64_append (a b : BitVec 64) : lo64 (a ++ b) = b := by
  simp only [lo64, extractLsb'_append_lo]

theorem hi64_append_lo64 (x : BitVec 128) : hi64 x ++ lo64 x = x :=
  append_extractLsb' (m := 64) (n := 64) x

@[simp] theorem FLINV_FL (x k : BitVec 64) : FLINV (FL x k) k = x := by
  simp only [FL, FLINV, extractLsb'_append_hi, extractLsb'_append_lo, xor_cancel_right]
  exact append_extractLsb' (m := 32) (n := 32) x

@[simp] theorem FL_FLINV (y k : BitVec 64) : FL (FLINV y k) k = y := by
  simp only [FL, FLINV, extractLsb'_append_hi, extractLsb'_append_lo, xor_cancel_right]
  exact append_extractLsb' (m := 32) (n := 32) y

/-- Six rounds are undone by six rounds on the swapped halves with the keys in reverse order. -/
theorem sixRounds_mirror {sk sk' : Nat → BitVec 64} {b b' : Nat}
    (h : ∀ t < 6, sk' (b' + t) = sk (b + 5 - t)) (d : BitVec 64 × BitVec 64) :
    sixRounds sk' b' (sixRounds sk b d).swap = d.swap := by
  have h0 := h 0 (by omega)
  have h1 := h 1 (by omega)
  have h2 := h 2 (by omega)
  have h3 := h 3 (by omega)
  have h4 := h 4 (by omega)
  have h5 := h 5 (by omega)
  simp only [Nat.add_zero, Nat.sub_zero, show b + 5 - 1 = b + 4 by omega,
    show b + 5 - 2 = b + 3 by omega, show b + 5 - 3 = b + 2 by omega,
    show b + 5 - 4 = b + 1 by omega, show b + 5 - 5 = b by omega] at h0 h1 h2 h3 h4 h5
  simp only [sixRounds, Prod.swap_prod_mk, Prod.fst_swap, Prod.snd_swap, h0, h1, h2, h3, h4, h5,
    xor_cancel_right]
  rfl

/-- An FL layer is undone by the layer on the swapped halves with its two keys exchanged. -/
theorem flLayer_mirror {sk sk' : Nat → BitVec 64} {g g' : Nat} (h8 : sk' (8 + 8 * g') = sk (9 + 8 * g))
    (h9 : sk' (9 + 8 * g') = sk (8 + 8 * g)) (d : BitVec 64 × BitVec 64) :
    flLayer sk' g' (flLayer sk g d).swap = d.swap := by
  simp only [flLayer, Prod.swap_prod_mk, Prod.fst_swap, Prod.snd_swap, h8, h9, FL_FLINV, FLINV_FL]
  rfl

/-! ## 2. The groups -/

/-- The last group split off: `n + 2` groups are `n + 1` groups, an FL layer, and six rounds. -/
theorem groups_snoc (sk : Nat → BitVec 64) (n g : Nat) (d : BitVec 64 × BitVec 64) :
    groups sk (n + 2) g d =
      sixRounds sk (2 + 8 * (g + n + 1)) (flLayer sk (g + n) (groups sk (n + 1) g d)) := by
  induction n generalizing g d with
  | zero => rfl
  | succ n ih =>
    rw [groups, ih, groups]
    simp only [Nat.add_right_comm g 1 n, Nat.add_assoc g n 1]

/-- **The groups are undone in mirror order**: `G + 1` groups from group `g`, then `G + 1` groups
    from `g'` on the swapped halves keyed by `sk' j = sk (N - j)`, give back the swapped input,
    where `N = 8 (g + g' + G + 1) + 1` pairs the keys of the two. -/
theorem groups_mirror (sk sk' : Nat → BitVec 64) (g : Nat) :
    ∀ G g', (∀ j, 2 + 8 * g' ≤ j → j < 8 * (g' + G + 1) →
      sk' j = sk (8 * (g + g' + G + 1) + 1 - j)) →
    ∀ d, groups sk' (G + 1) g' (groups sk (G + 1) g d).swap = d.swap := by
  intro G
  induction G with
  | zero =>
    intro g' h d
    exact sixRounds_mirror (fun t ht => by rw [h _ (by omega) (by omega)]; congr 1; omega) d
  | succ G ih =>
    intro g' h d
    have hsix : ∀ t < 6, sk' (2 + 8 * g' + t) = sk (2 + 8 * (g + G + 1) + 5 - t) :=
      fun t ht => by rw [h _ (by omega) (by omega)]; congr 1; omega
    have h8 : sk' (8 + 8 * g') = sk (9 + 8 * (g + G)) := by
      rw [h _ (by omega) (by omega)]; congr 1; omega
    have h9 : sk' (9 + 8 * g') = sk (8 + 8 * (g + G)) := by
      rw [h _ (by omega) (by omega)]; congr 1; omega
    rw [groups_snoc sk G g d, groups.eq_3, sixRounds_mirror hsix, flLayer_mirror h8 h9]
    exact ih (g' + 1) (fun j hj hj' => by rw [h j (by omega) (by omega)]; congr 1; omega) d

/-- `groups` reads the keys `2 + 8 g … 8 (g + G) - 1` only. -/
theorem groups_congr {sk sk' : Nat → BitVec 64} :
    ∀ G g, (∀ j, 2 + 8 * g ≤ j → j < 8 * (g + G) → sk j = sk' j) →
    ∀ d, groups sk G g d = groups sk' G g d
  | 0, _, _, _ => rfl
  | 1, g, h, d => by
    simp only [groups, sixRounds, h (2 + 8 * g) (by omega) (by omega), h (2 + 8 * g + 1) (by omega) (by omega),
      h (2 + 8 * g + 2) (by omega) (by omega), h (2 + 8 * g + 3) (by omega) (by omega),
      h (2 + 8 * g + 4) (by omega) (by omega), h (2 + 8 * g + 5) (by omega) (by omega)]
  | G + 2, g, h, d => by
    have hsix : groups sk 1 g d = groups sk' 1 g d :=
      groups_congr 1 g (fun j hj hj' => h j (by omega) (by omega)) d
    rw [groups.eq_3, groups.eq_3, groups_congr (G + 1) (g + 1) (fun j hj hj' => h j (by omega) (by omega))]
    simp only [groups] at hsix
    simp only [flLayer, hsix, h (8 + 8 * g) (by omega) (by omega), h (9 + 8 * g) (by omega) (by omega)]

/-! ## 3. Encryption and decryption -/

/-- `encryptWith` reads the subkeys `0 … 8 G + 1` only. -/
theorem encryptWith_congr {sk sk' : Nat → BitVec 64} {G : Nat} (h : ∀ j ≤ 8 * G + 1, sk j = sk' j)
    (M : BitVec 128) : encryptWith sk G M = encryptWith sk' G M := by
  simp only [encryptWith, h 0 (by omega), h 1 (by omega), h (8 * G) (by omega), h (8 * G + 1) le_rfl,
    groups_congr G 0 (fun j _ hj => h j (by omega))]

/-- **Encryption under `decryptSubkeys G sk` undoes encryption under `sk`**, for every subkey
    sequence and every number `G ≥ 1` of groups. -/
theorem encryptWith_inverse (sk : Nat → BitVec 64) {G : Nat} (hG : 1 ≤ G) (M : BitVec 128) :
    encryptWith (decryptSubkeys G sk) G (encryptWith sk G M) = M := by
  obtain ⟨G, rfl⟩ : ∃ G', G = G' + 1 := ⟨G - 1, by omega⟩
  have k8 : decryptSubkeys (G + 1) sk (8 * (G + 1)) = sk 0 := by simp [decryptSubkeys]
  have k9 : decryptSubkeys (G + 1) sk (8 * (G + 1) + 1) = sk 1 := by simp [decryptSubkeys]
  have hmir := groups_mirror sk (decryptSubkeys (G + 1) sk) 0 G 0
    (fun j hj hj' => by simp only [decryptSubkeys]; split_ifs <;> first | omega | (congr 1; omega))
    (hi64 M ^^^ sk 0, lo64 M ^^^ sk 1)
  have k0 : decryptSubkeys (G + 1) sk 0 = sk (8 * (G + 1)) := rfl
  have k1 : decryptSubkeys (G + 1) sk 1 = sk (8 * (G + 1) + 1) := rfl
  simp only [encryptWith, hi64_append, lo64_append, k0, k1, k8, k9, xor_cancel_right]
  generalize groups sk (G + 1) 0 (hi64 M ^^^ sk 0, lo64 M ^^^ sk 1) = d at hmir ⊢
  obtain ⟨x, y⟩ := d
  simp only [Prod.swap_prod_mk] at hmir
  simp only [hmir, xor_cancel_right]
  exact hi64_append_lo64 M

/-- `decryptSubkeys` reads the subkeys `0 … 8 G + 1` only, at the keys `0 … 8 G + 1`. -/
theorem decryptSubkeys_congr {G : Nat} {sk sk' : Nat → BitVec 64} (h : ∀ j ≤ 8 * G + 1, sk j = sk' j) :
    ∀ j ≤ 8 * G + 1, decryptSubkeys G sk j = decryptSubkeys G sk' j := by
  intro j hj
  simp only [decryptSubkeys]
  split_ifs <;> exact h _ (by omega)

/-- `decryptSubkeys` is an involution on the subkeys `encryptWith` reads. -/
theorem decryptSubkeys_decryptSubkeys {G : Nat} (hG : 1 ≤ G) (sk : Nat → BitVec 64) {j : Nat}
    (hj : j ≤ 8 * G + 1) :
    decryptSubkeys G (decryptSubkeys G sk) j = sk j := by
  simp only [decryptSubkeys]
  split_ifs <;> first | rfl | contradiction | (congr 1; omega)

/-- The key schedule's number of groups: 3 for a 128-bit key, 4 otherwise. -/
theorem schedule_groups (K : List Byte) : (schedule K).2 = 3 ∨ (schedule K).2 = 4 := by
  unfold schedule; split_ifs <;> simp

/-! ## 4. Blocks -/

theorem getLsbD_ofBytes8 (y1 y2 y3 y4 y5 y6 y7 y8 : Byte) (j : Nat) :
    (ofBytes8 y1 y2 y3 y4 y5 y6 y7 y8).getLsbD j =
      if j < 8 then y8.getLsbD j else if j < 16 then y7.getLsbD (j - 8)
      else if j < 24 then y6.getLsbD (j - 16) else if j < 32 then y5.getLsbD (j - 24)
      else if j < 40 then y4.getLsbD (j - 32) else if j < 48 then y3.getLsbD (j - 40)
      else if j < 56 then y2.getLsbD (j - 48) else y1.getLsbD (j - 56) := by
  simp only [ofBytes8, BitVec.getLsbD_append]
  split_ifs <;> simp (disch := omega) [*, decide_eq_true, decide_eq_false, Nat.sub_sub]

/-- Reading a block as 128 bits and back gives the block. -/
@[simp] theorem toBlock_ofBlock (B : Block) : toBlock (ofBlock B) = B := by
  funext i
  fin_cases i <;> ext j <;>
    simp (disch := omega) [toBlock, ofBlock, getLsbD_append_halves, getLsbD_ofBytes8, j.isLt,
      decide_eq_true, decide_eq_false] <;> exact congrArg _ (by omega)

theorem getLsbD_toBlock (x : BitVec 128) (i : Fin 16) {k : Nat} (hk : k < 8) :
    (toBlock x i).getLsbD k = x.getLsbD (120 - 8 * i.val + k) := by
  simp [toBlock, hk]

/-- Bit `j` of a value is bit `j % 8` of byte `15 - j / 8` of its block. -/
theorem toBlock_injective : Function.Injective toBlock := by
  intro x y h
  ext j
  have hj := j.isLt
  have e := congrArg (fun B => (B ⟨15 - j.val / 8, by omega⟩).getLsbD (j.val % 8)) h
  simp only [getLsbD_toBlock _ _ (Nat.mod_lt _ (by omega : 8 > 0))] at e
  rwa [show 120 - 8 * (15 - j.val / 8) + j.val % 8 = j.val by omega] at e

/-- Writing 128 bits as a block and reading it back gives the value. -/
@[simp] theorem ofBlock_toBlock (x : BitVec 128) : ofBlock (toBlock x) = x :=
  toBlock_injective (toBlock_ofBlock _)

end CycloneCrypto.Rfc3713
