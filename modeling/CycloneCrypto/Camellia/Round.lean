import CycloneCrypto.Camellia.Cipher
import CycloneCrypto.Rfc3713.Cipher

/-!
# The round macros of `camellia.c` against RFC 3713

The macros work on pairs of 32-bit words; the RFC on 64-bit values. Reading a pair `(a, b)` as
`a ++ b` (`a` the most significant word), each macro is the RFC's function:

* `lookup_sbox1` -- the table `sbox1` is the RFC's `SBOX1`, computed independently of it;
  `lookup_sbox2`, `lookup_sbox3`, `lookup_sbox4` -- the other tables are `SBOX1` rotated as §2.4.4
  says; `sigma_eq` -- `sigma` holds Σ1 … Σ6;
* `camelliaS_eq` -- `CAMELLIA_S` is the S-function; `camelliaP_eq` -- `CAMELLIA_P` is the
  P-function with the two words read in the order `(zr, zl)`: both are GF(2)-linear, and agree on
  the 64 single-bit inputs; **`camelliaSP_eq`** puts the two together;
* `left_camelliaRound`, `right_camelliaRound` -- `CAMELLIA_ROUND` is a Feistel round: the new left
  half is `right ^ F(left, k)`, the new right half the old left;
* `camelliaFl_eq`, `camelliaInvFl_eq` -- the FL macros are `FL` and `FLINV`.
-/

namespace CycloneCrypto.Camellia

open Rfc3713

/-! ## 1. Words and their concatenation -/

theorem load32Be_eq_append (b0 b1 b2 b3 : Byte) : load32Be b0 b1 b2 b3 = b0 ++ b1 ++ b2 ++ b3 := by
  ext i
  simp only [load32Be, BitVec.getLsbD_or, BitVec.getLsbD_shiftLeft, BitVec.getLsbD_setWidth,
    BitVec.getLsbD_append]
  rcases (by omega : i.val < 8 ∨ (8 ≤ i.val ∧ i.val < 16) ∨ (16 ≤ i.val ∧ i.val < 24) ∨
    24 ≤ i.val) with h | h | h | h <;>
    simp (disch := omega) [h, i.isLt, decide_eq_true, decide_eq_false, Nat.sub_sub]

theorem rol32_xor (a b : Word) {n : Nat} (h : n < 32) :
    rol32 (a ^^^ b) n = rol32 a n ^^^ rol32 b n := by
  simp only [rol32_eq_rotateLeft _ h]
  ext i
  simp only [BitVec.getLsbD_rotateLeft, BitVec.getLsbD_xor]
  cases decide (i.val < n % 32) <;> simp

theorem ror32_xor (a b : Word) {n : Nat} (h : n < 32) :
    ror32 (a ^^^ b) n = ror32 a n ^^^ ror32 b n := by
  simp only [ror32_eq_rotateRight _ h]
  ext i
  simp only [BitVec.getLsbD_rotateRight, BitVec.getLsbD_xor]
  cases decide (i.val < 32 - n % 32) <;> simp

/-! ## 2. The tables -/

section
set_option maxRecDepth 4000

/-- The table `sbox1` is `SBOX1` on all 256 bytes. -/
theorem sbox1_check : allIdx (fun i v => v == Rfc3713.sbox1 (BitVec.ofNat 8 i)) sbox1 0 = true := by
  decide

theorem sbox2_check : (sbox1.zip sbox2).all (fun q => q.2 == q.1.rotateLeft 1) = true := by decide

theorem sbox3_check : (sbox1.zip sbox3).all (fun q => q.2 == q.1.rotateLeft 7) = true := by decide

theorem sbox4_check :
    allIdx (fun i v => v == lookup sbox1 ((BitVec.ofNat 8 i).rotateLeft 1)) sbox4 0 = true := by
  decide

end

theorem lookup_sbox1 (x : Byte) : lookup sbox1 x = Rfc3713.sbox1 x := by
  simpa using lookup_of_allIdx sbox1_length sbox1_check x

theorem lookup_sbox2 (x : Byte) : lookup sbox2 x = Rfc3713.sbox2 x := by
  simpa [Rfc3713.sbox2, lookup_sbox1] using
    lookup_of_zip_all (p := fun a b => b == a.rotateLeft 1) sbox1_length sbox2_length sbox2_check x

theorem lookup_sbox3 (x : Byte) : lookup sbox3 x = Rfc3713.sbox3 x := by
  simpa [Rfc3713.sbox3, lookup_sbox1] using
    lookup_of_zip_all (p := fun a b => b == a.rotateLeft 7) sbox1_length sbox3_length sbox3_check x

theorem lookup_sbox4 (x : Byte) : lookup sbox4 x = Rfc3713.sbox4 x := by
  simpa [Rfc3713.sbox4, lookup_sbox1] using lookup_of_allIdx sbox4_length sbox4_check x

/-- **`sigma[2 i]`, `sigma[2 i + 1]` are the halves of `Sigma(i + 1)`.** -/
theorem sigma_eq : ∀ i < 6, sigma.getD (2 * i) 0 ++ sigma.getD (2 * i + 1) 0 = Rfc3713.sigma (i + 1) := by
  decide

/-! ## 3. The F-function -/

/-- The bytes `t1 … t8` of a pair of words. -/
theorem byte8_append (a b : Word) :
    byte8 (a ++ b) 1 = byteOf a 3 ∧ byte8 (a ++ b) 2 = byteOf a 2 ∧ byte8 (a ++ b) 3 = byteOf a 1 ∧
    byte8 (a ++ b) 4 = byteOf a 0 ∧ byte8 (a ++ b) 5 = byteOf b 3 ∧ byte8 (a ++ b) 6 = byteOf b 2 ∧
    byte8 (a ++ b) 7 = byteOf b 1 ∧ byte8 (a ++ b) 8 = byteOf b 0 := by
  refine ⟨?_, ?_, ?_, ?_, ?_, ?_, ?_, ?_⟩ <;> ext i <;>
    simp only [byte8, byteOf, BitVec.getLsbD_extractLsb', BitVec.getLsbD_append] <;>
    simp (disch := omega) [i.isLt, decide_eq_true, decide_eq_false] <;> congr 1 <;> omega

theorem load32Be_append_load32Be (y1 y2 y3 y4 y5 y6 y7 y8 : Byte) :
    load32Be y1 y2 y3 y4 ++ load32Be y5 y6 y7 y8 = ofBytes8 y1 y2 y3 y4 y5 y6 y7 y8 := by
  simp only [load32Be_eq_append, ofBytes8]
  ext i
  simp only [BitVec.getLsbD_append]
  rcases (by omega : i.val < 32 ∨ 32 ≤ i.val) with h | h <;>
    simp (disch := omega) [h, i.isLt, decide_eq_true, decide_eq_false, Nat.sub_sub]

/-- **`CAMELLIA_S` is the S-function of the RFC.** -/
theorem camelliaS_eq (a b : Word) : (camelliaS a b).1 ++ (camelliaS a b).2 = S (a ++ b) := by
  obtain ⟨h1, h2, h3, h4, h5, h6, h7, h8⟩ := byte8_append a b
  simp only [camelliaS, S, h1, h2, h3, h4, h5, h6, h7, h8, lookup_sbox1, lookup_sbox2, lookup_sbox3,
    lookup_sbox4, load32Be_append_load32Be]

/-- `CAMELLIA_P` as a map of 64 bits: the words of `z`, the result read as `(zr, zl)`. -/
def camelliaP64 (z : BitVec 64) : BitVec 64 :=
  (camelliaP (z.extractLsb' 32 32) (z.extractLsb' 0 32)).2 ++
    (camelliaP (z.extractLsb' 32 32) (z.extractLsb' 0 32)).1

theorem camelliaP64_additive : Additive camelliaP64 := by
  intro a b
  simp only [camelliaP64, camelliaP, extractLsb'_xor, rol32_xor _ _ (by omega : 8 < 32),
    rol32_xor _ _ (by omega : 16 < 32), ror32_xor _ _ (by omega : 8 < 32)]
  rw [BitVec.xor_append]
  congr 1 <;> ac_rfl

theorem ofBytes8_xor (a1 a2 a3 a4 a5 a6 a7 a8 b1 b2 b3 b4 b5 b6 b7 b8 : Byte) :
    ofBytes8 (a1 ^^^ b1) (a2 ^^^ b2) (a3 ^^^ b3) (a4 ^^^ b4) (a5 ^^^ b5) (a6 ^^^ b6) (a7 ^^^ b7)
      (a8 ^^^ b8) = ofBytes8 a1 a2 a3 a4 a5 a6 a7 a8 ^^^ ofBytes8 b1 b2 b3 b4 b5 b6 b7 b8 := by
  simp only [ofBytes8, ← BitVec.xor_append]

theorem P_additive : Additive P := by
  intro a b
  simp only [P, byte8, extractLsb'_xor]
  rw [← ofBytes8_xor]
  congr 1 <;> ac_rfl

/-- **`CAMELLIA_P` is the P-function of the RFC, its result read as `(zr, zl)`.** -/
theorem camelliaP_eq (a b : Word) : (camelliaP a b).2 ++ (camelliaP a b).1 = P (a ++ b) := by
  have h := additive_eq_of_basis camelliaP64_additive P_additive (by decide) (a ++ b)
  simpa only [camelliaP64, extractLsb'_append_hi, extractLsb'_append_lo] using h

/-- **`CAMELLIA_S` then `CAMELLIA_P`, read out as `(t2, t1)` the way `CAMELLIA_ROUND` reads it,
    is `P(S(z))` for the eight bytes `z` of `t1 ++ t2`.** -/
theorem camelliaSP_eq (t1 t2 : Word) :
    let s := camelliaS t1 t2
    let p := camelliaP s.1 s.2
    p.2 ++ p.1 = P (S (t1 ++ t2)) := by
  simp only [camelliaP_eq, camelliaS_eq]

/-! ## 4. The round and the FL layers -/

/-- The left half `left1 ++ left2` of the state. -/
def FeistelState.left (s : FeistelState) : BitVec 64 := s.left1 ++ s.left2

/-- The right half `right1 ++ right2` of the state. -/
def FeistelState.right (s : FeistelState) : BitVec 64 := s.right1 ++ s.right2

/-- **`CAMELLIA_ROUND` is a Feistel round: the new left half is `right ^ F(left, k)`.** -/
theorem left_camelliaRound (s : FeistelState) (k1 k2 : Word) :
    (camelliaRound s k1 k2).left = s.right ^^^ F s.left (k1 ++ k2) := by
  have hP := camelliaP_eq (camelliaS (s.left1 ^^^ k1) (s.left2 ^^^ k2)).1
    (camelliaS (s.left1 ^^^ k1) (s.left2 ^^^ k2)).2
  rw [camelliaS_eq, ← BitVec.xor_append] at hP
  show ((_ ^^^ s.right1) ++ (_ ^^^ s.right2) : BitVec 64) = _
  rw [← BitVec.xor_append, hP, BitVec.xor_comm]
  rfl

theorem right_camelliaRound (s : FeistelState) (k1 k2 : Word) :
    (camelliaRound s k1 k2).right = s.left := rfl

@[simp] theorem left_swap (s : FeistelState) : s.swap.left = s.right := rfl

@[simp] theorem right_swap (s : FeistelState) : s.swap.right = s.left := rfl

/-- **`CAMELLIA_FL` is `FL`.** -/
theorem camelliaFl_eq (xl xr kl kr : Word) :
    (camelliaFl xl xr kl kr).1 ++ (camelliaFl xl xr kl kr).2 = FL (xl ++ xr) (kl ++ kr) := by
  simp only [camelliaFl, FL, extractLsb'_append_hi, extractLsb'_append_lo,
    rol32_eq_rotateLeft _ (by omega : 1 < 32)]

/-- **`CAMELLIA_INV_FL` is `FLINV`.** -/
theorem camelliaInvFl_eq (yl yr kl kr : Word) :
    (camelliaInvFl yl yr kl kr).1 ++ (camelliaInvFl yl yr kl kr).2 = FLINV (yl ++ yr) (kl ++ kr) := by
  simp only [camelliaInvFl, FLINV, extractLsb'_append_hi, extractLsb'_append_lo,
    rol32_eq_rotateLeft _ (by omega : 1 < 32)]

end CycloneCrypto.Camellia
