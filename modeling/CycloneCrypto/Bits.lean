import Mathlib.Data.BitVec
import Mathlib.Tactic.FinCases

/-!
# Bytes, words and the byte-order helpers

The C sources compute on `uint8_t` and `uint32_t`; here they are `Byte` (`BitVec 8`) and `Word`
(`BitVec 32`). This file fixes what both ciphers share:

* XOR algebra: the lemmas that rearrange and cancel XORs (`xor_left_comm`, `xor_cancel_left`);
* the host's byte order (`HostOrder`): the value a `uint32_t` has when `memcpy` put four bytes
  into it (`HostOrder.load`), and the bytes a value occupies in memory (`HostOrder.store`);
* `betoh32`, `LOAD32BE`, `STORE32BE`, `ROL32` and `ROR32` of the library's headers, which are not
  among the sources: they are modelled from the spec (§4.4);
* constant tables (`lookup`, `allIdx`): `t[x]` for a `static const` array indexed by a byte, and
  a check of every entry against its index that runs in one pass over the table;
* additive maps (`Additive`): a map that commutes with XOR is fixed by its values on the
  single-bit vectors (`additive_eq_of_basis`), so an identity between GF(2)-linear maps over all
  `2^n` inputs is settled by `n` evaluations.
-/

namespace CycloneCrypto

/-- A `uint8_t`. -/
abbrev Byte := BitVec 8

/-- A `uint32_t`. -/
abbrev Word := BitVec 32

/-! ## 1. XOR -/

theorem xor_left_comm {w : Nat} (a b c : BitVec w) : a ^^^ (b ^^^ c) = b ^^^ (a ^^^ c) := by
  rw [← BitVec.xor_assoc, BitVec.xor_comm a b, BitVec.xor_assoc]

@[simp] theorem xor_cancel_right {w : Nat} (a b : BitVec w) : a ^^^ b ^^^ b = a := by
  rw [BitVec.xor_assoc, BitVec.xor_self, BitVec.xor_zero]

/-- XOR of two XORs, regrouped. -/
theorem xor_xor_xor_comm {w : Nat} (a b c d : BitVec w) :
    a ^^^ b ^^^ (c ^^^ d) = a ^^^ c ^^^ (b ^^^ d) := by
  simp only [BitVec.xor_assoc, xor_left_comm b c]

/-! ## 2. Words from bytes -/

/-- Modelled from the spec (§4.4): `LOAD32BE(p)`, the word whose bytes, most significant first,
    are `p[0..3]`. -/
def load32Be (b0 b1 b2 b3 : Byte) : Word :=
  b0.setWidth 32 <<< 24 ||| b1.setWidth 32 <<< 16 ||| b2.setWidth 32 <<< 8 ||| b3.setWidth 32

/-- Byte `j` of a word, counted from the least significant. -/
def byteOf (w : Word) (j : Nat) : Byte := w.extractLsb' (8 * j) 8

theorem byteOf_load32Be (b0 b1 b2 b3 : Byte) :
    byteOf (load32Be b0 b1 b2 b3) 3 = b0 ∧ byteOf (load32Be b0 b1 b2 b3) 2 = b1 ∧
      byteOf (load32Be b0 b1 b2 b3) 1 = b2 ∧ byteOf (load32Be b0 b1 b2 b3) 0 = b3 := by
  refine ⟨?_, ?_, ?_, ?_⟩ <;> ext i <;>
    simp (disch := omega) [byteOf, load32Be, decide_eq_true, decide_eq_false, i.isLt]

theorem load32Be_byteOf (w : Word) :
    load32Be (byteOf w 3) (byteOf w 2) (byteOf w 1) (byteOf w 0) = w := by
  ext i
  have hi := i.isLt
  simp only [load32Be, byteOf, BitVec.getLsbD_or, BitVec.getLsbD_shiftLeft,
    BitVec.getLsbD_setWidth, BitVec.getLsbD_extractLsb']
  rcases (by omega : i.val < 8 ∨ (8 ≤ i.val ∧ i.val < 16) ∨ (16 ≤ i.val ∧ i.val < 24) ∨
    24 ≤ i.val) with h | h | h | h <;>
    simp (disch := omega) [h, decide_eq_true, decide_eq_false]

@[simp] theorem byteOf_xor (a b : Word) (j : Nat) : byteOf (a ^^^ b) j = byteOf a j ^^^ byteOf b j := by
  ext i; simp [byteOf]

@[simp] theorem byteOf_not (a : Word) {j : Nat} (hj : j < 4) : byteOf (~~~a) j = ~~~(byteOf a j) := by
  ext i; simp (disch := omega) [byteOf, decide_eq_true, i.isLt]

theorem load32Be_not (b0 b1 b2 b3 : Byte) :
    load32Be (~~~b0) (~~~b1) (~~~b2) (~~~b3) = ~~~load32Be b0 b1 b2 b3 := by
  rw [← load32Be_byteOf (~~~load32Be b0 b1 b2 b3)]
  obtain ⟨h0, h1, h2, h3⟩ := byteOf_load32Be b0 b1 b2 b3
  simp only [byteOf_not _ (by omega : 3 < 4), byteOf_not _ (by omega : 2 < 4),
    byteOf_not _ (by omega : 1 < 4), byteOf_not _ (by omega : 0 < 4), h0, h1, h2, h3]

theorem load32Be_xor (a0 a1 a2 a3 b0 b1 b2 b3 : Byte) :
    load32Be (a0 ^^^ b0) (a1 ^^^ b1) (a2 ^^^ b2) (a3 ^^^ b3) =
      load32Be a0 a1 a2 a3 ^^^ load32Be b0 b1 b2 b3 := by
  rw [← load32Be_byteOf (load32Be a0 a1 a2 a3 ^^^ load32Be b0 b1 b2 b3)]
  obtain ⟨ha0, ha1, ha2, ha3⟩ := byteOf_load32Be a0 a1 a2 a3
  obtain ⟨hb0, hb1, hb2, hb3⟩ := byteOf_load32Be b0 b1 b2 b3
  simp only [byteOf_xor, ha0, ha1, ha2, ha3, hb0, hb1, hb2, hb3]

/-- A slice of an XOR is the XOR of the slices. -/
@[simp] theorem extractLsb'_xor {w : Nat} (x y : BitVec w) (s n : Nat) :
    (x ^^^ y).extractLsb' s n = x.extractLsb' s n ^^^ y.extractLsb' s n := by
  ext i; simp

@[simp] theorem extractLsb'_append_hi {m n : Nat} (a : BitVec m) (b : BitVec n) :
    (a ++ b).extractLsb' n m = a := by
  ext i; simp [BitVec.getLsbD_append, i.isLt]

@[simp] theorem extractLsb'_append_lo {m n : Nat} (a : BitVec m) (b : BitVec n) :
    (a ++ b).extractLsb' 0 n = b := by
  ext i; simp [BitVec.getLsbD_append, i.isLt]

/-- A value is the concatenation of its two slices. -/
theorem append_extractLsb' {m n : Nat} (x : BitVec (m + n)) :
    x.extractLsb' n m ++ x.extractLsb' 0 n = x := by
  ext i
  simp only [BitVec.getLsbD_append, BitVec.getLsbD_extractLsb']
  by_cases h : i.val < n <;> simp (disch := omega) [h, i.isLt, decide_eq_true]

/-- Bit `j` of two words side by side, read as 64 bits. -/
theorem getLsbD_append_words (a b : Word) (j : Nat) :
    (a ++ b : BitVec 64).getLsbD j = if j < 32 then b.getLsbD j else a.getLsbD (j - 32) := by
  rw [BitVec.getLsbD_append]; cases h : decide (j < 32) <;> simp_all

/-- Bit `j` of two 64-bit halves side by side, read as 128 bits. -/
theorem getLsbD_append_halves (x y : BitVec 64) (j : Nat) :
    (x ++ y : BitVec 128).getLsbD j = if j < 64 then y.getLsbD j else x.getLsbD (j - 64) := by
  rw [BitVec.getLsbD_append]; cases h : decide (j < 64) <;> simp_all

/-! ## 3. Host byte order -/

/-- The byte order of the host: where the least significant byte of a `uint32_t` sits. -/
inductive HostOrder where
  | little
  | big
  deriving DecidableEq, Repr

namespace HostOrder

/-- The value of a `uint32_t` whose bytes in memory, at increasing addresses, are `b 0 … b 3`. -/
def load : HostOrder → (Fin 4 → Byte) → Word
  | .little, b => load32Be (b 3) (b 2) (b 1) (b 0)
  | .big, b => load32Be (b 0) (b 1) (b 2) (b 3)

/-- The four bytes, at increasing addresses, that a `uint32_t` of value `w` occupies. -/
def store : HostOrder → Word → Fin 4 → Byte
  | .little, w, j => byteOf w j
  | .big, w, j => byteOf w (3 - j)

theorem store_load (e : HostOrder) (b : Fin 4 → Byte) : e.store (e.load b) = b := by
  funext j
  obtain ⟨h3, h2, h1, h0⟩ := byteOf_load32Be (b 3) (b 2) (b 1) (b 0)
  obtain ⟨g0, g1, g2, g3⟩ := byteOf_load32Be (b 0) (b 1) (b 2) (b 3)
  cases e <;> fin_cases j <;> simp [store, load, h0, h1, h2, h3, g0, g1, g2, g3]

theorem load_store (e : HostOrder) (w : Word) : e.load (e.store w) = w := by
  cases e <;> exact load32Be_byteOf w

@[simp] theorem store_xor (e : HostOrder) (a b : Word) (j : Fin 4) :
    e.store (a ^^^ b) j = e.store a j ^^^ e.store b j := by
  cases e <;> simp [store]

theorem store_not (e : HostOrder) (a : Word) (j : Fin 4) : e.store (~~~a) j = ~~~(e.store a j) := by
  cases e <;> simp only [store] <;> exact byteOf_not a (by omega)

end HostOrder

/-- Modelled from the spec (§4.4): `betoh32(w)`, the big-endian reading of the bytes `w` occupies
    in memory on a host of byte order `e`. -/
def betoh32 (e : HostOrder) (w : Word) : Word := HostOrder.big.load (e.store w)

/-- Modelled from the spec (§4.4): `STORE32BE(w, p)`, the bytes `p[0..3]` it writes. -/
def store32Be (w : Word) : Fin 4 → Byte := HostOrder.big.store w

theorem betoh32_load (e : HostOrder) (b : Fin 4 → Byte) :
    betoh32 e (e.load b) = load32Be (b 0) (b 1) (b 2) (b 3) := by
  rw [betoh32, HostOrder.store_load]; rfl

theorem betoh32_not (e : HostOrder) (w : Word) : betoh32 e (~~~w) = ~~~(betoh32 e w) := by
  simp only [betoh32, HostOrder.load, HostOrder.store_not, load32Be_not]

/-- Modelled from the spec (§4.4): `ROL32(a, n)`, rotation left on 32 bits, `n ∈ [1, 31]`. -/
def rol32 (a : Word) (n : Nat) : Word := (a <<< n) ||| (a >>> (32 - n))

/-- Modelled from the spec (§4.4): `ROR32(a, n)`, rotation right on 32 bits, `n ∈ [1, 31]`. -/
def ror32 (a : Word) (n : Nat) : Word := (a >>> n) ||| (a <<< (32 - n))

theorem rol32_eq_rotateLeft (a : Word) {n : Nat} (h : n < 32) : rol32 a n = a.rotateLeft n := by
  ext i
  simp only [rol32, BitVec.getLsbD_or, BitVec.getLsbD_shiftLeft, BitVec.getLsbD_ushiftRight,
    BitVec.getLsbD_rotateLeft, Nat.mod_eq_of_lt h]
  by_cases hi : i.val < n <;> simp (disch := omega) [hi, i.isLt, decide_eq_true, decide_eq_false]

theorem ror32_eq_rotateRight (a : Word) {n : Nat} (h : n < 32) :
    ror32 a n = a.rotateRight n := by
  ext i
  simp only [ror32, BitVec.getLsbD_or, BitVec.getLsbD_shiftLeft, BitVec.getLsbD_ushiftRight,
    BitVec.getLsbD_rotateRight, Nat.mod_eq_of_lt h]
  by_cases hi : i.val < 32 - n <;>
    simp (disch := omega) [hi, i.isLt, decide_eq_true, decide_eq_false]

/-! ## 4. Constant tables -/

/-- `t[x]`: the entry of a `static const` table at a byte index. -/
def lookup (t : List Byte) (x : Byte) : Byte := t.getD x.toNat 0

/-- Every entry `t[j]` satisfies `p (i + j) t[j]`: one pass over the table. -/
def allIdx (p : Nat → Byte → Bool) : List Byte → Nat → Bool
  | [], _ => true
  | v :: t, i => p i v && allIdx p t (i + 1)

theorem allIdx_getD {p : Nat → Byte → Bool} :
    ∀ {t : List Byte} {i : Nat}, allIdx p t i = true → ∀ j < t.length, p (i + j) (t.getD j 0) = true
  | [], _, _, j, hj => absurd hj (Nat.not_lt_zero j)
  | v :: t, i, h, j, hj => by
    simp only [allIdx, Bool.and_eq_true] at h
    cases j with
    | zero => simpa using h.1
    | succ j =>
      have := allIdx_getD h.2 j (by simpa using hj)
      rwa [show i + 1 + j = i + (j + 1) by omega] at this

/-- **A one-pass check of a 256-entry table gives its entry at every byte.** -/
theorem lookup_of_allIdx {p : Nat → Byte → Bool} {t : List Byte} (hlen : t.length = 256)
    (h : allIdx p t 0 = true) (x : Byte) : p x.toNat (lookup t x) = true := by
  simpa [lookup] using allIdx_getD h x.toNat (by rw [hlen]; exact x.isLt)

/-- **A one-pass check of two tables side by side relates their entries at every byte.** -/
theorem lookup_of_zip_all {p : Byte → Byte → Bool} {t u : List Byte} (ht : t.length = 256)
    (hu : u.length = 256) (h : (t.zip u).all (fun q => p q.1 q.2) = true) (x : Byte) :
    p (lookup t x) (lookup u x) = true := by
  have hx : x.toNat < 256 := x.isLt
  have hmem : (t.get ⟨x.toNat, by omega⟩, u.get ⟨x.toNat, by omega⟩) ∈ t.zip u := by
    have hz : x.toNat < (t.zip u).length := by simp [ht, hu, hx]
    have := List.getElem_mem (l := t.zip u) (n := x.toNat) hz
    rwa [List.getElem_zip] at this
  have := List.all_eq_true.1 h _ hmem
  simpa [lookup, List.getD_eq_getElem?_getD, ht, hu, hx] using this

/-! ## 5. Additive maps -/

/-- A map commuting with XOR: a GF(2)-linear map of bit vectors. -/
def Additive {m n : Nat} (f : BitVec m → BitVec n) : Prop := ∀ a b, f (a ^^^ b) = f a ^^^ f b

theorem Additive.map_zero {m n : Nat} {f : BitVec m → BitVec n} (hf : Additive f) :
    f 0#m = 0#n := by
  simpa using hf 0 0

/-- The low `k` bits of `a`, as a XOR of single-bit vectors. -/
def bitSum {m : Nat} (a : BitVec m) : Nat → BitVec m
  | 0 => 0
  | k + 1 => bitSum a k ^^^ (if a.getLsbD k then BitVec.twoPow m k else 0)

theorem getLsbD_bitSum {m : Nat} (a : BitVec m) (k i : Nat) :
    (bitSum a k).getLsbD i = (decide (i < k) && a.getLsbD i) := by
  induction k with
  | zero => simp [bitSum]
  | succ k ih =>
    rw [bitSum, BitVec.getLsbD_xor, ih]
    rcases Nat.lt_trichotomy i k with hik | rfl | hik
    · split <;> simp [BitVec.getLsbD_twoPow, hik, Nat.ne_of_gt hik, show i < k + 1 by omega]
    · split
      · rename_i hb; simp [BitVec.getLsbD_twoPow, hb, BitVec.lt_of_getLsbD hb]
      · simp_all
    · split <;> simp [BitVec.getLsbD_twoPow, Nat.ne_of_lt hik, show ¬ i < k by omega,
        show ¬ i < k + 1 by omega]

theorem bitSum_self {m : Nat} (a : BitVec m) : bitSum a m = a := by
  ext i
  simp [getLsbD_bitSum, i.isLt]

/-- **Additive maps agreeing on the single-bit vectors agree everywhere.** -/
theorem additive_eq_of_basis {m n : Nat} {f g : BitVec m → BitVec n} (hf : Additive f)
    (hg : Additive g) (h : ∀ i < m, f (BitVec.twoPow m i) = g (BitVec.twoPow m i))
    (a : BitVec m) : f a = g a := by
  suffices hk : ∀ k ≤ m, f (bitSum a k) = g (bitSum a k) by
    simpa [bitSum_self] using hk m le_rfl
  intro k hk
  induction k with
  | zero => simp [bitSum, hf.map_zero, hg.map_zero]
  | succ k ih =>
    rw [bitSum, hf, hg, ih (by omega)]
    split
    · rw [h k (by omega)]
    · simp only [BitVec.ofNat_eq_ofNat, hf.map_zero, hg.map_zero]

end CycloneCrypto
