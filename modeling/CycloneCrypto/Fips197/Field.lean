import CycloneCrypto.Bits

/-!
# GF(2⁸) as FIPS 197 defines it

The reference arithmetic of FIPS 197 §4, written from the standard, not from `aes.c`. A byte
`b₇ … b₀` is the polynomial `b₇ x⁷ + … + b₀` over GF(2) (§4.1); sums are XOR, products are taken
modulo `m(x) = x⁸ + x⁴ + x³ + x + 1` (§4.2). The products run on the coefficients read as a
number (`xtimeNat`, `polyMul`, `polyInv`), and `xtime`, `gmul`, `ginv` are the byte functions.

* `xtime` -- multiplication by `x` (§4.2.1), `gmul` -- the product `•` (§4.2);
* `ginv` -- the multiplicative inverse, `b⁻¹ = b²⁵⁴`, with `{00}` mapped to itself (§5.1.1);
* `affine`, `invAffine` -- the affine transformation of the S-box (5.1) and its inverse (§5.3.2);
* `subByte = affine ∘ ginv` -- the S-box; `invSubByte = ginv ∘ invAffine` -- the inverse S-box;
* `wordMul` -- the product of two four-term polynomials modulo `x⁴ + 1` (§4.3), with the
  polynomials `mixPoly` and `invMixPoly` of `MixColumns` and `InvMixColumns` (§5.1.3, §5.3.3);
* `xtime_additive` -- `xtime` commutes with XOR, the fact that makes `MixColumns` linear.
-/

namespace CycloneCrypto.Fips197

/-- Multiplication by `x` on a polynomial of degree below 8: a shift, then a reduction by
    `m(x) = 0x11B` when the degree reaches 8. -/
def xtimeNat (p : Nat) : Nat := if p < 0x80 then 2 * p else 2 * p ^^^ 0x11B

/-- `a • b` with `n` coefficients of `a` left: `b` for each coefficient `aᵢ = 1`, times `xⁱ`. -/
def polyMul : Nat → Nat → Nat → Nat
  | 0, _, _ => 0
  | n + 1, a, b => (if a % 2 = 1 then b else 0) ^^^ polyMul n (a / 2) (xtimeNat b)

/-- The product `acc • sq • sq² • …` over `k` squarings. -/
def polyPowAux : Nat → Nat → Nat → Nat
  | 0, acc, _ => acc
  | k + 1, acc, sq => polyPowAux k (polyMul 8 acc sq) (polyMul 8 sq sq)

/-- `b²⁵⁴ = b² • b⁴ • … • b¹²⁸`, the inverse of `b ≠ 0`, and `0` for `b = 0`. -/
def polyInv (b : Nat) : Nat := polyPowAux 7 1 (polyMul 8 b b)

/-- `xtime(b)`: `b • {02}` (FIPS 197 §4.2.1). -/
def xtime (b : Byte) : Byte := BitVec.ofNat 8 (xtimeNat b.toNat)

/-- `a • b` in GF(2⁸) (FIPS 197 §4.2). -/
def gmul (a b : Byte) : Byte := BitVec.ofNat 8 (polyMul 8 a.toNat b.toNat)

/-- The multiplicative inverse in GF(2⁸), `{00}` mapped to itself (FIPS 197 §5.1.1). -/
def ginv (b : Byte) : Byte := BitVec.ofNat 8 (polyInv b.toNat)

/-- The affine transformation (FIPS 197 (5.1)): bit `i` is `bᵢ ⊕ bᵢ₊₄ ⊕ bᵢ₊₅ ⊕ bᵢ₊₆ ⊕ bᵢ₊₇ ⊕ cᵢ`,
    indices modulo 8, `c = {63}`. -/
def affine (b : Byte) : Byte :=
  b ^^^ b.rotateRight 4 ^^^ b.rotateRight 5 ^^^ b.rotateRight 6 ^^^ b.rotateRight 7 ^^^ 0x63

/-- The inverse affine transformation (FIPS 197 §5.3.2): bit `i` is `bᵢ₊₂ ⊕ bᵢ₊₅ ⊕ bᵢ₊₇ ⊕ dᵢ`,
    `d = {05}`. -/
def invAffine (b : Byte) : Byte := b.rotateRight 2 ^^^ b.rotateRight 5 ^^^ b.rotateRight 7 ^^^ 0x05

/-- The S-box (FIPS 197 §5.1.1): the inverse, then the affine transformation. -/
def subByte (b : Byte) : Byte := affine (ginv b)

/-- The inverse S-box (FIPS 197 §5.3.2): the inverse affine transformation, then the inverse. -/
def invSubByte (b : Byte) : Byte := ginv (invAffine b)

/-- `a(x) ⊗ b(x)` for polynomials `a₃x³ + … + a₀` with coefficients in GF(2⁸), modulo `x⁴ + 1`
    (FIPS 197 §4.3, (4.12)): `d_r = ⊕ₖ a_{(r - k) mod 4} • b_k`. -/
def wordMul (a b : Fin 4 → Byte) (r : Fin 4) : Byte :=
  gmul (a r) (b 0) ^^^ gmul (a (r - 1)) (b 1) ^^^ gmul (a (r - 2)) (b 2) ^^^ gmul (a (r - 3)) (b 3)

/-- `a(x) = {03}x³ + {01}x² + {01}x + {02}` (FIPS 197 (5.5)), coefficient `aᵢ` at `i`: the
    circulant matrix of `MixColumns` has first row `({02} {03} {01} {01})`. -/
def mixPoly : Fin 4 → Byte
  | 0 => 0x02 | 1 => 0x01 | 2 => 0x01 | 3 => 0x03

/-- `a⁻¹(x) = {0b}x³ + {0d}x² + {09}x + {0e}` (FIPS 197 (5.10)): first row
    `({0e} {0b} {0d} {09})`. -/
def invMixPoly : Fin 4 → Byte
  | 0 => 0x0e | 1 => 0x09 | 2 => 0x0d | 3 => 0x0b

/-- The four sums of (4.12), one per coefficient of the product. -/
theorem wordMul_apply (a b : Fin 4 → Byte) :
    wordMul a b 0 = gmul (a 0) (b 0) ^^^ gmul (a 3) (b 1) ^^^ gmul (a 2) (b 2) ^^^ gmul (a 1) (b 3) ∧
    wordMul a b 1 = gmul (a 1) (b 0) ^^^ gmul (a 0) (b 1) ^^^ gmul (a 3) (b 2) ^^^ gmul (a 2) (b 3) ∧
    wordMul a b 2 = gmul (a 2) (b 0) ^^^ gmul (a 1) (b 1) ^^^ gmul (a 0) (b 2) ^^^ gmul (a 3) (b 3) ∧
    wordMul a b 3 = gmul (a 3) (b 0) ^^^ gmul (a 2) (b 1) ^^^ gmul (a 1) (b 2) ^^^ gmul (a 0) (b 3) :=
  ⟨rfl, rfl, rfl, rfl⟩

/-- A property of every byte, from its 256 values. -/
theorem byte_forall {p : Byte → Prop} (h : ∀ n < 256, p (BitVec.ofNat 8 n)) (b : Byte) : p b := by
  have := h b.toNat b.isLt
  rwa [BitVec.ofNat_toNat, BitVec.setWidth_eq] at this

set_option maxRecDepth 4000 in
/-- `xtime` as a shift and a conditional XOR with `{1b}`. -/
theorem xtime_eq_shift (b : Byte) : xtime b = (b <<< 1) ^^^ (if b.getLsbD 7 then 0x1b else 0) :=
  byte_forall (p := fun b => xtime b = (b <<< 1) ^^^ (if b.getLsbD 7 then 0x1b else 0))
    (by decide) b

/-- **`xtime` commutes with XOR.** -/
theorem xtime_additive : Additive xtime := by
  intro a b
  simp only [xtime_eq_shift, BitVec.shiftLeft_xor_distrib, BitVec.getLsbD_xor]
  cases a.getLsbD 7 <;> cases b.getLsbD 7 <;> simp only [Bool.xor_false, Bool.xor_true,
    Bool.not_false, Bool.not_true, Bool.false_eq_true, ite_true, ite_false,
    BitVec.ofNat_eq_ofNat, BitVec.xor_zero]
  · ac_rfl
  · ac_rfl
  · rw [xor_xor_xor_comm, BitVec.xor_self, BitVec.xor_zero]

end CycloneCrypto.Fips197
