import CycloneCrypto.Aes.Transform
import CycloneCrypto.Fips197.Field

/-!
# `mixColumns` and `invMixColumns` are the column products of FIPS 197

`mixColumns` computes each new byte as `p ^ b_r ^ mul2[b_r ^ b_{r+1}]` with `p` the XOR of the
column, and `invMixColumns` adds `{04}`- and `{08}`-multiples built from `mul2` chains. Both are
the products of FIPS 197 by `a(x)` and `a⁻¹(x)`:

* `lookup_mul2` -- the table `mul2` is `xtime` on every byte;
* `ColumnAdditive`, `column_eq_of_basis` -- a column map that commutes with XOR is a GF(2)-linear
  map of 32 bits, fixed by its values on the 32 single-bit columns;
* `mixColumn_eq_wordMul`, `invMixColumn_eq_wordMul` -- the two column formulas are `wordMul` by
  `mixPoly` and `invMixPoly`;
* `invMixColumn_mixColumn`, `mixColumn_invMixColumn` -- the two undo each other, and so do
  `mixColumns` and `invMixColumns` on every state.
-/

namespace CycloneCrypto.Aes

open Fips197

/-! ## 1. The table `mul2` -/

set_option maxRecDepth 4000 in
theorem mul2_check : allIdx (fun i v => v == xtime (BitVec.ofNat 8 i)) mul2 0 = true := by decide

/-- **`mul2[b]` is `xtime(b)` for every byte.** -/
theorem lookup_mul2 (b : Byte) : lookup mul2 b = xtime b := by
  simpa using lookup_of_allIdx mul2_length mul2_check b

@[simp] theorem xtime_xor (a b : Byte) : xtime (a ^^^ b) = xtime a ^^^ xtime b := xtime_additive a b

set_option maxRecDepth 4000 in
/-- The products by the constants of `a(x)` and `a⁻¹(x)`, as sums of `xtime` powers. -/
theorem gmul_consts (x : Byte) :
    gmul 0x01 x = x ∧ gmul 0x02 x = xtime x ∧ gmul 0x03 x = xtime x ^^^ x ∧
    gmul 0x09 x = xtime (xtime (xtime x)) ^^^ x ∧
    gmul 0x0b x = xtime (xtime (xtime x)) ^^^ xtime x ^^^ x ∧
    gmul 0x0d x = xtime (xtime (xtime x)) ^^^ xtime (xtime x) ^^^ x ∧
    gmul 0x0e x = xtime (xtime (xtime x)) ^^^ xtime (xtime x) ^^^ xtime x :=
  byte_forall (p := fun x => gmul 0x01 x = x ∧ gmul 0x02 x = xtime x ∧ gmul 0x03 x = xtime x ^^^ x ∧
    gmul 0x09 x = xtime (xtime (xtime x)) ^^^ x ∧
    gmul 0x0b x = xtime (xtime (xtime x)) ^^^ xtime x ^^^ x ∧
    gmul 0x0d x = xtime (xtime (xtime x)) ^^^ xtime (xtime x) ^^^ x ∧
    gmul 0x0e x = xtime (xtime (xtime x)) ^^^ xtime (xtime x) ^^^ xtime x) (by decide) x

/-! ## 2. Columns as 32-bit vectors -/

/-- A column as 32 bits, `b 0` most significant. -/
def packColumn (b : Fin 4 → Byte) : BitVec 32 := HostOrder.big.load b

/-- The column of 32 bits. -/
def unpackColumn (w : BitVec 32) : Fin 4 → Byte := HostOrder.big.store w

/-- A map of columns that commutes with the bytewise XOR. -/
def ColumnAdditive (f : (Fin 4 → Byte) → Fin 4 → Byte) : Prop :=
  ∀ a b, f (fun r => a r ^^^ b r) = fun r => f a r ^^^ f b r

theorem ColumnAdditive.additive {f : (Fin 4 → Byte) → Fin 4 → Byte} (hf : ColumnAdditive f) :
    Additive fun w => packColumn (f (unpackColumn w)) := by
  intro a b
  have hx : unpackColumn (a ^^^ b) = fun r => unpackColumn a r ^^^ unpackColumn b r :=
    funext (HostOrder.store_xor .big a b)
  simp only [hx, hf (unpackColumn a) (unpackColumn b), packColumn, HostOrder.load, load32Be_xor]

/-- **Column maps that commute with XOR and agree on the 32 single-bit columns are equal.** -/
theorem column_eq_of_basis {f g : (Fin 4 → Byte) → Fin 4 → Byte} (hf : ColumnAdditive f)
    (hg : ColumnAdditive g)
    (h : ∀ i < 32, packColumn (f (unpackColumn (BitVec.twoPow 32 i))) =
      packColumn (g (unpackColumn (BitVec.twoPow 32 i)))) (b : Fin 4 → Byte) : f b = g b := by
  have e := congrArg unpackColumn (additive_eq_of_basis hf.additive hg.additive h (packColumn b))
  simpa only [unpackColumn, packColumn, HostOrder.store_load] using e

/-! ## 3. The four column maps commute with XOR -/

theorem mixColumn_additive : ColumnAdditive mixColumn := by
  intro a b; funext r
  simp only [mixColumn, lookup_mul2, xtime_xor]
  ac_rfl

theorem invMixColumn_additive : ColumnAdditive invMixColumn := by
  intro a b; funext r
  simp only [invMixColumn, lookup_mul2, xtime_xor]
  split <;> ac_rfl

theorem wordMul_mixPoly_additive : ColumnAdditive (wordMul mixPoly) := by
  intro a b; funext r
  fin_cases r <;> simp only [Fin.zero_eta, Fin.mk_one, Fin.reduceFinMk, wordMul_apply, mixPoly,
    gmul_consts, xtime_xor] <;> ac_rfl

theorem wordMul_invMixPoly_additive : ColumnAdditive (wordMul invMixPoly) := by
  intro a b; funext r
  fin_cases r <;> simp only [Fin.zero_eta, Fin.mk_one, Fin.reduceFinMk, wordMul_apply, invMixPoly,
    gmul_consts, xtime_xor] <;> ac_rfl

theorem id_additive : ColumnAdditive id := fun _ _ => rfl

theorem ColumnAdditive.comp {f g : (Fin 4 → Byte) → Fin 4 → Byte} (hf : ColumnAdditive f)
    (hg : ColumnAdditive g) : ColumnAdditive fun b => f (g b) := fun a b => by
  simp only [hg a b, hf (g a) (g b)]

/-! ## 4. The identities, on the single-bit columns -/

theorem mixColumn_eq_wordMul (b : Fin 4 → Byte) : mixColumn b = wordMul mixPoly b :=
  column_eq_of_basis mixColumn_additive wordMul_mixPoly_additive (by decide) b

theorem invMixColumn_eq_wordMul (b : Fin 4 → Byte) : invMixColumn b = wordMul invMixPoly b :=
  column_eq_of_basis invMixColumn_additive wordMul_invMixPoly_additive (by decide) b

theorem invMixColumn_mixColumn (b : Fin 4 → Byte) : invMixColumn (mixColumn b) = b :=
  column_eq_of_basis (invMixColumn_additive.comp mixColumn_additive) id_additive (by decide) b

theorem mixColumn_invMixColumn (b : Fin 4 → Byte) : mixColumn (invMixColumn b) = b :=
  column_eq_of_basis (mixColumn_additive.comp invMixColumn_additive) id_additive (by decide) b

/-! ## 5. On the state -/

theorem invMixColumns_mixColumns (s : AesState) : invMixColumns (mixColumns s) = s := by
  refine AesState.ext_cell fun c r => ?_
  simp only [invMixColumns_cell, mixColumns_cell, invMixColumn_mixColumn]

theorem mixColumns_invMixColumns (s : AesState) : mixColumns (invMixColumns s) = s := by
  refine AesState.ext_cell fun c r => ?_
  simp only [invMixColumns_cell, mixColumns_cell, mixColumn_invMixColumn]

/-- **`mul2` is `xtime`; `mixColumns` and `invMixColumns` multiply every column by `a(x)` and
    `a⁻¹(x)` modulo `x⁴ + 1`, that is by the circulant matrices with first rows
    `({02} {03} {01} {01})` and `({0e} {0b} {0d} {09})`; and they undo each other on every
    state.** -/
theorem mixColumns_spec :
    (∀ b, lookup mul2 b = xtime b) ∧
    (∀ s c r, mixColumns s (cell c r) = wordMul mixPoly (fun k => s (cell c k)) r) ∧
    (∀ s c r, invMixColumns s (cell c r) = wordMul invMixPoly (fun k => s (cell c k)) r) ∧
    (∀ s, invMixColumns (mixColumns s) = s) ∧ (∀ s, mixColumns (invMixColumns s) = s) :=
  ⟨lookup_mul2, fun s c r => by rw [mixColumns_cell, mixColumn_eq_wordMul],
    fun s c r => by rw [invMixColumns_cell, invMixColumn_eq_wordMul], invMixColumns_mixColumns,
    mixColumns_invMixColumns⟩

end CycloneCrypto.Aes
