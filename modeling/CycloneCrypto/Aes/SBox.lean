import CycloneCrypto.Aes.Tables
import CycloneCrypto.Fips197.Field
import Mathlib.Data.Fintype.Card

/-!
# The tables `sbox` and `isbox`

`aes.c` holds the S-box and its inverse as the constant tables `sbox` and `isbox`. This file
checks them against the algebraic definitions of FIPS 197 once, on all 256 bytes, so that later
files reason about `subByte` and `invSubByte` and never read a table again:

* `lookup_sbox` -- `sbox[b]` is the S-box of FIPS 197 §5.1.1 (the inverse, then the affine map);
* `lookup_isbox` -- `isbox[b]` is the inverse S-box of §5.3.2;
* `isbox_sbox`, `sbox_isbox` -- the two tables undo each other. The first is a check over the 256
  entries of `sbox`; the second follows from it, since a map of a finite set into itself with a
  left inverse is onto.
-/

namespace CycloneCrypto.Aes

open Fips197

section
set_option maxRecDepth 4000

theorem sbox_check : allIdx (fun i v => v == subByte (BitVec.ofNat 8 i)) sbox 0 = true := by decide

theorem isbox_check :
    allIdx (fun i v => v == invSubByte (BitVec.ofNat 8 i)) isbox 0 = true := by decide

theorem isbox_sbox_check :
    allIdx (fun i v => lookup isbox v == BitVec.ofNat 8 i) sbox 0 = true := by decide

end

/-- **`sbox[b]` is the S-box of FIPS 197 on every byte.** -/
theorem lookup_sbox (b : Byte) : lookup sbox b = subByte b := by
  simpa using lookup_of_allIdx sbox_length sbox_check b

/-- **`isbox[b]` is the inverse S-box of FIPS 197 on every byte.** -/
theorem lookup_isbox (b : Byte) : lookup isbox b = invSubByte b := by
  simpa using lookup_of_allIdx isbox_length isbox_check b

@[simp] theorem isbox_sbox (b : Byte) : lookup isbox (lookup sbox b) = b := by
  simpa using lookup_of_allIdx sbox_length isbox_sbox_check b

@[simp] theorem sbox_isbox (b : Byte) : lookup sbox (lookup isbox b) = b := by
  have : Finite Byte := Finite.of_injective BitVec.toFin fun _ _ => BitVec.eq_of_toFin_eq
  have hinj : Function.Injective (lookup sbox) := Function.LeftInverse.injective isbox_sbox
  exact Function.LeftInverse.rightInverse_of_surjective isbox_sbox
    (Finite.surjective_of_injective hinj) b

end CycloneCrypto.Aes
