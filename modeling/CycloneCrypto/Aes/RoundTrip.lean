import CycloneCrypto.Aes.Cipher
import CycloneCrypto.Aes.MixColumns
import CycloneCrypto.Aes.SBox

/-!
# `aesDecryptBlock` undoes `aesEncryptBlock`

Under every context -- every round count and every schedule, whatever `aesInit` left in it -- the
two block functions are inverse permutations of the 16-byte blocks. The proof follows the code's
loops:

* one inverse law per transformation (`invSubBytes_subBytes`, `invShiftRows_shiftRows`,
  `addRoundKey_addRoundKey`, and `invMixColumns_mixColumns` of `MixColumns`), both ways round;
* the run lemmas `decryptRounds_encryptRounds` and `encryptRounds_decryptRounds`: the descending
  loop of `aesDecryptBlock`, entered at `i = n`, peels off the passes of the ascending loop of
  `aesEncryptBlock` from the last, each with the round key of the same index;
* `aesDecryptBlock_aesEncryptBlock`, `aesEncryptBlock_aesDecryptBlock`, and **`aesBlock_roundTrip`**.
-/

namespace CycloneCrypto.Aes

/-! ## 1. One transformation at a time -/

@[simp] theorem invSubBytes_subBytes (s : AesState) : invSubBytes (subBytes s) = s :=
  funext fun k => isbox_sbox (s k)

@[simp] theorem subBytes_invSubBytes (s : AesState) : subBytes (invSubBytes s) = s :=
  funext fun k => sbox_isbox (s k)

@[simp] theorem invShiftRows_shiftRows (s : AesState) : invShiftRows (shiftRows s) = s :=
  AesState.ext_cell fun c r => by rw [invShiftRows_cell, shiftRows_cell, sub_add_cancel]

@[simp] theorem shiftRows_invShiftRows (s : AesState) : shiftRows (invShiftRows s) = s :=
  AesState.ext_cell fun c r => by rw [shiftRows_cell, invShiftRows_cell, add_sub_cancel_right]

/-- Adding a round key twice adds nothing. -/
@[simp] theorem addRoundKey_addRoundKey (e : HostOrder) (s : AesState) (k : Nat → Word) :
    addRoundKey e (addRoundKey e s k) k = s :=
  AesState.ext_cell fun c r => by simp only [addRoundKey_cell, xor_cancel_right]

/-! ## 2. The two loops -/

section
variable (e : HostOrder) (w : Nat → Word)

/-- The descending loop undoes the ascending one, pass `n` first. -/
theorem decryptRounds_encryptRounds (n : Nat) (t : AesState) :
    decryptRounds e w n (shiftRows (subBytes (encryptRounds e w n t))) = shiftRows (subBytes t) := by
  induction n with
  | zero => rfl
  | succ n ih =>
    simp only [encryptRounds, decryptRounds, invShiftRows_shiftRows, invSubBytes_subBytes,
      addRoundKey_addRoundKey, invMixColumns_mixColumns, ih]

/-- The ascending loop undoes the descending one. -/
theorem encryptRounds_decryptRounds (n : Nat) (u : AesState) :
    encryptRounds e w n (invSubBytes (invShiftRows (decryptRounds e w n u))) =
      invSubBytes (invShiftRows u) := by
  induction n generalizing u with
  | zero => rfl
  | succ n ih =>
    simp only [decryptRounds, encryptRounds, ih, subBytes_invSubBytes, shiftRows_invShiftRows,
      mixColumns_invMixColumns, addRoundKey_addRoundKey]

end

/-! ## 3. The block functions -/

theorem aesDecryptBlock_aesEncryptBlock (e : HostOrder) (ctx : AesContext) (B : Block) :
    aesDecryptBlock e ctx (aesEncryptBlock e ctx B) = B := by
  simp only [aesDecryptBlock, aesEncryptBlock, addRoundKey_addRoundKey, decryptRounds_encryptRounds,
    invShiftRows_shiftRows, invSubBytes_subBytes]

theorem aesEncryptBlock_aesDecryptBlock (e : HostOrder) (ctx : AesContext) (B : Block) :
    aesEncryptBlock e ctx (aesDecryptBlock e ctx B) = B := by
  simp only [aesDecryptBlock, aesEncryptBlock, addRoundKey_addRoundKey, encryptRounds_decryptRounds,
    shiftRows_invShiftRows, subBytes_invSubBytes]

/-- **Under every context, decryption undoes encryption and encryption undoes decryption, so each
    is a permutation of the blocks.** -/
theorem aesBlock_roundTrip (e : HostOrder) (ctx : AesContext) :
    (∀ B, aesDecryptBlock e ctx (aesEncryptBlock e ctx B) = B) ∧
    (∀ B, aesEncryptBlock e ctx (aesDecryptBlock e ctx B) = B) ∧
    Function.Bijective (aesEncryptBlock e ctx) ∧ Function.Bijective (aesDecryptBlock e ctx) :=
  have hl : Function.LeftInverse (aesDecryptBlock e ctx) (aesEncryptBlock e ctx) :=
    aesDecryptBlock_aesEncryptBlock e ctx
  have hr : Function.RightInverse (aesDecryptBlock e ctx) (aesEncryptBlock e ctx) :=
    aesEncryptBlock_aesDecryptBlock e ctx
  ⟨hl, hr, ⟨hl.injective, hr.surjective⟩, ⟨hr.injective, hl.surjective⟩⟩

end CycloneCrypto.Aes
