import CycloneCrypto.Aes.KeyExpansion
import CycloneCrypto.Aes.MixColumns

/-!
# `aes.c` computes AES as FIPS 197 defines it

The code's state is the byte array `b`, with `b[4c + r]` in row `r` and column `c`; FIPS 197's is
the array `s[r, c]`. `toFips` reads one as the other, and each transformation of the code is the
transformation of the standard under it (section 1). By induction the two round loops are the loops
of `Cipher()` and `InvCipher()` (section 2), so on every host and under every context the block
functions are the standard's over the bytes of the schedule's words
(`aesEncryptBlock_eq_cipher`). On a little-endian host those bytes are `KeyExpansion`'s words
(`store_aesInit_little`), which gives **`aes_fips197`**; on a big-endian host they are
`keyExpansionBig`'s, which gives **`aes_big_endian`**: the rounds of AES under another key
schedule.
-/

namespace CycloneCrypto.Aes

open Fips197

/-- The code's state read as FIPS 197's: row `r`, column `c` is byte `b[4c + r]`. -/
def toFips (s : AesState) : Fips197.State := fun r c => s (cell c r)

theorem ofBlock_eq_toFips (B : Block) : ofBlock B = toFips B := by
  funext r c
  simp only [ofBlock, toFips, cell, Nat.add_comm]

theorem toBlock_toFips (s : AesState) : toBlock (toFips s) = s := by
  funext k
  simp only [toBlock, toFips, cell]
  congr 1; ext; simp only; omega

/-! ## 1. One transformation at a time -/

theorem toFips_subBytes (s : AesState) : toFips (subBytes s) = Fips197.subBytes (toFips s) :=
  funext fun _ => funext fun _ => lookup_sbox _

theorem toFips_invSubBytes (s : AesState) : toFips (invSubBytes s) = Fips197.invSubBytes (toFips s) :=
  funext fun _ => funext fun _ => lookup_isbox _

theorem toFips_shiftRows (s : AesState) : toFips (shiftRows s) = Fips197.shiftRows (toFips s) :=
  funext fun r => funext fun c => shiftRows_cell s c r

theorem toFips_invShiftRows (s : AesState) :
    toFips (invShiftRows s) = Fips197.invShiftRows (toFips s) :=
  funext fun r => funext fun c => invShiftRows_cell s c r

theorem toFips_mixColumns (s : AesState) : toFips (mixColumns s) = Fips197.mixColumns (toFips s) :=
  funext fun r => funext fun c => by rw [toFips, mixColumns_cell, mixColumn_eq_wordMul]; rfl

theorem toFips_invMixColumns (s : AesState) :
    toFips (invMixColumns s) = Fips197.invMixColumns (toFips s) :=
  funext fun r => funext fun c => by rw [toFips, invMixColumns_cell, invMixColumn_eq_wordMul]; rfl

/-- The code's round key `k[0..3]` is the FIPS 197 round key of the bytes the words occupy. -/
theorem toFips_addRoundKey (e : HostOrder) (s : AesState) (k : Nat → Word) :
    toFips (addRoundKey e s k) = Fips197.addRoundKey (toFips s) (fun c => e.store (k c)) :=
  funext fun r => funext fun c => addRoundKey_cell e s k c r

/-! ## 2. The loops and the block functions -/

section
variable (e : HostOrder) (w : Nat → Word)

theorem toFips_encryptRounds (n : Nat) (s : AesState) :
    toFips (encryptRounds e w n s) = cipherRounds (fun i => e.store (w i)) n (toFips s) := by
  induction n with
  | zero => rfl
  | succ n ih =>
    simp only [encryptRounds, cipherRounds, toFips_addRoundKey, toFips_mixColumns, toFips_shiftRows,
      toFips_subBytes, ih]
    rfl

theorem toFips_decryptRounds (n : Nat) (s : AesState) :
    toFips (decryptRounds e w n s) = invCipherRounds (fun i => e.store (w i)) n (toFips s) := by
  induction n generalizing s with
  | zero => rfl
  | succ n ih =>
    simp only [decryptRounds, invCipherRounds, ih, toFips_invMixColumns, toFips_addRoundKey,
      toFips_invSubBytes, toFips_invShiftRows]
    rfl

end

/-- **On every host and under every context, `aesEncryptBlock` is `Cipher()` over the bytes of
    the schedule's words.** -/
theorem aesEncryptBlock_eq_cipher (e : HostOrder) (ctx : AesContext) (B : Block) :
    aesEncryptBlock e ctx B = cipher ctx.nr (fun i => e.store (ctx.w i)) B := by
  rw [← toBlock_toFips (aesEncryptBlock e ctx B)]
  simp only [aesEncryptBlock, cipher, toFips_addRoundKey, toFips_shiftRows, toFips_subBytes,
    toFips_encryptRounds, ofBlock_eq_toFips, roundKey_eq, Nat.mul_zero, Nat.zero_add]

/-- **On every host and under every context, `aesDecryptBlock` is `InvCipher()` over the bytes of
    the schedule's words.** -/
theorem aesDecryptBlock_eq_invCipher (e : HostOrder) (ctx : AesContext) (B : Block) :
    aesDecryptBlock e ctx B = invCipher ctx.nr (fun i => e.store (ctx.w i)) B := by
  rw [← toBlock_toFips (aesDecryptBlock e ctx B)]
  simp only [aesDecryptBlock, invCipher, toFips_addRoundKey, toFips_invSubBytes,
    toFips_invShiftRows, toFips_decryptRounds, ofBlock_eq_toFips, roundKey_eq, Nat.mul_zero,
    Nat.zero_add]

/-! ## 3. After `aesInit` -/

theorem aesInit_nr (e : HostOrder) (ctx : AesContext) {K : List Byte} (hK : KeyLengthOk K) :
    (aesInit e ctx K).2.nr = rounds (K.length / 4) := by
  rw [aesInit_of_ok e ctx hK]; rfl

/-- After `aesInit` on either host, the block functions are `Cipher()` and `InvCipher()` over the
    FIPS 197 words `W` that the schedule holds in memory. -/
theorem aesInit_blocks (e : HostOrder) (ctx : AesContext) {K : List Byte} (hK : KeyLengthOk K)
    {W : Nat → ByteWord} (hw : ∀ i < 4 * (K.length / 4 + 7), e.store ((aesInit e ctx K).2.w i) = W i) :
    (∀ P, aesEncryptBlock e (aesInit e ctx K).2 P = cipher (rounds (K.length / 4)) W P) ∧
    (∀ C, aesDecryptBlock e (aesInit e ctx K).2 C = invCipher (rounds (K.length / 4)) W C) := by
  have hw' : ∀ i < 4 * (rounds (K.length / 4) + 1), e.store ((aesInit e ctx K).2.w i) = W i :=
    fun i hi => hw i (by simpa only [rounds] using hi)
  exact ⟨fun P => by rw [aesEncryptBlock_eq_cipher, aesInit_nr e ctx hK, cipher_congr hw'],
    fun C => by rw [aesDecryptBlock_eq_invCipher, aesInit_nr e ctx hK, invCipher_congr hw']⟩

/-- **On a little-endian host, `aesInit` accepts every 128-, 192- and 256-bit key, and the block
    functions of the context it builds are AES encryption and decryption of FIPS 197.** -/
theorem aes_fips197 (ctx : AesContext) (K : List Byte) (hK : KeyLengthOk K) :
    (aesInit .little ctx K).1 = .noError ∧
    (∀ P, aesEncryptBlock .little (aesInit .little ctx K).2 P = Fips197.encrypt K P) ∧
    (∀ P, aesDecryptBlock .little (aesInit .little ctx K).2 P = Fips197.decrypt K P) :=
  ⟨by rw [aesInit_of_ok _ _ hK], aesInit_blocks .little ctx hK (store_aesInit_little ctx hK)⟩

/-- Re-keying: on every host, after `aesInit` the block functions depend on the key alone, since
    `aesInit` writes every word `w[0 .. 4 (nr + 1))` the block functions read. -/
theorem aesEncryptBlock_rekey (e : HostOrder) (c₁ c₂ : AesContext) {K : List Byte} (hK : KeyLengthOk K)
    (B : Block) : aesEncryptBlock e (aesInit e c₁ K).2 B = aesEncryptBlock e (aesInit e c₂ K).2 B := by
  rw [aesEncryptBlock_eq_cipher, aesEncryptBlock_eq_cipher, aesInit_nr e c₁ hK, aesInit_nr e c₂ hK,
    cipher_congr (fun i hi => congrArg e.store (aesInit_w_agree e c₁ c₂ hK i (by simpa only [rounds] using hi)))]

theorem aesDecryptBlock_rekey (e : HostOrder) (c₁ c₂ : AesContext) {K : List Byte} (hK : KeyLengthOk K)
    (B : Block) : aesDecryptBlock e (aesInit e c₁ K).2 B = aesDecryptBlock e (aesInit e c₂ K).2 B := by
  rw [aesDecryptBlock_eq_invCipher, aesDecryptBlock_eq_invCipher, aesInit_nr e c₁ hK, aesInit_nr e c₂ hK,
    invCipher_congr (fun i hi => congrArg e.store (aesInit_w_agree e c₁ c₂ hK i (by simpa only [rounds] using hi)))]

theorem aes_fips197_zeroKey :
    KeyLengthOk (List.replicate 16 0) ∧
      (aesInit .little ⟨0, fun _ => 0⟩ (List.replicate 16 0)).1 = .noError :=
  ⟨by decide, (aes_fips197 ⟨0, fun _ => 0⟩ (List.replicate 16 0) (by decide)).1⟩

/-! ## 4. After `aesInit` on a big-endian host -/

/-- **What `aes.c` computes on a big-endian host**: for every 128-, 192- and 256-bit key,
    `aesInit` succeeds and the block functions are `Cipher()` and `InvCipher()` of FIPS 197 over
    the schedule `keyExpansionBig`, in which `RotWord()` turns the other way and `Rcon[j]` sits in
    the last byte of its word. -/
theorem aes_big_endian (ctx : AesContext) (K : List Byte) (hK : KeyLengthOk K) :
    (aesInit .big ctx K).1 = .noError ∧
    (∀ P, aesEncryptBlock .big (aesInit .big ctx K).2 P =
      cipher (rounds (K.length / 4)) (keyExpansionBig K (K.length / 4) (rounds (K.length / 4))) P) ∧
    (∀ C, aesDecryptBlock .big (aesInit .big ctx K).2 C =
      invCipher (rounds (K.length / 4)) (keyExpansionBig K (K.length / 4) (rounds (K.length / 4))) C) :=
  ⟨by rw [aesInit_of_ok _ _ hK], aesInit_blocks .big ctx hK (store_aesInit_big ctx hK)⟩

theorem aes_big_endian_zeroKey :
    KeyLengthOk (List.replicate 32 0) ∧
      (aesInit .big ⟨0, fun _ => 0⟩ (List.replicate 32 0)).1 = .noError :=
  ⟨by decide, (aes_big_endian ⟨0, fun _ => 0⟩ (List.replicate 32 0) (by decide)).1⟩

end CycloneCrypto.Aes
