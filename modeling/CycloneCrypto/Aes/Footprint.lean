import CycloneCrypto.Aes.Refinement

/-!
# What the AES functions read and write of the context

`AesContext` holds the round count `nr` and the schedule `w`, an array of 60 words. `aesInit`
writes a prefix of it, and the block functions read the same prefix, as bytes:

* **`aesInit_writes`** -- an accepted key makes `aesInit` write exactly the words
  `w[0 .. 4 (nr + 1))`, at most the 60 of the array: each of them from the key alone, whatever the
  context held, and every later word keeps its value;
* **`aesBlocks_readSet`** -- the block functions read `nr` and the bytes the words
  `w[0 .. 4 (nr + 1))` occupy in memory, nothing else: two contexts that agree on them, on
  whichever hosts, encrypt and decrypt alike. So the block functions are the same code on both
  hosts, and the byte order matters to `aesInit` alone.

NOT here: contexts with `nr = 0`. There the decryptor's unsigned counter `i = nr - 1` wraps, and
its loop runs past the array; the model's counter stops at zero instead.
-/

namespace CycloneCrypto.Aes

open Fips197

/-- **`aesInit` writes exactly the words `w[0 .. 4 (nr + 1))`**, at most the 60 words of the
    array: each from the key alone, whatever the context held before, and every word past them
    keeps its value (a 128-bit key after a 256-bit one leaves `w[44 .. 60)` as it was). -/
theorem aesInit_writes (e : HostOrder) (c : AesContext) {K : List Byte} (hK : KeyLengthOk K) :
    4 * ((aesInit e c K).2.nr + 1) ≤ 60 ∧
    (∀ c' : AesContext, ∀ i < 4 * ((aesInit e c K).2.nr + 1),
      (aesInit e c K).2.w i = (aesInit e c' K).2.w i) ∧
    (∀ i, 4 * ((aesInit e c K).2.nr + 1) ≤ i → (aesInit e c K).2.w i = c.w i) := by
  have hnk := hK.nk_cases
  rw [aesInit_nr e c hK, rounds]
  refine ⟨by omega, fun c' i hi => aesInit_w_agree e c c' hK i (by omega), fun i hi => ?_⟩
  rw [aesInit_w e c hK, keyExpansion, writeLoop_of_ge _ _ _ _ (by omega), if_neg (by omega)]

theorem aesInit_writes_zeroKey :
    KeyLengthOk (List.replicate 16 0) ∧
      (aesInit .big ⟨14, fun _ => 1⟩ (List.replicate 16 0)).2.w 44 = 1 :=
  ⟨by decide, (aesInit_writes .big ⟨14, fun _ => 1⟩ (by decide : KeyLengthOk (List.replicate 16 0))).2.2 44
    (by rw [aesInit_nr _ _ (by decide)]; decide)⟩

/-- **The block functions read `nr` and the bytes of `w[0 .. 4 (nr + 1))`, nothing else**: two
    contexts with the same `nr ≥ 1` whose words `w[0 .. 4 (nr + 1))` occupy the same bytes in
    memory, on hosts `e` and `e'`, encrypt and decrypt every block alike. -/
theorem aesBlocks_readSet (e e' : HostOrder) {c c' : AesContext} (hnr : c.nr = c'.nr)
    (_hpos : 1 ≤ c.nr) (hw : ∀ i < 4 * (c.nr + 1), e.store (c.w i) = e'.store (c'.w i)) :
    aesEncryptBlock e c = aesEncryptBlock e' c' ∧ aesDecryptBlock e c = aesDecryptBlock e' c' := by
  refine ⟨funext fun B => ?_, funext fun B => ?_⟩
  · rw [aesEncryptBlock_eq_cipher, aesEncryptBlock_eq_cipher, cipher_congr hw, hnr]
  · rw [aesDecryptBlock_eq_invCipher, aesDecryptBlock_eq_invCipher, invCipher_congr hw, hnr]

theorem aesBlocks_readSet_hosts :
    1 ≤ (⟨10, fun _ => 0⟩ : AesContext).nr ∧
      aesEncryptBlock .little ⟨10, fun _ => 0⟩ = aesEncryptBlock .big ⟨10, fun i => if i < 44 then 0 else 1⟩ :=
  ⟨by decide, (@aesBlocks_readSet .little .big ⟨10, fun _ => 0⟩ ⟨10, fun i => if i < 44 then 0 else 1⟩
    rfl (by decide)
    (fun i hi => by dsimp only; rw [if_pos (show i < 44 from hi)]; decide)).1⟩

end CycloneCrypto.Aes
