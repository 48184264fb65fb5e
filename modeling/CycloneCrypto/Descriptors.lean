import CycloneCrypto.Aes.Refinement
import CycloneCrypto.Aes.RoundTrip
import CycloneCrypto.Camellia.Refinement

/-!
# The descriptors `aesCipherAlgo` and `camelliaCipherAlgo`

The modes of operation reach a cipher through its `CipherAlgo`. What they rely on is
`CipherAlgo.IsBlockCipher`; both descriptors meet it, on both hosts:

* `aesCipherAlgo`, `camelliaCipherAlgo` -- the two descriptors as the sources declare them;
* **`blockOps_keyOnly`** -- after a successful init the four block functions depend on the key and
  the block alone, never on what the context held before;
* **`aesCipherAlgo_isBlockCipher`**, **`camelliaCipherAlgo_isBlockCipher`**.
-/

namespace CycloneCrypto

open Aes Camellia

/-- Modelled from the spec: `AES_BLOCK_SIZE`. -/
def aesBlockSize : Nat := 16

/-- Modelled from the spec: `CAMELLIA_BLOCK_SIZE`. -/
def camelliaBlockSize : Nat := 16

/-- `aesCipherAlgo` on a host of byte order `e`. -/
def aesCipherAlgo (e : HostOrder) : CipherAlgo AesContext :=
  ⟨"AES", .block, aesBlockSize, aesInit e, aesEncryptBlock e, aesDecryptBlock e⟩

/-- `camelliaCipherAlgo` on a host of byte order `e`. -/
def camelliaCipherAlgo (e : HostOrder) : CipherAlgo CamelliaContext :=
  ⟨"CAMELLIA", .block, camelliaBlockSize, camelliaInit e, camelliaEncryptBlock, camelliaDecryptBlock⟩

/-- **Re-keying is safe for both ciphers**: on every host, for every key of 16, 24 or 32 bytes and
    every block, the four block functions give the same result after an init from any two prior
    contents of the context. -/
theorem blockOps_keyOnly (e : HostOrder) (K : List Byte) (hK : KeyLengthOk K) (B : Block) :
    (∀ c₁ c₂ : AesContext,
      aesEncryptBlock e (aesInit e c₁ K).2 B = aesEncryptBlock e (aesInit e c₂ K).2 B ∧
      aesDecryptBlock e (aesInit e c₁ K).2 B = aesDecryptBlock e (aesInit e c₂ K).2 B) ∧
    (∀ c₁ c₂ : CamelliaContext,
      camelliaEncryptBlock (camelliaInit e c₁ K).2 B = camelliaEncryptBlock (camelliaInit e c₂ K).2 B ∧
      camelliaDecryptBlock (camelliaInit e c₁ K).2 B = camelliaDecryptBlock (camelliaInit e c₂ K).2 B) :=
  ⟨fun c₁ c₂ => ⟨aesEncryptBlock_rekey e c₁ c₂ hK B, aesDecryptBlock_rekey e c₁ c₂ hK B⟩,
    fun c₁ c₂ => ⟨camelliaEncryptBlock_rekey e c₁ c₂ hK B, camelliaDecryptBlock_rekey e c₁ c₂ hK B⟩⟩

theorem blockOps_keyOnly_zeroKey :
    KeyLengthOk (List.replicate 32 0) ∧
      aesEncryptBlock .big (aesInit .big ⟨0, fun _ => 0⟩ (List.replicate 32 0)).2 (fun _ => 0) =
        aesEncryptBlock .big (aesInit .big ⟨14, fun _ => 1⟩ (List.replicate 32 0)).2 (fun _ => 0) :=
  ⟨by decide, ((blockOps_keyOnly .big (List.replicate 32 0) (by decide) (fun _ => 0)).1 _ _).1⟩

/-- **`aesCipherAlgo` is a block cipher over the 128-, 192- and 256-bit keys**, on both hosts. -/
theorem aesCipherAlgo_isBlockCipher (e : HostOrder) : (aesCipherAlgo e).IsBlockCipher KeyLengthOk where
  init_ok c _ hK := by simp only [aesCipherAlgo, aesInit_of_ok e c hK]
  init_error c _ hK := aesInit_of_not_ok e c hK
  decrypt_encrypt c K B _ := aesDecryptBlock_aesEncryptBlock e (aesInit e c K).2 B
  encrypt_decrypt c K B _ := aesEncryptBlock_aesDecryptBlock e (aesInit e c K).2 B
  encrypt_rekey c₁ c₂ _ B hK := aesEncryptBlock_rekey e c₁ c₂ hK B
  decrypt_rekey c₁ c₂ _ B hK := aesDecryptBlock_rekey e c₁ c₂ hK B

/-- **`camelliaCipherAlgo` is a block cipher over the 128-, 192- and 256-bit keys**, on both
    hosts. -/
theorem camelliaCipherAlgo_isBlockCipher (e : HostOrder) :
    (camelliaCipherAlgo e).IsBlockCipher KeyLengthOk where
  init_ok c _ hK := by simp only [camelliaCipherAlgo, camelliaInit_of_ok e c hK]
  init_error c _ hK := camelliaInit_of_not_ok e c hK
  decrypt_encrypt c _ B hK := camelliaDecryptBlock_camelliaEncryptBlock _ (camelliaInit_nr e c hK) B
  encrypt_decrypt c _ B hK := camelliaEncryptBlock_camelliaDecryptBlock _ (camelliaInit_nr e c hK) B
  encrypt_rekey c₁ c₂ _ B hK := camelliaEncryptBlock_rekey e c₁ c₂ hK B
  decrypt_rekey c₁ c₂ _ B hK := camelliaDecryptBlock_rekey e c₁ c₂ hK B

end CycloneCrypto
