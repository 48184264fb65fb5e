import CycloneCrypto.Camellia.KeySchedule

/-!
# `camellia.c` computes Camellia as RFC 3713 specifies it

The key schedule builds the RFC's subkeys (`camelliaExpand_subkeySeq`), and under any context of
18 or 24 rounds the block functions are the RFC's data randomizing over the subkeys the context
holds (`camelliaEncryptBlock_eq`, `camelliaDecryptBlock_eq`). Together, on every host:

* `camelliaInit_of_ok` -- an accepted key gives `nr = 6 G` rounds, `G` the RFC's number of groups;
* `camelliaEncryptBlock_init`, `camelliaDecryptBlock_init` -- after `camelliaInit` the block
  functions are RFC 3713 encryption and decryption, whatever the context held before;
* **`camellia_rfc3713`**.
-/

namespace CycloneCrypto.Camellia

open Rfc3713

theorem camelliaInit_of_ok (e : HostOrder) (ctx : CamelliaContext) {K : List Byte} (hK : KeyLengthOk K) :
    camelliaInit e ctx K = (.noError, camelliaExpand e ctx K (6 * (schedule K).2)) := by
  have hs : (schedule K).2 = if K.length = 16 then 3 else 4 := by
    unfold schedule; split_ifs <;> rfl
  rw [hs]
  unfold camelliaInit
  rcases hK with h | h | h <;> simp [h]

/-- **A rejected key length leaves the context as it was.** -/
theorem camelliaInit_of_not_ok (e : HostOrder) (ctx : CamelliaContext) {K : List Byte}
    (hK : ¬ KeyLengthOk K) : camelliaInit e ctx K = (.invalidKeyLength, ctx) := by
  simp only [KeyLengthOk, not_or] at hK
  simp [camelliaInit, hK.1, hK.2.1, hK.2.2]

/-- The round count of an accepted key, 18 or 24. -/
theorem camelliaInit_nr (e : HostOrder) (ctx : CamelliaContext) {K : List Byte} (hK : KeyLengthOk K) :
    (camelliaInit e ctx K).2.nr = 18 ∨ (camelliaInit e ctx K).2.nr = 24 := by
  rw [camelliaInit_of_ok e ctx hK]
  show 6 * (schedule K).2 = 18 ∨ 6 * (schedule K).2 = 24
  rcases schedule_groups K with h | h <;> omega

theorem camelliaEncryptBlock_init (e : HostOrder) (ctx : CamelliaContext) {K : List Byte}
    (hK : KeyLengthOk K) (P : Block) :
    camelliaEncryptBlock (camelliaInit e ctx K).2 P = toBlock (Rfc3713.encrypt K (ofBlock P)) := by
  rw [camelliaInit_of_ok e ctx hK, camelliaEncryptBlock_eq _ (schedule_groups K) rfl, Rfc3713.encrypt,
    encryptWith_congr (camelliaExpand_subkeySeq e ctx hK _)]

theorem camelliaDecryptBlock_init (e : HostOrder) (ctx : CamelliaContext) {K : List Byte}
    (hK : KeyLengthOk K) (C : Block) :
    camelliaDecryptBlock (camelliaInit e ctx K).2 C = toBlock (Rfc3713.decrypt K (ofBlock C)) := by
  rw [camelliaInit_of_ok e ctx hK, camelliaDecryptBlock_eq _ (schedule_groups K) rfl, Rfc3713.decrypt,
    encryptWith_congr (decryptSubkeys_congr (camelliaExpand_subkeySeq e ctx hK _))]

/-- **On every host, `camelliaInit` accepts every 128-, 192- and 256-bit key, and the block
    functions of the context it builds are Camellia encryption and decryption of RFC 3713.** -/
theorem camellia_rfc3713 (e : HostOrder) (ctx : CamelliaContext) (K : List Byte) (hK : KeyLengthOk K) :
    (camelliaInit e ctx K).1 = .noError ∧
    (∀ P, camelliaEncryptBlock (camelliaInit e ctx K).2 P = toBlock (Rfc3713.encrypt K (ofBlock P))) ∧
    (∀ C, camelliaDecryptBlock (camelliaInit e ctx K).2 C = toBlock (Rfc3713.decrypt K (ofBlock C))) :=
  ⟨by rw [camelliaInit_of_ok e ctx hK], camelliaEncryptBlock_init e ctx hK,
    camelliaDecryptBlock_init e ctx hK⟩

/-- Re-keying: after `camelliaInit` the block functions depend on the key alone. -/
theorem camelliaEncryptBlock_rekey (e : HostOrder) (c₁ c₂ : CamelliaContext) {K : List Byte}
    (hK : KeyLengthOk K) (B : Block) :
    camelliaEncryptBlock (camelliaInit e c₁ K).2 B = camelliaEncryptBlock (camelliaInit e c₂ K).2 B := by
  rw [camelliaEncryptBlock_init e c₁ hK, camelliaEncryptBlock_init e c₂ hK]

theorem camelliaDecryptBlock_rekey (e : HostOrder) (c₁ c₂ : CamelliaContext) {K : List Byte}
    (hK : KeyLengthOk K) (B : Block) :
    camelliaDecryptBlock (camelliaInit e c₁ K).2 B = camelliaDecryptBlock (camelliaInit e c₂ K).2 B := by
  rw [camelliaDecryptBlock_init e c₁ hK, camelliaDecryptBlock_init e c₂ hK]

theorem camellia_rfc3713_zeroKey :
    KeyLengthOk (List.replicate 16 0) ∧
      (camelliaInit .little ⟨0, fun _ => 0, fun _ => 0⟩ (List.replicate 16 0)).1 = .noError :=
  ⟨by decide, (camellia_rfc3713 .little ⟨0, fun _ => 0, fun _ => 0⟩ (List.replicate 16 0) (by decide)).1⟩

end CycloneCrypto.Camellia
