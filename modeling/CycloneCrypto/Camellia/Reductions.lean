import CycloneCrypto.Camellia.Refinement
import Mathlib.Data.List.GetD

/-!
# Two paths of `camellia.c` that are the others in disguise

RFC 3713 decrypts with the encryption procedure over the subkeys in reverse order (§2.3.3), and
completes a 192-bit key to 256 bits with the complement of its right half (§2.2). `camellia.c`
has a decryption loop of its own, walking the table down, and a branch of its own for 24-byte
keys; each computes what the other path computes:

* `mirrorKs` -- the words of a table with the 64-bit subkeys they hold in pairs put in the order
  decryption takes them (`decryptSubkeys`);
* **`camelliaDecryptBlock_eq_mirror`** -- under every context of 18 or 24 rounds,
  `camelliaDecryptBlock` is `camelliaEncryptBlock` over the mirrored table;
* `completeKey`, `keyWords_completeKey` -- a 24-byte key followed by the complement of its last
  8 bytes, and the words the copy leaves in `k[]` for it: those the 24-byte branch leaves;
* **`camelliaInit_key192`** -- `camelliaInit` builds the same context from a 24-byte key as from
  its completion to 32 bytes, on every host and whatever the context held.

NOT here: a table mirrored in place. The code never builds one; `mirrorKs` is the table the
decryption loop reads, as the encryption loop would read it.
-/

namespace CycloneCrypto.Camellia

open Rfc3713

/-! ## 1. Decryption is encryption over the mirrored table -/

/-- The words of `ks` with the 64-bit subkeys they hold in pairs reordered as `decryptSubkeys G`
    takes them: `kw3, kw4` first, the round and FL keys from the last to the first, `kw1, kw2`
    last. -/
def mirrorKs (G : Nat) (ks : Nat → Word) (j : Nat) : Word :=
  let x := decryptSubkeys G (subkeySeq ks) (j / 2)
  if j % 2 = 0 then x.extractLsb' 32 32 else x.extractLsb' 0 32

theorem subkeySeq_mirrorKs (G : Nat) (ks : Nat → Word) :
    subkeySeq (mirrorKs G ks) = decryptSubkeys G (subkeySeq ks) := by
  funext a
  rw [subkeySeq, mirrorKs, mirrorKs]
  rw [if_pos (by omega), if_neg (by omega), show 2 * a / 2 = a by omega, show (2 * a + 1) / 2 = a by omega]
  exact append_extractLsb' _

/-- **Under every context of 18 or 24 rounds, whatever its words hold, `camelliaDecryptBlock` is
    `camelliaEncryptBlock` over the mirrored table**: the loop that walks the table down from
    `kw3, kw4` computes what the loop that walks up from `kw1, kw2` computes on the mirror
    image. -/
theorem camelliaDecryptBlock_eq_mirror (c : CamelliaContext) (hnr : c.nr = 18 ∨ c.nr = 24) :
    camelliaDecryptBlock c = camelliaEncryptBlock ⟨c.nr, c.k, mirrorKs (c.nr / 6) c.ks⟩ := by
  obtain ⟨G, hG, hG'⟩ := groups_of_nr hnr
  funext C
  rw [camelliaDecryptBlock_eq c hG hG', camelliaEncryptBlock_eq ⟨c.nr, c.k, mirrorKs (c.nr / 6) c.ks⟩ hG hG',
    show c.nr / 6 = G by omega, subkeySeq_mirrorKs]

theorem camelliaDecryptBlock_eq_mirror_zero :
    ((⟨24, fun _ => 0, fun _ => 0⟩ : CamelliaContext).nr = 18 ∨
      (⟨24, fun _ => 0, fun _ => 0⟩ : CamelliaContext).nr = 24) ∧
    camelliaDecryptBlock ⟨24, fun _ => 0, fun _ => 0⟩ =
      camelliaEncryptBlock ⟨24, fun _ => 0, mirrorKs 4 fun _ => 0⟩ :=
  ⟨.inr rfl, camelliaDecryptBlock_eq_mirror ⟨24, fun _ => 0, fun _ => 0⟩ (.inr rfl)⟩

/-! ## 2. The 24-byte key is the 32-byte key it completes -/

/-- The 32-byte key a 24-byte key `K` stands for: `K`, then the complement of its last 8 bytes. -/
def completeKey (K : List Byte) : List Byte := K ++ (K.drop 16).map fun b => ~~~b

theorem load_not (e : HostOrder) (b : Fin 4 → Byte) : e.load (fun j => ~~~b j) = ~~~e.load b :=
  calc e.load (fun j => ~~~b j) = e.load (e.store (~~~e.load b)) := by
        congr 1; funext j; rw [HostOrder.store_not, HostOrder.store_load]
    _ = ~~~e.load b := HostOrder.load_store e _

/-- `camelliaExpand` with the copy of the key written as `keyWords`. -/
theorem camelliaExpand_eq_keyWords (e : HostOrder) (ctx : CamelliaContext) (key : List Byte) (nr : Nat) :
    camelliaExpand e ctx key nr =
      let k := [0, 1, 2, 3, 4, 5].foldl kaKbStep ([0, 1, 2, 3].foldl (betohStep e) (keyWords e key))
      ⟨nr, k, subkeyLoop k (if key.length = 16 then ks1 else ks2) ctx.ks⟩ := rfl

section
variable {K : List Byte} (hK : K.length = 24)
include hK

theorem length_completeKey : (completeKey K).length = 32 := by simp [completeKey, hK]

theorem completeKey_getD_of_lt {n : Nat} (hn : n < 24) : (completeKey K).getD n 0 = K.getD n 0 :=
  List.getD_append _ _ _ _ (by omega)

theorem completeKey_getD_of_ge {m n : Nat} (hm : m = n + 8) (hn : 16 ≤ n) (hn' : n < 24) :
    (completeKey K).getD m 0 = ~~~K.getD n 0 := by
  rw [completeKey, List.getD_append_right _ _ _ _ (by omega), hK,
    List.getD_eq_getElem _ _ (by simp [hK]; omega), List.getElem_map, List.getElem_drop,
    List.getD_eq_getElem _ _ (by omega)]
  congr 2; omega

/-- The words the copy leaves in `k[]` for the completed key are those the 24-byte branch leaves:
    the key's first six words, then the complements of `KR[0]`, `KR[1]`. -/
theorem keyWords_completeKey (e : HostOrder) : keyWords e (completeKey K) = keyWords e K := by
  funext j
  rw [keyWords_apply, keyWords_apply, length_completeKey hK, hK]
  simp only [keyWord, length_completeKey hK, hK, true_and, Nat.reduceDiv, Nat.reduceEqDiff, false_and,
    if_false]
  -- the words past `KR` are zero on both sides; `KL`, `KR[0]`, `KR[1]` are the key's; `KR[2]`,
  -- `KR[3]` are read from the complemented bytes on the one side, complemented on the other
  split_ifs <;> first
    | omega | rfl
    | (congr 1; funext i; exact completeKey_getD_of_lt hK (by omega))
    | (subst_vars; rw [← load_not]; congr 1; funext i; exact completeKey_getD_of_ge hK (by omega) (by omega) (by omega))

/-- **A 24-byte key is the 32-byte key it completes**: `camelliaInit` builds the same context from
    `K` as from `K` followed by the complement of its last 8 bytes, on every host and whatever the
    context held. -/
theorem camelliaInit_key192 (e : HostOrder) (c : CamelliaContext) :
    camelliaInit e c (completeKey K) = camelliaInit e c K := by
  have h : camelliaExpand e c (completeKey K) 24 = camelliaExpand e c K 24 := by
    simp only [camelliaExpand_eq_keyWords, keyWords_completeKey hK, length_completeKey hK, hK,
      Nat.reduceEqDiff, if_false]
  simp only [camelliaInit, length_completeKey hK, hK, h, Nat.reduceEqDiff, if_false, or_true, true_or,
    if_true]

end

theorem camelliaInit_key192_zero :
    (List.replicate 24 (0 : Byte)).length = 24 ∧
      camelliaInit .little ⟨0, fun _ => 0, fun _ => 0⟩ (completeKey (List.replicate 24 0)) =
        camelliaInit .little ⟨0, fun _ => 0, fun _ => 0⟩ (List.replicate 24 0) :=
  ⟨rfl, camelliaInit_key192 (by rfl) .little ⟨0, fun _ => 0, fun _ => 0⟩⟩

end CycloneCrypto.Camellia
