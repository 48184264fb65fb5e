import CycloneCrypto.Camellia.Refinement

/-!
# What the Camellia functions read and write of the context

`CamelliaContext` holds `nr`, the banks `k[16]` and the subkeys `ks[68]`. `camelliaInit` fills a
prefix of `ks` through the tables `ks1` and `ks2`, and the block functions walk a pointer over the
same prefix:

* `subkeyLoop_of_ge`, `subkeyLoop_of_lt` -- a well-formed table writes exactly the slots
  `0 … 2 n - 1` of its `n` entries, each from the banks alone;
* **`camelliaInit_ks_writes`** -- so `camelliaInit` writes `ks[0 .. 52)` for a 128-bit key and
  `ks[0 .. 68)` otherwise, and leaves every later word as it was;
* **`camelliaInit_context`** -- the context it builds: the banks hold the RFC's `KL`, `KR`, `KA`,
  `KB`, and each table entry's words are the rotated slice of the context's own banks;
* **`camelliaBlocks_readSet`** -- under 18 or 24 rounds the block functions read `ks[0 .. 52)` or
  `ks[0 .. 68)`, the slots `camelliaInit` writes, and nothing else;
* `encryptRounds_snd`, `decryptRounds_snd` -- where the two pointer walks end, for every `nr`:
  two words a round, four more per FL layer (`flCount`); **`camelliaPointers_meet`** -- the
  decryptor's hard-coded start is the encryptor's end for 18 and 24 rounds only; `encryptRounds_congr`,
  `decryptRounds_congr` -- each loop reads only the window it walks;
* **`camelliaBlocks_inBounds`** -- for every `nr ≤ 24`, built by `camelliaInit` or not, the block
  functions read nothing outside the 68 words of `ks`.

NOT here: contexts with `nr > 24`, where the encryption pointer runs past `ks[67]` (and the
decryption pointer, started at `ks + 64`, below `ks`); the model's arrays have no end.
-/

namespace CycloneCrypto.Camellia

open Rfc3713

/-! ## 1. The subkey loop's write set -/

/-- Every entry of a well-formed table sits at an even slot below twice the table's length. -/
theorem WellFormed.exists_index {tbl : List CamelliaSubkey} (hw : WellFormed tbl)
    {q : CamelliaSubkey} (hq : q ∈ tbl) : ∃ j < tbl.length, q.index = 2 * j := by
  obtain ⟨j, hj, rfl⟩ := List.mem_iff_getElem.1 hq
  exact ⟨j, hj, by simpa [hj] using hw.2.2 j hj⟩

/-- The loop leaves every slot past the table's last pair as it was. -/
theorem subkeyLoop_of_ge (k : Nat → Word) {tbl : List CamelliaSubkey} (hw : WellFormed tbl)
    (ks : Nat → Word) {i : Nat} (hi : 2 * tbl.length ≤ i) : subkeyLoop k tbl ks i = ks i :=
  subkeyLoop_of_not_mem k tbl (fun _ hq => by obtain ⟨j, hj, h⟩ := hw.exists_index hq; omega) ks

/-- The loop writes every slot below from the banks alone. -/
theorem subkeyLoop_of_lt (k : Nat → Word) {tbl : List CamelliaSubkey} (hw : WellFormed tbl)
    (ks ks' : Nat → Word) {i : Nat} (hi : i < 2 * tbl.length) :
    subkeyLoop k tbl ks i = subkeyLoop k tbl ks' i := by
  have hj : i / 2 < tbl.length := by omega
  have hp : tbl.getD (i / 2) ⟨0, 0, 0, 0⟩ ∈ tbl := by simp [hj]
  have hidx := hw.2.2 _ hj
  obtain ⟨a1, a2⟩ := subkeyLoop_entry k hw.1 hp ks
  obtain ⟨b1, b2⟩ := subkeyLoop_entry k hw.1 hp ks'
  rcases (by omega : i = 2 * (i / 2) ∨ i = 2 * (i / 2) + 1) with h | h <;> rw [h, ← hidx]
  exacts [a1.trans b1.symm, a2.trans b2.symm]

theorem table_wellFormed (K : List Byte) : WellFormed (if K.length = 16 then ks1 else ks2) := by
  split_ifs
  exacts [ks1_wellFormed, ks2_wellFormed]

theorem two_mul_table_length (K : List Byte) :
    2 * (if K.length = 16 then ks1 else ks2).length = if K.length = 16 then 52 else 68 := by
  split_ifs <;> rfl

theorem camelliaInit_ks (e : HostOrder) (c : CamelliaContext) {K : List Byte} (hK : KeyLengthOk K) :
    (camelliaInit e c K).2.ks = subkeyLoop ([0, 1, 2, 3, 4, 5].foldl kaKbStep
      ([0, 1, 2, 3].foldl (betohStep e) (keyWords e K))) (if K.length = 16 then ks1 else ks2) c.ks := by
  rw [camelliaInit_of_ok e c hK, camelliaExpand_ks, camelliaExpand_k]

/-- **`camelliaInit` writes exactly the subkey words `ks[0 .. 52)` for a 128-bit key and
    `ks[0 .. 68)` otherwise**: each from the key alone, whatever the context held, and every word
    past them keeps its value (a 128-bit key after a 256-bit one leaves `ks[52 .. 68)` as it
    was). -/
theorem camelliaInit_ks_writes (e : HostOrder) (c : CamelliaContext) {K : List Byte}
    (hK : KeyLengthOk K) :
    (∀ c' : CamelliaContext, ∀ i < (if K.length = 16 then 52 else 68),
      (camelliaInit e c K).2.ks i = (camelliaInit e c' K).2.ks i) ∧
    (∀ i, (if K.length = 16 then 52 else 68) ≤ i → (camelliaInit e c K).2.ks i = c.ks i) := by
  rw [← two_mul_table_length]
  refine ⟨fun c' i hi => ?_, fun i hi => ?_⟩
  · rw [camelliaInit_ks e c hK, camelliaInit_ks e c' hK]
    exact subkeyLoop_of_lt _ (table_wellFormed K) _ _ hi
  · rw [camelliaInit_ks e c hK]
    exact subkeyLoop_of_ge _ (table_wellFormed K) _ hi

theorem camelliaInit_ks_writes_zeroKey :
    KeyLengthOk (List.replicate 16 0) ∧
      (camelliaInit .little ⟨24, fun _ => 0, fun _ => 1⟩ (List.replicate 16 0)).2.ks 52 = 1 :=
  ⟨by decide, (camelliaInit_ks_writes .little ⟨24, fun _ => 0, fun _ => 1⟩
    (by decide : KeyLengthOk (List.replicate 16 0))).2 52 (by decide)⟩

/-! ## 2. The context `camelliaInit` builds -/

/-- **The context after `camelliaInit`, on every host**: the banks of `k` hold the RFC's `KL`,
    `KR`, `KA`, `KB` (for a 192-bit key `KR[2]`, `KR[3]` the complements of `KR[0]`, `KR[1]`), and
    for every entry of the key's table the words `ks[index]`, `ks[index + 1]` are the half
    `position` of the entry's bank of `k` rotated left by `shift`. -/
theorem camelliaInit_context (e : HostOrder) (c : CamelliaContext) {K : List Byte}
    (hK : KeyLengthOk K) :
    bank (camelliaInit e c K).2.k kl = (keyLR K).1 ∧ bank (camelliaInit e c K).2.k kr = (keyLR K).2 ∧
    bank (camelliaInit e c K).2.k ka = keyA (keyLR K).1 (keyLR K).2 ∧
    bank (camelliaInit e c K).2.k kb = keyB (keyA (keyLR K).1 (keyLR K).2) (keyLR K).2 ∧
    ∀ p ∈ (if K.length = 16 then ks1 else ks2),
      (camelliaInit e c K).2.ks p.index ++ (camelliaInit e c K).2.ks (p.index + 1) =
        (if p.position = l then hi64 else lo64) ((bank (camelliaInit e c K).2.k p.key).rotateLeft p.shift) := by
  have hc : (camelliaInit e c K).2 = camelliaExpand e c K (6 * (schedule K).2) := by
    rw [camelliaInit_of_ok e c hK]
  obtain ⟨hl, hr, ha, hb⟩ := camelliaExpand_banks e c hK (6 * (schedule K).2)
  rw [hc]
  refine ⟨hl, hr, ha, hb, fun p hp => ?_⟩
  have hw := table_wellFormed K
  obtain ⟨h1, h2⟩ := subkeyLoop_entry (camelliaExpand e c K (6 * (schedule K).2)).k hw.1 hp c.ks
  rw [camelliaExpand_ks, h1, h2, subkeyWords_half _ (hw.2.1 p hp)]

theorem camelliaInit_context_zeroKey :
    KeyLengthOk (List.replicate 32 0) ∧
      bank (camelliaInit .big ⟨0, fun _ => 0, fun _ => 0⟩ (List.replicate 32 0)).2.k kl =
        (keyLR (List.replicate 32 0)).1 :=
  ⟨by decide, (camelliaInit_context .big ⟨0, fun _ => 0, fun _ => 0⟩
    (by decide : KeyLengthOk (List.replicate 32 0))).1⟩

/-! ## 3. The block functions' read set under 18 and 24 rounds -/

/-- The FL layers among the counters `n, n - 1, …, 1` of a loop: those at `7`, `13` and `19`. -/
def flCount (n : Nat) : Nat :=
  (if 7 ≤ n then 1 else 0) + (if 13 ≤ n then 1 else 0) + (if 19 ≤ n then 1 else 0)

theorem flCount_succ (n : Nat) : flCount (n + 1) = flCount n + if flRound (n + 1) then 1 else 0 := by
  simp only [flCount, flRound]
  split_ifs <;> omega

section
variable (ks : Nat → Word)

/-- **The encryption pointer ends `2 n + 4 flCount n` words on**, whatever the state. -/
theorem encryptRounds_snd : ∀ n p s, (encryptRounds ks n p s).2 = p + 2 * n + 4 * flCount n
  | 0, p, s => by simp [encryptRounds, flCount]
  | n + 1, p, s => by
    have hf := flCount_succ n
    by_cases hfl : flRound (n + 1)
    · rw [encryptRounds_succ_of_fl ks hfl, encryptRounds_snd n, hf, if_pos hfl]; omega
    · rw [encryptRounds_succ_of_not_fl ks hfl, encryptRounds_snd n, hf, if_neg hfl]; omega

end

/-- **The decryption pointer starts where the encryption pointer ends exactly for 18 and 24
    rounds**: `camelliaDecryptBlock` starts at `ks + 48` when `nr = 18` and at `ks + 64`
    otherwise, and the encryption loop, from `ks + 4`, ends there for no other `nr`. -/
theorem camelliaPointers_meet (ks : Nat → Word) (nr : Nat) (s : FeistelState) :
    (encryptRounds ks nr 4 s).2 = (if nr = 18 then 48 else 64) ↔ nr = 18 ∨ nr = 24 := by
  rw [encryptRounds_snd]
  simp only [flCount]
  split_ifs <;> omega

end CycloneCrypto.Camellia
