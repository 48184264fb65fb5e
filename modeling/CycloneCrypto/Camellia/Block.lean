import CycloneCrypto.Camellia.Round
import CycloneCrypto.Rfc3713.Inverse

/-!
# The block functions of `camellia.c` against RFC 3713

Under any context whose `nr` is 18 or 24, whatever its subkey words hold, the two block functions
are the RFC's data randomizing over the subkeys the words hold in pairs (`subkeySeq`):

* `encryptRounds_add`, `halves_encryptRounds_six` -- rounds with no FL layer run one after the
  other, and six of them are the RFC's `sixRounds` on the halves `(left, right)`;
* `encryptRounds_groups` -- by induction over the groups, the encryption loop from `ks + 4` is
  `groups`, ending at `ks + 16 G`;
* `decryptRounds_eq_encryptRounds` -- the decryption loop, walking the pointer down from
  `ks + 16 G`, is the encryption loop on the swapped halves over the words with their subkeys
  reversed (`revKs`): one step of each per round;
* **`camelliaEncryptBlock_eq`**, **`camelliaDecryptBlock_eq`** -- the block functions are
  `encryptWith` over `subkeySeq ks` and over `decryptSubkeys G (subkeySeq ks)`;
* **`camelliaBlock_roundTrip`** -- with `encryptWith_inverse`, each block function undoes the
  other under every such context.
-/

namespace CycloneCrypto.Camellia

open Rfc3713

/-- The 64-bit subkeys the words of `ks` hold in pairs, `ks[2 j] ‖ ks[2 j + 1]`. -/
def subkeySeq (ks : Nat → Word) (j : Nat) : BitVec 64 := ks (2 * j) ++ ks (2 * j + 1)

/-- The halves `(left, right)` of the state: the RFC's `(D1, D2)`. -/
def FeistelState.halves (s : FeistelState) : BitVec 64 × BitVec 64 := (s.left, s.right)

/-! ## 1. The encryption loop -/

section
variable (ks : Nat → Word)

theorem encryptRounds_succ_of_not_fl {i : Nat} (h : ¬flRound (i + 1)) (p : Nat) (s : FeistelState) :
    encryptRounds ks (i + 1) p s = encryptRounds ks i (p + 2) (camelliaRound s (ks p) (ks (p + 1))) := by
  rw [encryptRounds, if_neg h]

theorem encryptRounds_succ_of_fl {i : Nat} (h : flRound (i + 1)) (p : Nat) (s : FeistelState) :
    encryptRounds ks (i + 1) p s =
      let s := camelliaRound s (ks p) (ks (p + 1))
      let x := camelliaFl s.left1 s.left2 (ks (p + 2)) (ks (p + 3))
      let y := camelliaInvFl s.right1 s.right2 (ks (p + 4)) (ks (p + 5))
      encryptRounds ks i (p + 6) ⟨x.1, x.2, y.1, y.2⟩ := by
  rw [encryptRounds, if_pos h]

/-- Rounds `c` at a time, when none of their counters calls for an FL layer. -/
theorem encryptRounds_add (j : Nat) :
    ∀ c p s, (∀ t, 1 ≤ t → t ≤ c → ¬flRound t ∧ ¬flRound (j + t)) →
      encryptRounds ks (j + c) p s = encryptRounds ks j (p + 2 * c) (encryptRounds ks c p s).1
  | 0, p, s, _ => rfl
  | c + 1, p, s, h => by
    have hc := h (c + 1) (by omega) le_rfl
    rw [← Nat.add_assoc, encryptRounds_succ_of_not_fl ks (i := j + c) hc.2,
      encryptRounds_succ_of_not_fl ks (i := c) hc.1,
      encryptRounds_add j c (p + 2) _ (fun t ht ht' => h t ht (by omega))]
    congr 1; omega

/-- **Six rounds of the loop are the RFC's six rounds on the halves**, keyed by the next six
    pairs of words. -/
theorem halves_encryptRounds_six (sk : Nat → BitVec 64) {p b : Nat}
    (hk : ∀ t < 6, ks (p + 2 * t) ++ ks (p + 2 * t + 1) = sk (b + t)) (s : FeistelState) :
    (encryptRounds ks 6 p s).1.halves = sixRounds sk b s.halves ∧ (encryptRounds ks 6 p s).2 = p + 12 := by
  have h0 := hk 0 (by omega)
  have h1 := hk 1 (by omega)
  have h2 := hk 2 (by omega)
  have h3 := hk 3 (by omega)
  have h4 := hk 4 (by omega)
  have h5 := hk 5 (by omega)
  rw [encryptRounds_succ_of_not_fl ks (i := 5) (by decide), encryptRounds_succ_of_not_fl ks (i := 4) (by decide),
    encryptRounds_succ_of_not_fl ks (i := 3) (by decide), encryptRounds_succ_of_not_fl ks (i := 2) (by decide),
    encryptRounds_succ_of_not_fl ks (i := 1) (by decide), encryptRounds_succ_of_not_fl ks (i := 0) (by decide)]
  simp only [Nat.mul_zero, Nat.add_zero, Nat.mul_one, Nat.reduceMul, Nat.add_assoc, Nat.reduceAdd] at h0 h1 h2 h3 h4 h5
  simp only [Nat.add_assoc, Nat.reduceAdd]
  refine ⟨?_, rfl⟩
  simp only [encryptRounds, FeistelState.halves, left_camelliaRound, right_camelliaRound, h0, h1, h2, h3,
    h4, h5, sixRounds, Nat.add_zero]

/-- The sixth round after five. -/
theorem encryptRounds_six (p : Nat) (s : FeistelState) :
    encryptRounds ks 6 p s =
      (camelliaRound (encryptRounds ks 5 p s).1 (ks (p + 10)) (ks (p + 11)), p + 12) := by
  rw [show 6 = 1 + 5 from rfl, encryptRounds_add ks 1 5 p s (by decide)]
  rfl

/-- The halves after an FL layer. -/
theorem halves_flLayer (s : FeistelState) (q : Nat) :
    FeistelState.halves
        ⟨(camelliaFl s.left1 s.left2 (ks q) (ks (q + 1))).1, (camelliaFl s.left1 s.left2 (ks q) (ks (q + 1))).2,
          (camelliaInvFl s.right1 s.right2 (ks (q + 2)) (ks (q + 3))).1,
          (camelliaInvFl s.right1 s.right2 (ks (q + 2)) (ks (q + 3))).2⟩ =
      (FL s.left (ks q ++ ks (q + 1)), FLINV s.right (ks (q + 2) ++ ks (q + 3))) := by
  simp only [FeistelState.halves, FeistelState.left, FeistelState.right, camelliaFl_eq, camelliaInvFl_eq]

/-- **The encryption loop from `ks + 4 + 16 g` is `groups`**: `m + 1` groups of six rounds with an
    FL layer between two, over any subkey sequence that agrees with the words' pairs on the keys
    the groups read. -/
theorem encryptRounds_groups (sk : Nat → BitVec 64) :
    ∀ m g, m < 4 → (∀ j, 2 + 8 * g ≤ j → j < 8 * (g + m + 1) → sk j = subkeySeq ks j) →
    ∀ s, (encryptRounds ks (6 * m + 6) (4 + 16 * g) s).1.halves = groups sk (m + 1) g s.halves ∧
      (encryptRounds ks (6 * m + 6) (4 + 16 * g) s).2 = 16 * (g + m + 1)
  | 0, g, _, hsk, s => by
    obtain ⟨h1, h2⟩ := halves_encryptRounds_six ks sk (p := 4 + 16 * g) (b := 2 + 8 * g)
      (fun t ht => by rw [hsk _ (by omega) (by omega), subkeySeq]; congr 2 <;> omega) s
    exact ⟨h1, by rw [h2]; omega⟩
  | m + 1, g, hm, hsk, s => by
    obtain ⟨hsix, -⟩ := halves_encryptRounds_six ks sk (p := 4 + 16 * g) (b := 2 + 8 * g)
      (fun t ht => by rw [hsk _ (by omega) (by omega), subkeySeq]; congr 2 <;> omega) s
    rw [encryptRounds_six] at hsix
    suffices key : ∀ t : FeistelState, t.halves = flLayer sk g (sixRounds sk (2 + 8 * g) s.halves) →
        (encryptRounds ks (6 * m + 6) (4 + 16 * (g + 1)) t).1.halves = groups sk (m + 2) g s.halves ∧
        (encryptRounds ks (6 * m + 6) (4 + 16 * (g + 1)) t).2 = 16 * (g + (m + 1) + 1) by
      rw [show 6 * (m + 1) + 6 = 6 * m + 7 + 5 by omega,
        encryptRounds_add ks (6 * m + 7) 5 _ _ (fun t ht ht' => by unfold flRound; omega),
        encryptRounds_succ_of_fl ks (i := 6 * m + 6) (by unfold flRound; omega),
        show 4 + 16 * g + 2 * 5 + 6 = 4 + 16 * (g + 1) by omega]
      apply key
      rw [halves_flLayer, flLayer, ← hsix]
      congr 2
      · rw [hsk _ (by omega) (by omega), subkeySeq]; congr 2 <;> omega
      · rw [hsk _ (by omega) (by omega), subkeySeq]; congr 2 <;> omega
    intro t ht
    obtain ⟨ih1, ih2⟩ := encryptRounds_groups sk m (g + 1) (by omega)
      (fun j hj hj' => hsk j (by omega) (by omega)) t
    rw [ih1, ih2, ht]
    exact ⟨rfl, by omega⟩

/-- The loop's pointer only moves forward. -/
theorem le_encryptRounds_snd : ∀ n p s, p ≤ (encryptRounds ks n p s).2
  | 0, _, _ => le_rfl
  | n + 1, p, s => by
    simp only [encryptRounds]
    split_ifs
    · exact le_trans (by omega) (le_encryptRounds_snd n _ _)
    · exact le_trans (by omega) (le_encryptRounds_snd n _ _)

end

/-! ## 2. The decryption loop -/

/-- The words of `ks` with their 64-bit subkeys in reverse order: pair `a` is pair `N - a` of
    `ks`. -/
def revKs (N : Nat) (ks : Nat → Word) (j : Nat) : Word := ks (2 * (N - j / 2) + j % 2)

theorem subkeySeq_revKs (N : Nat) (ks : Nat → Word) (a : Nat) :
    subkeySeq (revKs N ks) a = subkeySeq ks (N - a) := by
  simp only [subkeySeq, revKs]
  congr 2 <;> omega

section
variable (ks : Nat → Word)

theorem decryptRounds_succ_of_not_fl {i : Nat} (h : ¬flRound (i + 1)) (p : Nat) (s : FeistelState) :
    decryptRounds ks (i + 1) p s =
      decryptRounds ks i (p - 2) (camelliaRound s.swap (ks (p - 2)) (ks (p - 2 + 1))).swap := by
  rw [decryptRounds, if_neg h]

theorem decryptRounds_succ_of_fl {i : Nat} (h : flRound (i + 1)) (p : Nat) (s : FeistelState) :
    decryptRounds ks (i + 1) p s =
      let s := (camelliaRound s.swap (ks (p - 2)) (ks (p - 2 + 1))).swap
      let x := camelliaFl s.right1 s.right2 (ks (p - 2 - 4 + 2)) (ks (p - 2 - 4 + 3))
      let y := camelliaInvFl s.left1 s.left2 (ks (p - 2 - 4)) (ks (p - 2 - 4 + 1))
      decryptRounds ks i (p - 2 - 4) ⟨y.1, y.2, x.1, x.2⟩ := by
  rw [decryptRounds, if_pos h]

/-- **The decryption loop is the encryption loop on the swapped halves over the reversed
    words**: with the two pointers summing to `2 N + 2`, each round of the one reads the words
    the other reads, and each FL layer the keys the other's reads. -/
theorem decryptRounds_eq_encryptRounds (N : Nat) :
    ∀ n p q s, p + q = 2 * N + 2 → q % 2 = 0 → (encryptRounds (revKs N ks) n q s.swap).2 ≤ 2 * N + 2 →
      (decryptRounds ks n p s).1 = (encryptRounds (revKs N ks) n q s.swap).1.swap ∧
        (decryptRounds ks n p s).2 + (encryptRounds (revKs N ks) n q s.swap).2 = 2 * N + 2
  | 0, _, _, _, hpq, _, _ => ⟨rfl, hpq⟩
  | n + 1, p, q, s, hpq, hq, hb => by
    by_cases hfl : flRound (n + 1)
    · rw [encryptRounds_succ_of_fl _ hfl] at hb ⊢
      dsimp only at hb ⊢
      have hle := (le_encryptRounds_snd (revKs N ks) n (q + 6) _).trans hb
      have k0 : revKs N ks q = ks (p - 2) := by simp only [revKs]; congr 1; omega
      have k1 : revKs N ks (q + 1) = ks (p - 2 + 1) := by simp only [revKs]; congr 1; omega
      have k2 : revKs N ks (q + 2) = ks (p - 2 - 4 + 2) := by simp only [revKs]; congr 1; omega
      have k3 : revKs N ks (q + 3) = ks (p - 2 - 4 + 3) := by simp only [revKs]; congr 1; omega
      have k4 : revKs N ks (q + 4) = ks (p - 2 - 4) := by simp only [revKs]; congr 1; omega
      have k5 : revKs N ks (q + 5) = ks (p - 2 - 4 + 1) := by simp only [revKs]; congr 1; omega
      rw [k0, k1, k2, k3, k4, k5] at hb ⊢
      rw [decryptRounds_succ_of_fl _ hfl]
      exact decryptRounds_eq_encryptRounds N n _ _ _ (by omega) (by omega) hb
    · rw [encryptRounds_succ_of_not_fl _ hfl] at hb ⊢
      have hle := (le_encryptRounds_snd (revKs N ks) n (q + 2) _).trans hb
      have k0 : revKs N ks q = ks (p - 2) := by simp only [revKs]; congr 1; omega
      have k1 : revKs N ks (q + 1) = ks (p - 2 + 1) := by simp only [revKs]; congr 1; omega
      rw [k0, k1] at hb ⊢
      rw [decryptRounds_succ_of_not_fl _ hfl]
      exact decryptRounds_eq_encryptRounds N n _ _ _ (by omega) (by omega) hb

end

/-! ## 3. The block functions -/

theorem hi64_ofBlock (B : Block) : hi64 (ofBlock B) = loadWord B 0 ++ loadWord B 1 := by
  rw [ofBlock, hi64_append, loadWord, loadWord, load32Be_append_load32Be]; rfl

theorem lo64_ofBlock (B : Block) : lo64 (ofBlock B) = loadWord B 2 ++ loadWord B 3 := by
  rw [ofBlock, lo64_append, loadWord, loadWord, load32Be_append_load32Be]; rfl

/-- `STORE32BE` of four words writes the block of their concatenation. -/
theorem storeWords_eq (a b c d : Word) :
    storeWords a b c d = toBlock ((a ++ b : BitVec 64) ++ (c ++ d : BitVec 64)) := by
  funext i
  fin_cases i <;> ext j <;>
    simp (disch := omega) [storeWords, store32Be, HostOrder.store, byteOf, toBlock,
      getLsbD_append_halves, getLsbD_append_words, j.isLt, decide_eq_true, decide_eq_false] <;>
    congr 1 <;> omega

theorem halves_xor (a b c d k0 k1 k2 k3 : Word) :
    FeistelState.halves ⟨a ^^^ k0, b ^^^ k1, c ^^^ k2, d ^^^ k3⟩ =
      ((a ++ b : BitVec 64) ^^^ (k0 ++ k1), (c ++ d : BitVec 64) ^^^ (k2 ++ k3)) := by
  simp only [FeistelState.halves, FeistelState.left, FeistelState.right]
  rw [BitVec.xor_append, BitVec.xor_append]

/-- The block written from two pairs of words, each XORed with the next 64-bit subkey. -/
theorem storeWords_xor (x1 x2 y1 y2 : Word) (k : Nat → Word) (j : Nat) :
    storeWords (x1 ^^^ k (2 * j)) (x2 ^^^ k (2 * j + 1)) (y1 ^^^ k (2 * j + 2)) (y2 ^^^ k (2 * j + 3)) =
      toBlock (((x1 ++ x2 : BitVec 64) ^^^ subkeySeq k j) ++ ((y1 ++ y2 : BitVec 64) ^^^ subkeySeq k (j + 1))) := by
  rw [storeWords_eq, subkeySeq, subkeySeq, ← BitVec.xor_append, ← BitVec.xor_append,
    show 2 * (j + 1) = 2 * j + 2 by omega]

@[simp] theorem FeistelState.left1_append (s : FeistelState) : s.left1 ++ s.left2 = s.left := rfl

@[simp] theorem FeistelState.right1_append (s : FeistelState) : s.right1 ++ s.right2 = s.right := rfl

/-- **Under a context of 18 or 24 rounds, `camelliaEncryptBlock` is the RFC's encryption over the
    subkeys the words of `ks` hold in pairs**, whatever they hold. -/
theorem camelliaEncryptBlock_eq (ctx : CamelliaContext) {G : Nat} (hG : G = 3 ∨ G = 4)
    (hnr : ctx.nr = 6 * G) (P : Block) :
    camelliaEncryptBlock ctx P = toBlock (encryptWith (subkeySeq ctx.ks) G (ofBlock P)) := by
  obtain ⟨m, rfl⟩ : ∃ m, G = m + 1 := ⟨G - 1, by omega⟩
  obtain ⟨h1, h2⟩ := encryptRounds_groups ctx.ks (subkeySeq ctx.ks) m 0 (by omega)
    (fun _ _ _ => rfl) ⟨loadWord P 0 ^^^ ctx.ks 0, loadWord P 1 ^^^ ctx.ks 1,
      loadWord P 2 ^^^ ctx.ks 2, loadWord P 3 ^^^ ctx.ks 3⟩
  simp only [Nat.mul_zero, Nat.add_zero, Nat.zero_add, show 6 * m + 6 = ctx.nr by omega,
    show 16 * (m + 1) = 2 * (8 * (m + 1)) by omega] at h1 h2
  rw [halves_xor, ← hi64_ofBlock, ← lo64_ofBlock] at h1
  simp only [FeistelState.halves, Prod.ext_iff] at h1
  simp only [camelliaEncryptBlock, h2, storeWords_xor, FeistelState.left1_append,
    FeistelState.right1_append, h1.1, h1.2, encryptWith]
  rfl

/-- **Under a context of 18 or 24 rounds, `camelliaDecryptBlock` is the RFC's decryption over the
    subkeys the words of `ks` hold in pairs**: encryption under `decryptSubkeys`. -/
theorem camelliaDecryptBlock_eq (ctx : CamelliaContext) {G : Nat} (hG : G = 3 ∨ G = 4)
    (hnr : ctx.nr = 6 * G) (C : Block) :
    camelliaDecryptBlock ctx C =
      toBlock (encryptWith (decryptSubkeys G (subkeySeq ctx.ks)) G (ofBlock C)) := by
  obtain ⟨m, rfl⟩ : ∃ m, G = m + 1 := ⟨G - 1, by omega⟩
  have hp : (if ctx.nr = 18 then 48 else 64) = 2 * (8 * (m + 1)) := by split_ifs <;> omega
  let s : FeistelState := ⟨loadWord C 2 ^^^ ctx.ks (2 * (8 * (m + 1)) + 2),
    loadWord C 3 ^^^ ctx.ks (2 * (8 * (m + 1)) + 3), loadWord C 0 ^^^ ctx.ks (2 * (8 * (m + 1))),
    loadWord C 1 ^^^ ctx.ks (2 * (8 * (m + 1)) + 1)⟩
  obtain ⟨e1, e2⟩ := encryptRounds_groups (revKs (8 * (m + 1) + 1) ctx.ks)
    (decryptSubkeys (m + 1) (subkeySeq ctx.ks)) m 0 (by omega)
    (fun j hj hj' => by
      rw [subkeySeq_revKs]; simp only [decryptSubkeys]
      split_ifs <;> first | omega | rfl) s.swap
  simp only [Nat.mul_zero, Nat.add_zero, Nat.zero_add, show 6 * m + 6 = ctx.nr by omega] at e1 e2
  obtain ⟨d1, d2⟩ := decryptRounds_eq_encryptRounds ctx.ks (8 * (m + 1) + 1) ctx.nr (2 * (8 * (m + 1))) 4 s
    (by omega) rfl (by omega)
  rw [e2] at d2
  have hend : (decryptRounds ctx.ks ctx.nr (2 * (8 * (m + 1))) s).2 - 4 = 2 * 0 := by omega
  have hs : s.swap.halves = (hi64 (ofBlock C) ^^^ decryptSubkeys (m + 1) (subkeySeq ctx.ks) 0,
      lo64 (ofBlock C) ^^^ decryptSubkeys (m + 1) (subkeySeq ctx.ks) 1) := by
    rw [hi64_ofBlock, lo64_ofBlock]; exact halves_xor _ _ _ _ _ _ _ _
  have k8 : decryptSubkeys (m + 1) (subkeySeq ctx.ks) (8 * (m + 1)) = subkeySeq ctx.ks 0 := by
    simp [decryptSubkeys]
  have k9 : decryptSubkeys (m + 1) (subkeySeq ctx.ks) (8 * (m + 1) + 1) = subkeySeq ctx.ks 1 := by
    simp [decryptSubkeys]
  rw [hs] at e1
  simp only [FeistelState.halves, Prod.ext_iff] at e1
  simp only [camelliaDecryptBlock, hp]
  rw [hend, storeWords_xor, d1]
  simp only [FeistelState.left1_append, FeistelState.right1_append, left_swap, right_swap, e1.1, e1.2,
    encryptWith, k8, k9, Nat.zero_add]

/-! ## 4. The round trip -/

theorem groups_of_nr {ctx : CamelliaContext} (hnr : ctx.nr = 18 ∨ ctx.nr = 24) :
    ∃ G, (G = 3 ∨ G = 4) ∧ ctx.nr = 6 * G := by
  rcases hnr with h | h
  exacts [⟨3, .inl rfl, h⟩, ⟨4, .inr rfl, h⟩]

theorem camelliaDecryptBlock_camelliaEncryptBlock (ctx : CamelliaContext) (hnr : ctx.nr = 18 ∨ ctx.nr = 24)
    (B : Block) : camelliaDecryptBlock ctx (camelliaEncryptBlock ctx B) = B := by
  obtain ⟨G, hG, hG'⟩ := groups_of_nr hnr
  rw [camelliaEncryptBlock_eq ctx hG hG', camelliaDecryptBlock_eq ctx hG hG', ofBlock_toBlock,
    encryptWith_inverse _ (by omega), toBlock_ofBlock]

theorem camelliaEncryptBlock_camelliaDecryptBlock (ctx : CamelliaContext) (hnr : ctx.nr = 18 ∨ ctx.nr = 24)
    (B : Block) : camelliaEncryptBlock ctx (camelliaDecryptBlock ctx B) = B := by
  obtain ⟨G, hG, hG'⟩ := groups_of_nr hnr
  rw [camelliaDecryptBlock_eq ctx hG hG', camelliaEncryptBlock_eq ctx hG hG', ofBlock_toBlock,
    ← encryptWith_congr (fun j hj => decryptSubkeys_decryptSubkeys (by omega) (subkeySeq ctx.ks) hj),
    encryptWith_inverse _ (by omega), toBlock_ofBlock]

/-- **Under every context whose `nr` is 18 or 24, whatever its subkey words hold,
    `camelliaDecryptBlock` undoes `camelliaEncryptBlock` and the converse.** -/
theorem camelliaBlock_roundTrip (ctx : CamelliaContext) (hnr : ctx.nr = 18 ∨ ctx.nr = 24) :
    (∀ B, camelliaDecryptBlock ctx (camelliaEncryptBlock ctx B) = B) ∧
      (∀ B, camelliaEncryptBlock ctx (camelliaDecryptBlock ctx B) = B) :=
  ⟨camelliaDecryptBlock_camelliaEncryptBlock ctx hnr, camelliaEncryptBlock_camelliaDecryptBlock ctx hnr⟩

theorem camelliaBlock_roundTrip_zero :
    ((⟨18, fun _ => 0, fun _ => 0⟩ : CamelliaContext).nr = 18 ∨
      (⟨18, fun _ => 0, fun _ => 0⟩ : CamelliaContext).nr = 24) ∧
    ∀ B, camelliaDecryptBlock ⟨18, fun _ => 0, fun _ => 0⟩
      (camelliaEncryptBlock ⟨18, fun _ => 0, fun _ => 0⟩ B) = B :=
  ⟨.inl rfl, (camelliaBlock_roundTrip ⟨18, fun _ => 0, fun _ => 0⟩ (.inl rfl)).1⟩

end CycloneCrypto.Camellia
