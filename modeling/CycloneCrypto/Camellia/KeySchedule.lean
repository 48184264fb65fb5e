import CycloneCrypto.Camellia.Subkeys
import CycloneCrypto.Camellia.Block

/-!
# The key schedule of `camelliaInit` against RFC 3713

`camelliaInit` copies the key into `k[]` in the host's byte order, turns the words of `KL` and
`KR` to big-endian values, runs six rounds on `KB` to make `KA` and `KB`, and cuts the subkeys out
of the four banks. Read as 128-bit values the banks are the RFC's `KL`, `KR`, `KA`, `KB`, and the
subkeys its list, on every host:

* `keyWords`, `betoh32_keyWords` -- the words after the copy; `betoh32` turns them into the
  big-endian host's, so what follows does not depend on the host;
* `betohWords`, `betohLoop_eq` -- the first loop, by its invariant after `n` passes;
  `bank_betohWords_kl`, `bank_betohWords_kr`, `bank_betohWords_kb` -- the banks `KL` and `KR` after
  it are the RFC's, the 192-bit case completing `KR` with the complement, and `KB = KL ^ KR`;
* `bank_kaKbStep`, `bank_kaKbLoop` -- one pass of the second loop on the banks, and the six, with
  `keyA_eq`, `keyB_eq` -- the RFC's `KA` and `KB` as the same rounds;
* **`camelliaExpand_subkeySeq`** -- the subkeys the words of `ks` hold are the RFC's schedule;
* **`camelliaInit_host`** -- `camelliaInit` builds the same context on both hosts.
-/

namespace CycloneCrypto.Camellia

open Rfc3713

/-- Word `k[i]` after `osMemcpy(context->k, key, keyLength)` into the cleared array. -/
def keyWord (e : HostOrder) (key : List Byte) (i : Nat) : Word :=
  if i < key.length / 4 then e.load (fun j => key.getD (4 * i + j) 0) else 0

/-- The words `k[]` after the copy of the key and, for a 192-bit key, the complement of
    `KR[0]`, `KR[1]` into `KR[2]`, `KR[3]`: the first two steps of `camelliaExpand`. -/
def keyWords (e : HostOrder) (key : List Byte) : Nat → Word :=
  let k := keyWord e key
  if key.length = 24 then
    let k := Function.update k (kr + 2) (~~~k (kr + 0))
    Function.update k (kr + 3) (~~~k (kr + 1))
  else k

theorem camelliaExpand_k (e : HostOrder) (ctx : CamelliaContext) (key : List Byte) (nr : Nat) :
    (camelliaExpand e ctx key nr).k =
      [0, 1, 2, 3, 4, 5].foldl kaKbStep ([0, 1, 2, 3].foldl (betohStep e) (keyWords e key)) := rfl

theorem camelliaExpand_ks (e : HostOrder) (ctx : CamelliaContext) (key : List Byte) (nr : Nat) :
    (camelliaExpand e ctx key nr).ks =
      subkeyLoop (camelliaExpand e ctx key nr).k (if key.length = 16 then ks1 else ks2) ctx.ks := rfl

/-! ## 1. The copy of the key and the byte order -/

@[simp] theorem betoh32_zero (e : HostOrder) : betoh32 e 0 = 0 := by cases e <;> decide

/-- `betoh32` turns the words the copy leaves on any host into those it leaves on a big-endian
    host. -/
theorem betoh32_keyWord (e : HostOrder) (key : List Byte) (i : Nat) :
    betoh32 e (keyWord e key i) = keyWord .big key i := by
  unfold keyWord
  split_ifs
  · rw [betoh32_load]; rfl
  · exact betoh32_zero e

theorem betoh32_keyWords (e : HostOrder) (key : List Byte) (j : Nat) :
    betoh32 e (keyWords e key j) = keyWords .big key j := by
  simp only [keyWords]
  split_ifs
  · simp only [Function.update_apply, kr]
    split_ifs <;> simp only [betoh32_not, betoh32_keyWord]
  · exact betoh32_keyWord e key j

/-- The words after `n` passes of the loop `for(i = 0; i < 4; i++)`: `KL[0 .. n)` and
    `KR[0 .. n)` in host order, `KB[0 .. n)` their XOR, the rest as they were. -/
def betohWords (e : HostOrder) (k : Nat → Word) (n j : Nat) : Word :=
  if j < n ∨ (4 ≤ j ∧ j < 4 + n) then betoh32 e (k j)
  else if 12 ≤ j ∧ j < 12 + n then betoh32 e (k (j - 12)) ^^^ betoh32 e (k (j - 8))
  else k j

/-- One pass of the loop. -/
theorem betohStep_betohWords (e : HostOrder) (k : Nat → Word) {n : Nat} (hn : n < 4) :
    betohStep e (betohWords e k n) n = betohWords e k (n + 1) := by
  funext j
  simp only [betohStep, Function.update_apply, betohWords, kl, kr, kb, Nat.zero_add]
  split_ifs <;> first | omega | with_reducible rfl | (congr 2; omega) | (congr 3 <;> omega)

/-- The whole loop. -/
theorem betohLoop_eq (e : HostOrder) (k : Nat → Word) :
    [0, 1, 2, 3].foldl (betohStep e) k = betohWords e k 4 := by
  have h0 : betohWords e k 0 = k := funext fun j => by unfold betohWords; split_ifs <;> first | rfl | omega
  conv_lhs => rw [← h0]
  simp only [List.foldl, betohStep_betohWords e k (by omega : 0 < 4), betohStep_betohWords e k (by omega : 1 < 4),
    betohStep_betohWords e k (by omega : 2 < 4), betohStep_betohWords e k (by omega : 3 < 4)]

/-! ## 2. `KL` and `KR` -/

theorem keyWord_of_lt {key : List Byte} {i : Nat} (h : i < key.length / 4) :
    keyWord .big key i =
      load32Be (key.getD (4 * i) 0) (key.getD (4 * i + 1) 0) (key.getD (4 * i + 2) 0) (key.getD (4 * i + 3) 0) := by
  simp only [keyWord, if_pos h, HostOrder.load]
  rfl

theorem keyWord_of_ge (e : HostOrder) {key : List Byte} {i : Nat} (h : key.length / 4 ≤ i) :
    keyWord e key i = 0 := by
  simp only [keyWord, if_neg (Nat.not_lt.2 h)]

/-- The words of `KL` and `KR` on a big-endian host: the key's, and for a 192-bit key the
    complement of `KR[0]`, `KR[1]` in `KR[2]`, `KR[3]`. -/
theorem keyWords_apply (e : HostOrder) (key : List Byte) (j : Nat) :
    keyWords e key j =
      if key.length = 24 ∧ j = 6 then ~~~keyWord e key 4
      else if key.length = 24 ∧ j = 7 then ~~~keyWord e key 5 else keyWord e key j := by
  simp only [keyWords, kr]
  split_ifs <;> simp_all [Function.update_apply]

theorem betohWords_of_lt (e : HostOrder) (k : Nat → Word) {j : Nat} (hj : j < 8) :
    betohWords e k 4 j = betoh32 e (k j) := by
  simp only [betohWords, if_pos (show j < 4 ∨ (4 ≤ j ∧ j < 4 + 4) by omega)]

/-- **After the first loop the bank `KL` holds the RFC's `KL`.** -/
theorem bank_betohWords_kl (e : HostOrder) {K : List Byte} (hK : KeyLengthOk K) :
    bank (betohWords e (keyWords e K) 4) kl = (keyLR K).1 := by
  have hw : ∀ j < 4, betohWords e (keyWords e K) 4 j =
      load32Be (K.getD (4 * j) 0) (K.getD (4 * j + 1) 0) (K.getD (4 * j + 2) 0) (K.getD (4 * j + 3) 0) := by
    intro j hj
    rw [betohWords_of_lt e _ (by omega), betoh32_keyWords, keyWords_apply, if_neg (by omega), if_neg (by omega),
      keyWord_of_lt (by rcases hK with h | h | h <;> omega)]
  simp only [bank, kl, Nat.zero_add, hw 0 (by omega), hw 1 (by omega), hw 2 (by omega), hw 3 (by omega),
    load32Be_append_load32Be]
  unfold keyLR
  split_ifs <;> rfl

/-- **After the first loop the bank `KR` holds the RFC's `KR`**: zero for a 128-bit key, the last
    64 bits of the key and their complement for a 192-bit key, the last 128 bits for a 256-bit
    key. -/
theorem bank_betohWords_kr (e : HostOrder) {K : List Byte} (hK : KeyLengthOk K) :
    bank (betohWords e (keyWords e K) 4) kr = (keyLR K).2 := by
  have hb : ∀ j, j < 8 → betohWords e (keyWords e K) 4 j = keyWords .big K j := fun j hj => by
    rw [betohWords_of_lt e _ hj, betoh32_keyWords]
  simp only [bank, kr, hb 4 (by omega), hb (4 + 1) (by omega), hb (4 + 2) (by omega),
    hb (4 + 3) (by omega), keyWords_apply, keyLR]
  -- the 192-bit key leaves the complement of its last 64 bits in `KR[2]`, `KR[3]`
  rcases hK with h | h | h <;>
    simp [h, keyWord_of_lt, keyWord_of_ge, load32Be_append_load32Be, bytes128]
  rw [← load32Be_append_load32Be, BitVec.not_append]

theorem bank_betohWords_kb (e : HostOrder) (k : Nat → Word) :
    bank (betohWords e k 4) kb = bank (betohWords e k 4) kl ^^^ bank (betohWords e k 4) kr := by
  simp only [bank, kb, kl, kr, betohWords]
  simp only [Nat.reduceAdd, Nat.reduceLeDiff, Nat.reduceLT, Nat.zero_add, and_self, and_true,
    and_false, or_self, or_false, false_or, if_true, if_false, Nat.reduceSub]
  rw [← BitVec.xor_append, ← BitVec.xor_append, ← BitVec.xor_append]

/-! ## 3. `KA` and `KB` -/

@[simp] theorem hi64_xor (x y : BitVec 128) : hi64 (x ^^^ y) = hi64 x ^^^ hi64 y := extractLsb'_xor x y 64 64

@[simp] theorem lo64_xor (x y : BitVec 128) : lo64 (x ^^^ y) = lo64 x ^^^ lo64 y := extractLsb'_xor x y 0 64

/-- A round on a bank read as 128 bits: `D2 = D2 ^ F(D1, σ)`, then the halves exchanged, as
    `CAMELLIA_ROUND` leaves them. -/
def bankRound (X : BitVec 128) (σ : BitVec 64) : BitVec 128 := (lo64 X ^^^ F (hi64 X) σ) ++ hi64 X

/-- The RFC's `KA` as four bank rounds, `KL` XORed in after the second. -/
theorem keyA_eq (KL KR : BitVec 128) :
    keyA KL KR = bankRound (bankRound (bankRound (bankRound (KL ^^^ KR) (Rfc3713.sigma 1))
      (Rfc3713.sigma 2) ^^^ KL) (Rfc3713.sigma 3)) (Rfc3713.sigma 4) := by
  simp only [keyA, bankRound, hi64_xor, lo64_xor, hi64_append, lo64_append]

/-- The RFC's `KB` as two bank rounds. -/
theorem keyB_eq (KA KR : BitVec 128) :
    keyB KA KR = bankRound (bankRound (KA ^^^ KR) (Rfc3713.sigma 5)) (Rfc3713.sigma 6) := by
  simp only [keyB, bankRound, hi64_append, lo64_append]

theorem bank_setBank_self (k : Nat → Word) (b : Nat) (v : Fin 4 → Word) :
    bank (setBank k b v) b = (v 0 ++ v 1) ++ (v 2 ++ v 3) := by
  simp only [bank, setBank]
  rw [dif_pos (by omega), dif_pos (by omega), dif_pos (by omega), dif_pos (by omega)]
  congr <;> simp

theorem bank_setBank_of_disjoint (k : Nat → Word) {b c : Nat} (h : c + 4 ≤ b ∨ b + 4 ≤ c) (v : Fin 4 → Word) :
    bank (setBank k b v) c = bank k c := by
  simp only [bank, setBank]
  rw [dif_neg (by omega), dif_neg (by omega), dif_neg (by omega), dif_neg (by omega)]

theorem xorBank_append (k : Nat → Word) (b c : Nat) :
    (xorBank k b c 0 ++ xorBank k b c 1) ++ (xorBank k b c 2 ++ xorBank k b c 3) = bank k b ^^^ bank k c := by
  simp only [bank, xorBank]
  rw [BitVec.xor_append, BitVec.xor_append, BitVec.xor_append]
  rfl

theorem getBank_append (k : Nat → Word) (b : Nat) :
    (getBank k b 0 ++ getBank k b 1) ++ (getBank k b 2 ++ getBank k b 3) = bank k b := rfl

/-- The words after the round of a pass of the second loop, before its XOR and its copy. -/
def roundBank (k : Nat → Word) (i : Nat) : Nat → Word :=
  let s := camelliaRound ⟨k kb, k (kb + 1), k (kb + 2), k (kb + 3)⟩ (sigma.getD (2 * i) 0)
    (sigma.getD (2 * i + 1) 0)
  setBank k kb fun j => [s.left1, s.left2, s.right1, s.right2].getD j.val 0

theorem kaKbStep_eq (k : Nat → Word) (i : Nat) :
    kaKbStep k i =
      if i = 1 then setBank (roundBank k i) kb (xorBank (roundBank k i) kb kl)
      else if i = 3 then
        setBank (setBank (roundBank k i) ka (getBank (roundBank k i) kb)) kb
          (xorBank (setBank (roundBank k i) ka (getBank (roundBank k i) kb)) kb kr)
      else roundBank k i := rfl

/-- The round of a pass is a bank round on `KB` with `Σ(i + 1)`. -/
theorem bank_roundBank_kb (k : Nat → Word) {i : Nat} (hi : i < 6) :
    bank (roundBank k i) kb = bankRound (bank k kb) (Rfc3713.sigma (i + 1)) := by
  rw [roundBank, bank_setBank_self, bankRound, ← sigma_eq i hi]
  show (FeistelState.left _ ++ FeistelState.right _ : BitVec 128) = _
  rw [left_camelliaRound, right_camelliaRound]
  simp only [hi64_bank, lo64_bank, FeistelState.left, FeistelState.right]

theorem bank_roundBank_of_ne (k : Nat → Word) (i : Nat) {c : Nat} (hc : c + 4 ≤ kb) :
    bank (roundBank k i) c = bank k c :=
  bank_setBank_of_disjoint k (.inl hc) _

/-- **One pass of the loop that makes `KA` and `KB`**, on the banks read as 128 bits. -/
theorem bank_kaKbStep (k : Nat → Word) {i : Nat} (hi : i < 6) :
    bank (kaKbStep k i) kl = bank k kl ∧ bank (kaKbStep k i) kr = bank k kr ∧
      bank (kaKbStep k i) ka =
        (if i = 3 then bankRound (bank k kb) (Rfc3713.sigma (i + 1)) else bank k ka) ∧
      bank (kaKbStep k i) kb =
        (if i = 1 then bankRound (bank k kb) (Rfc3713.sigma (i + 1)) ^^^ bank k kl
        else if i = 3 then bankRound (bank k kb) (Rfc3713.sigma (i + 1)) ^^^ bank k kr
        else bankRound (bank k kb) (Rfc3713.sigma (i + 1))) := by
  have hR := bank_roundBank_kb k hi
  rw [kaKbStep_eq]
  -- the passes `i = 1` and `i = 3` XOR a bank in, and the fourth also copies `KB` to `KA`
  rcases (by omega : i = 1 ∨ i = 3 ∨ (i ≠ 1 ∧ i ≠ 3)) with rfl | rfl | ⟨h1, h3⟩ <;>
    simp (disch := first | decide | assumption) only [if_pos, if_neg, bank_setBank_self,
      xorBank_append, getBank_append, hR, bank_setBank_of_disjoint, bank_roundBank_of_ne, and_self]

/-- **The second loop leaves the RFC's `KA` and `KB` in their banks**, and `KL`, `KR` as they
    were, when it starts from `KB = KL ^ KR`. -/
theorem bank_kaKbLoop (k : Nat → Word) (h : bank k kb = bank k kl ^^^ bank k kr) :
    bank ([0, 1, 2, 3, 4, 5].foldl kaKbStep k) kl = bank k kl ∧
      bank ([0, 1, 2, 3, 4, 5].foldl kaKbStep k) kr = bank k kr ∧
      bank ([0, 1, 2, 3, 4, 5].foldl kaKbStep k) ka = keyA (bank k kl) (bank k kr) ∧
      bank ([0, 1, 2, 3, 4, 5].foldl kaKbStep k) kb = keyB (keyA (bank k kl) (bank k kr)) (bank k kr) := by
  obtain ⟨l0, r0, -, b0⟩ := bank_kaKbStep k (i := 0) (by omega)
  obtain ⟨l1, r1, -, b1⟩ := bank_kaKbStep (kaKbStep k 0) (i := 1) (by omega)
  obtain ⟨l2, r2, -, b2⟩ := bank_kaKbStep (kaKbStep (kaKbStep k 0) 1) (i := 2) (by omega)
  obtain ⟨l3, r3, a3, b3⟩ := bank_kaKbStep (kaKbStep (kaKbStep (kaKbStep k 0) 1) 2) (i := 3) (by omega)
  obtain ⟨l4, r4, a4, b4⟩ :=
    bank_kaKbStep (kaKbStep (kaKbStep (kaKbStep (kaKbStep k 0) 1) 2) 3) (i := 4) (by omega)
  obtain ⟨l5, r5, a5, b5⟩ :=
    bank_kaKbStep (kaKbStep (kaKbStep (kaKbStep (kaKbStep (kaKbStep k 0) 1) 2) 3) 4) (i := 5) (by omega)
  simp only [List.foldl, l5, r5, a5, b5, l4, r4, a4, b4, a3, l3, r3, b3, l2, r2, b2, l1, r1, b1, l0, r0,
    b0, h, keyA_eq, keyB_eq, if_true, if_false, Nat.reduceEqDiff, Nat.reduceAdd, and_self]

/-! ## 4. The subkeys -/

theorem tableSubkeys_ks1 (X : Nat → BitVec 128) : tableSubkeys X ks1 = subkeys128 (X kl) (X ka) := rfl

theorem tableSubkeys_ks2 (X : Nat → BitVec 128) :
    tableSubkeys X ks2 = subkeys256 (X kl) (X kr) (X ka) (X kb) := rfl

/-- The banks after the two loops, from the key alone. -/
theorem camelliaExpand_banks (e : HostOrder) (ctx : CamelliaContext) {K : List Byte}
    (hK : KeyLengthOk K) (nr : Nat) :
    let k := (camelliaExpand e ctx K nr).k
    bank k kl = (keyLR K).1 ∧ bank k kr = (keyLR K).2 ∧ bank k ka = keyA (keyLR K).1 (keyLR K).2 ∧
      bank k kb = keyB (keyA (keyLR K).1 (keyLR K).2) (keyLR K).2 := by
  have h := bank_kaKbLoop (betohWords e (keyWords e K) 4) (bank_betohWords_kb e _)
  rw [bank_betohWords_kl e hK, bank_betohWords_kr e hK, ← betohLoop_eq, ← camelliaExpand_k e ctx K nr] at h
  exact h

/-- **The subkeys the words of `ks` hold after `camelliaExpand` are the RFC's schedule**, on every
    host, whatever `ks` held before. -/
theorem camelliaExpand_subkeySeq (e : HostOrder) (ctx : CamelliaContext) {K : List Byte}
    (hK : KeyLengthOk K) (nr : Nat) :
    ∀ j ≤ 8 * (schedule K).2 + 1, subkeySeq (camelliaExpand e ctx K nr).ks j = (schedule K).1 j := by
  intro j hj
  obtain ⟨hl, hr, ha, hb⟩ := camelliaExpand_banks e ctx hK nr
  rw [subkeySeq, camelliaExpand_ks]
  by_cases h16 : K.length = 16
  · have hs : schedule K = (fun j => (subkeys128 (keyLR K).1 (keyA (keyLR K).1 (keyLR K).2)).getD j 0, 3) := by
      simp only [schedule, if_pos h16]
    rw [hs] at hj ⊢
    rw [if_pos h16, subkeyLoop_pairs _ ks1_wellFormed _ (by simp only [ks1, List.length_cons, List.length_nil]; omega),
      tableSubkeys_ks1, hl, ha]
  · have hs : schedule K = (fun j => (subkeys256 (keyLR K).1 (keyLR K).2 (keyA (keyLR K).1 (keyLR K).2)
        (keyB (keyA (keyLR K).1 (keyLR K).2) (keyLR K).2)).getD j 0, 4) := by
      simp only [schedule, if_neg h16]
    rw [hs] at hj ⊢
    rw [if_neg h16, subkeyLoop_pairs _ ks2_wellFormed _ (by simp only [ks2, List.length_cons, List.length_nil]; omega),
      tableSubkeys_ks2, hl, hr, ha, hb]

/-! ## 5. The host's byte order -/

/-- The words after the first loop do not depend on the host, for a key of at most 256 bits. -/
theorem betohWords_host (e : HostOrder) {K : List Byte} (hK : K.length ≤ 32) :
    betohWords e (keyWords e K) 4 = betohWords .big (keyWords .big K) 4 := by
  funext j
  simp only [betohWords, betoh32_keyWords]
  split_ifs with h1 h2
  · rfl
  · rfl
  · simp only [keyWords_apply, if_neg (show ¬(K.length = 24 ∧ j = 6) by omega),
      if_neg (show ¬(K.length = 24 ∧ j = 7) by omega), keyWord_of_ge _ (show K.length / 4 ≤ j by omega)]

/-- **`camelliaInit` builds the same context on a little-endian and on a big-endian host**:
    `betoh32` undoes the host order `osMemcpy` left the key words in. -/
theorem camelliaInit_host (e : HostOrder) (ctx : CamelliaContext) (K : List Byte) :
    camelliaInit e ctx K = camelliaInit .big ctx K := by
  have hexp : ∀ nr, K.length ≤ 32 → camelliaExpand e ctx K nr = camelliaExpand .big ctx K nr := by
    intro nr hK
    have hk : (camelliaExpand e ctx K nr).k = (camelliaExpand .big ctx K nr).k := by
      rw [camelliaExpand_k, camelliaExpand_k, betohLoop_eq, betohLoop_eq, betohWords_host e hK]
    calc camelliaExpand e ctx K nr
        = ⟨nr, (camelliaExpand e ctx K nr).k,
            subkeyLoop (camelliaExpand e ctx K nr).k (if K.length = 16 then ks1 else ks2) ctx.ks⟩ := rfl
      _ = ⟨nr, (camelliaExpand .big ctx K nr).k,
            subkeyLoop (camelliaExpand .big ctx K nr).k (if K.length = 16 then ks1 else ks2) ctx.ks⟩ := by
          rw [hk]
      _ = camelliaExpand .big ctx K nr := rfl
  unfold camelliaInit
  split_ifs with h1 h2
  · rw [hexp 18 (by omega)]
  · rw [hexp 24 (by omega)]
  · rfl

end CycloneCrypto.Camellia
