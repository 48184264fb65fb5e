import CycloneCrypto.Aes.Cipher
import CycloneCrypto.Aes.SBox
import CycloneCrypto.Fips197.Cipher
import Mathlib.Tactic.IntervalCases

/-!
# The key schedule of `aesInit` against FIPS 197

`aesInit` computes on `uint32_t` words; FIPS 197 on words of four bytes. The bytes a word
occupies in memory (`HostOrder.store`) carry one to the other, and on a little-endian host each
operation of the loop is the operation of the standard:

* `store_subWord` -- `subWord` substitutes the four bytes in memory, on either host;
* `store_rotWord_little`, `store_rcon_little` -- `ROR32(w, 8)` moves the byte at the lowest
  address to the highest, and `rcon[j]` holds `{02}^(j-1)` at the lowest address, both only where
  the least significant byte comes first;
* `store_expandStep` -- on either host a pass of the loop is a pass of Fig. 11
  (`expandWordWith`) with the byte images of `ROR32(w, 8)` and of `rcon` in place of `RotWord()`
  and `Rcon`;
* `aesInit_w` -- the context after an accepted key; `aesInit_w_agree` -- two runs of `aesInit`
  from different contexts write the same words `w[0 .. 4 (nr + 1))`;
* `store_aesInit` -- by simulation of the loop, the schedule's bytes are the byte-level loop;
  `store_aesInit_little` -- on a little-endian host that loop is `KeyExpansion`;
  **`aesInit_keySchedule`** -- the loop invariant, word by word;
* `store_aesInit_big` -- on a big-endian host it is `keyExpansionBig`, Fig. 11 with `RotWord()`
  turned the other way and `Rcon[j]` in the last byte; `aesInit_big_endian_w4` -- the two differ
  at the zero key's `w[4]`.
-/

namespace CycloneCrypto.Aes

open Fips197

/-! ## 1. The operations of the loop, byte by byte -/

theorem store_subWord (e : HostOrder) (w : Word) :
    e.store (subWord e w) = Fips197.subWord (e.store w) := by
  funext k
  simp only [subWord, HostOrder.store_load, lookup_sbox, Fips197.subWord]

theorem store_rotWord_little (w : Word) :
    HostOrder.little.store (rotWord w) = Fips197.rotWord (HostOrder.little.store w) := by
  funext k
  fin_cases k <;> ext i <;>
    simp (disch := omega) [HostOrder.store, byteOf, rotWord, ror32, Fips197.rotWord, i.isLt,
      decide_eq_true, decide_eq_false] <;> congr 1 <;> omega

theorem store_rcon_little {j : Nat} (h₁ : 1 ≤ j) (h₂ : j ≤ 10) :
    HostOrder.little.store (rcon.getD j 0) = Fips197.rcon j := by
  funext k
  interval_cases j <;> fin_cases k <;> decide

theorem store_wordXor (e : HostOrder) (a b : Word) :
    e.store (a ^^^ b) = wordXor (e.store a) (e.store b) :=
  funext (HostOrder.store_xor e a b)

/-- Pass `i` of Fig. 11 with `rot` in place of `RotWord()` and `rc j` in place of `Rcon[j]`. -/
def expandWordWith (rot : ByteWord → ByteWord) (rc : Nat → ByteWord) (nk i : Nat) (w : Nat → ByteWord) :
    ByteWord :=
  let temp := w (i - 1)
  let temp :=
    if i % nk = 0 then wordXor (Fips197.subWord (rot temp)) (rc (i / nk))
    else if nk > 6 ∧ i % nk = 4 then Fips197.subWord temp
    else temp
  wordXor (w (i - nk)) temp

theorem expandWordWith_readsBelow (rot : ByteWord → ByteWord) (rc : Nat → ByteWord) {nk : Nat}
    (h : 0 < nk) : ReadsBelow (expandWordWith rot rc nk) nk := by
  intro j hj w v hwv
  simp only [expandWordWith, hwv (j - nk) (by omega), hwv (j - 1) (by omega)]

/-- **One pass of the loop, read in memory, is one pass of Fig. 11** with the byte images of
    `ROR32(w, 8)` and of the `rcon` words on the host, at every index of the loop of a key of
    `Nk ≥ 4` words; there `i / Nk` lies in `1 … 10`. -/
theorem store_expandStep (e : HostOrder) {rot : ByteWord → ByteWord} {rc : Nat → ByteWord}
    (hrot : ∀ w, e.store (rotWord w) = rot (e.store w))
    (hrc : ∀ j, 1 ≤ j → j ≤ 10 → e.store (rcon.getD j 0) = rc j)
    {nk i : Nat} (hnk : 4 ≤ nk) (hi : nk ≤ i) (hi' : i < 4 * (nk + 7)) (w : Nat → Word) :
    e.store (expandStep e nk i w) = expandWordWith rot rc nk i (e.store ∘ w) := by
  have hr₁ : 1 ≤ i / nk := (Nat.le_div_iff_mul_le (by omega)).2 (by omega)
  have hr₂ : i / nk < 11 := (Nat.div_lt_iff_lt_mul (by omega)).2 (by omega)
  simp only [expandStep, expandTemp, expandWordWith, Function.comp]
  split_ifs <;> simp only [store_wordXor, store_subWord, hrot, hrc _ hr₁ (Nat.le_of_lt_succ hr₂)]

/-- **On a little-endian host one pass of the loop is one pass of Fig. 11.** -/
theorem store_expandStep_little {nk i : Nat} (hnk : 4 ≤ nk) (hi : nk ≤ i) (hi' : i < 4 * (nk + 7))
    (w : Nat → Word) :
    HostOrder.little.store (expandStep .little nk i w) = expandWord nk i (HostOrder.little.store ∘ w) :=
  store_expandStep .little store_rotWord_little (fun _ => store_rcon_little) hnk hi hi' w

/-! ## 2. The schedule `aesInit` builds -/

theorem expandStep_readsBelow (e : HostOrder) {nk : Nat} (h : 0 < nk) :
    ReadsBelow (expandStep e nk) nk := by
  intro j hj w v hwv
  simp only [expandStep, hwv (j - nk) (by omega), hwv (j - 1) (by omega)]

/-- The schedule of an accepted key: the key's words over the old ones, then the loop. -/
theorem aesInit_w (e : HostOrder) (ctx : AesContext) {K : List Byte} (hK : KeyLengthOk K) :
    (aesInit e ctx K).2.w = keyExpansion e (K.length / 4) (4 * (K.length / 4 + 7) - K.length / 4)
      (K.length / 4) (fun i => if i < K.length / 4 then e.load (fun j => K.getD (4 * i + j) 0)
        else ctx.w i) := by
  rw [aesInit_of_ok e ctx hK]; rfl

/-- **Whatever the context held, `aesInit` writes the same words `w[0 .. 4 (nr + 1))`.** -/
theorem aesInit_w_agree (e : HostOrder) (c₁ c₂ : AesContext) {K : List Byte} (hK : KeyLengthOk K) :
    ∀ i < 4 * (K.length / 4 + 7), (aesInit e c₁ K).2.w i = (aesInit e c₂ K).2.w i := by
  have hnk : 4 ≤ K.length / 4 := by have := hK.nk_cases; omega
  intro i hi
  rw [aesInit_w e c₁ hK, aesInit_w e c₂ hK, keyExpansion]
  exact writeLoop_agree _ (expandStep_readsBelow e (by omega)) _
    (fun k hk => by simp only [hk, if_true]) i (by omega)

/-! ## 3. The bytes of the schedule -/

/-- **The bytes of the schedule, on either host**: when the bytes in memory carry every pass of
    the loop to a pass `g` over FIPS 197 words, the bytes of `w[0 .. 4 (Nr + 1))` are the loop over
    `g` from the key's bytes. -/
theorem store_aesInit (e : HostOrder) (ctx : AesContext) {K : List Byte} (hK : KeyLengthOk K)
    {g : Nat → (Nat → ByteWord) → ByteWord} (hg : ReadsBelow g (K.length / 4))
    (hstep : ∀ i, K.length / 4 ≤ i → i < 4 * (K.length / 4 + 7) →
      ∀ w, e.store (expandStep e (K.length / 4) i w) = g i (e.store ∘ w)) :
    ∀ i < 4 * (K.length / 4 + 7), e.store ((aesInit e ctx K).2.w i) =
      writeLoop g (4 * (K.length / 4 + 7) - K.length / 4) (K.length / 4)
        (fun i k => K.getD (4 * i + k.val) 0) i := by
  intro i hi
  have hsim := congrFun (writeLoop_map (expandStep e (K.length / 4)) g e.store
    (4 * (K.length / 4 + 7) - K.length / 4) (K.length / 4) (fun j hj hjn w => hstep j hj (by omega) w)
    (fun i => if i < K.length / 4 then e.load (fun j => K.getD (4 * i + j) 0) else ctx.w i)) i
  rw [Function.comp_apply] at hsim
  rw [aesInit_w e ctx hK, keyExpansion, hsim]
  exact writeLoop_agree _ hg _
    (fun k hk => by simp only [Function.comp, hk, if_true, HostOrder.store_load]) i (by omega)

/-- **On a little-endian host the bytes of `w[0 .. 4 (Nr + 1))` are the words of
    `KeyExpansion`.** -/
theorem store_aesInit_little (ctx : AesContext) {K : List Byte} (hK : KeyLengthOk K) :
    ∀ i < 4 * (K.length / 4 + 7), HostOrder.little.store ((aesInit .little ctx K).2.w i) =
      Fips197.keyExpansion K (K.length / 4) (rounds (K.length / 4)) i := by
  have hnk : 4 ≤ K.length / 4 := by have := hK.nk_cases; omega
  exact store_aesInit .little ctx hK (expandWord_readsBelow (by omega))
    fun i hi hi' w => store_expandStep_little hnk hi hi' w

/-- **The loop invariant of `aesInit` on a little-endian host**: read as FIPS 197 words, the
    schedule holds the key in `w[0 .. Nk)`, and every later word up to `4 (Nr + 1)` is
    `w[i - Nk] ⊕ temp` with `temp` as Fig. 11 computes it from `w[i - 1]`; the index `i / Nk`
    into `rcon` lies in `1 … 10`. -/
theorem aesInit_keySchedule (ctx : AesContext) (K : List Byte) (hK : KeyLengthOk K) :
    let nk := K.length / 4
    let r := aesInit .little ctx K
    let W : Nat → ByteWord := fun i => HostOrder.little.store (r.2.w i)
    r.1 = .noError ∧ r.2.nr = nk + 6 ∧
    (∀ i < nk, ∀ j : Fin 4, W i j = K.getD (4 * i + j) 0) ∧
    (∀ i, nk ≤ i → i < 4 * (r.2.nr + 1) →
      1 ≤ i / nk ∧ i / nk ≤ 10 ∧
      W i = wordXor (W (i - nk))
        (if i % nk = 0 then wordXor (Fips197.subWord (Fips197.rotWord (W (i - 1)))) (Fips197.rcon (i / nk))
         else if nk = 8 ∧ i % nk = 4 then Fips197.subWord (W (i - 1)) else W (i - 1))) := by
  intro nk r W
  have hcases := hK.nk_cases
  have hr : r = (.noError, aesExpand .little ctx K (nk + 6)) := aesInit_of_ok _ _ hK
  have hw := aesInit_w .little ctx hK
  refine ⟨by rw [hr], by rw [hr]; rfl, fun i hi j => ?_, fun i hi hi' => ?_⟩
  · simp only [W, r, hw, keyExpansion, writeLoop_of_lt _ _ _ _ hi, hi, if_true, HostOrder.store_load]
  · have hnr : r.2.nr = nk + 6 := by rw [hr]; rfl
    rw [hnr] at hi'
    refine ⟨(Nat.le_div_iff_mul_le (by omega)).2 (by omega),
      Nat.le_of_lt_succ ((Nat.div_lt_iff_lt_mul (by omega)).2 (by omega)), ?_⟩
    have h8 : nk > 6 ↔ nk = 8 := by omega
    simp only [W, r, hw, keyExpansion]
    rw [writeLoop_eq _ (expandStep_readsBelow .little (by omega)) _ _ hi (by omega),
      store_expandStep_little (by omega) hi (by omega)]
    simp only [expandWord, h8, Function.comp]

theorem aesInit_keySchedule_zeroKey :
    KeyLengthOk (List.replicate 16 0) ∧
      (aesInit .little ⟨0, fun _ => 0⟩ (List.replicate 16 0)).2.nr = (List.replicate 16 (0 : Byte)).length / 4 + 6 :=
  ⟨by decide, (aesInit_keySchedule ⟨0, fun _ => 0⟩ (List.replicate 16 0) (by decide)).2.1⟩

/-! ## 4. On a big-endian host -/

/-- The bytes `ROR32(w, 8)` leaves in memory on a big-endian host: `[a₀, a₁, a₂, a₃]` becomes
    `[a₃, a₀, a₁, a₂]`, `RotWord()` the other way round. -/
def rotWordBig (a : ByteWord) : ByteWord := fun k => a (k - 1)

/-- The bytes of `rcon[j]` in memory on a big-endian host: `{02}^(j-1)` in the last byte. -/
def rconBig (j : Nat) : ByteWord := fun k => if k = 3 then xtime^[j - 1] 1 else 0

/-- The schedule a big-endian host builds, as FIPS 197 words: Fig. 11 with `rotWordBig` and
    `rconBig` in place of `RotWord()` and `Rcon[i / Nk]`. -/
def keyExpansionBig (key : List Byte) (nk nr : Nat) : Nat → ByteWord :=
  writeLoop (expandWordWith rotWordBig rconBig nk) (4 * (nr + 1) - nk) nk
    fun i k => key.getD (4 * i + k.val) 0

theorem store_rotWord_big (w : Word) :
    HostOrder.big.store (rotWord w) = rotWordBig (HostOrder.big.store w) := by
  funext k
  fin_cases k <;> ext i <;>
    simp (disch := omega) [HostOrder.store, byteOf, rotWord, ror32, rotWordBig, i.isLt,
      decide_eq_true, decide_eq_false] <;> congr 1 <;> omega

theorem store_rcon_big {j : Nat} (h₁ : 1 ≤ j) (h₂ : j ≤ 10) :
    HostOrder.big.store (rcon.getD j 0) = rconBig j := by
  funext k
  interval_cases j <;> fin_cases k <;> decide

/-- **On a big-endian host the bytes of `w[0 .. 4 (Nr + 1))` are the words of
    `keyExpansionBig`.** -/
theorem store_aesInit_big (ctx : AesContext) {K : List Byte} (hK : KeyLengthOk K) :
    ∀ i < 4 * (K.length / 4 + 7), HostOrder.big.store ((aesInit .big ctx K).2.w i) =
      keyExpansionBig K (K.length / 4) (rounds (K.length / 4)) i := by
  have hnk : 4 ≤ K.length / 4 := by have := hK.nk_cases; omega
  exact store_aesInit .big ctx hK (expandWordWith_readsBelow _ _ (by omega))
    fun i hi hi' w => store_expandStep .big store_rotWord_big (fun _ => store_rcon_big) hnk hi hi' w

/-- **On a big-endian host the schedule is not that of FIPS 197**: under the all-zero 128-bit key,
    `w[4]` is `62 63 63 63` in FIPS 197 and in memory on a little-endian host, but `63 63 63 62`
    in memory on a big-endian one -- `ROR32(w, 8)` and the `rcon` words move the wrong bytes. -/
theorem aesInit_big_endian_w4 :
    List.ofFn (Fips197.keyExpansion (List.replicate 16 0) 4 10 4) = [0x62, 0x63, 0x63, 0x63] ∧
    List.ofFn (HostOrder.little.store ((aesInit .little ⟨0, fun _ => 0⟩ (List.replicate 16 0)).2.w 4)) =
      [0x62, 0x63, 0x63, 0x63] ∧
    List.ofFn (HostOrder.big.store ((aesInit .big ⟨0, fun _ => 0⟩ (List.replicate 16 0)).2.w 4)) =
      [0x63, 0x63, 0x63, 0x62] := by
  decide

end CycloneCrypto.Aes
