import CycloneCrypto.Fips197.Field
import CycloneCrypto.Loop

/-!
# The cipher of FIPS 197

The reference the code is compared with, written from the standard's pseudo code (Fig. 5, 11,
12) over its own representations: the state is a 4 × 4 array of bytes `s r c` (§3.4), a word is
four bytes `[a₀, a₁, a₂, a₃]` (§3.1, `ByteWord`), and every product is the field arithmetic of
`Field`.

* `subBytes`, `shiftRows`, `mixColumns`, `addRoundKey` and their inverses -- (5.1) to (5.11);
* `keyExpansion` -- Fig. 11: the key's words, then `w[i] = w[i - Nk] ⊕ temp` with `RotWord`,
  `SubWord` and `Rcon[i / Nk] = [x^(i/Nk - 1), {00}, {00}, {00}]`;
* `cipher`, `invCipher` -- Fig. 5 and Fig. 12, over an expanded key `w`;
* `encrypt`, `decrypt` -- the two under a key of `Nk = 4, 6, 8` words, `Nr = Nk + 6` rounds
  (Fig. 4).
-/

namespace CycloneCrypto.Fips197

/-- A word as FIPS 197 writes it: the four bytes `[a₀, a₁, a₂, a₃]`. -/
abbrev ByteWord := Fin 4 → Byte

/-- The state: `s r c` is the byte in row `r` and column `c`. -/
abbrev State := Fin 4 → Fin 4 → Byte

/-- The word sum `a ⊕ b`, byte by byte. -/
def wordXor (a b : ByteWord) : ByteWord := fun k => a k ^^^ b k

/-! ## 1. The state and its transformations -/

/-- The input bytes into the state: `s[r, c] = in[r + 4c]` (3.3). -/
def ofBlock (b : Fin 16 → Byte) : State := fun r c => b ⟨r.val + 4 * c.val, by omega⟩

/-- The state into the output bytes: `out[r + 4c] = s[r, c]` (3.4). -/
def toBlock (s : State) : Fin 16 → Byte :=
  fun k => s ⟨k.val % 4, Nat.mod_lt _ (by omega)⟩ ⟨k.val / 4, by omega⟩

/-- `SubBytes()`: the S-box on every byte (§5.1.1). -/
def subBytes (s : State) : State := fun r c => subByte (s r c)

/-- `ShiftRows()`: `s'[r, c] = s[r, (c + shift(r, 4)) mod 4]` with `shift(r, 4) = r` (5.3). -/
def shiftRows (s : State) : State := fun r c => s r (c + r)

/-- `MixColumns()`: every column times `a(x)` modulo `x⁴ + 1` (5.6). -/
def mixColumns (s : State) : State := fun r c => wordMul mixPoly (fun k => s k c) r

/-- `AddRoundKey()`: column `c` plus the word `w c` (5.7). -/
def addRoundKey (s : State) (w : Fin 4 → ByteWord) : State := fun r c => s r c ^^^ w c r

/-- `InvShiftRows()`: `s'[r, (c + shift(r, 4)) mod 4] = s[r, c]` (5.8). -/
def invShiftRows (s : State) : State := fun r c => s r (c - r)

/-- `InvSubBytes()`: the inverse S-box on every byte (§5.3.2). -/
def invSubBytes (s : State) : State := fun r c => invSubByte (s r c)

/-- `InvMixColumns()`: every column times `a⁻¹(x)` modulo `x⁴ + 1` (5.9). -/
def invMixColumns (s : State) : State := fun r c => wordMul invMixPoly (fun k => s k c) r

/-! ## 2. Key expansion (§5.2) -/

/-- `SubWord()`: the S-box on each of the four bytes. -/
def subWord (a : ByteWord) : ByteWord := fun k => subByte (a k)

/-- `RotWord()`: `[a₀, a₁, a₂, a₃]` to `[a₁, a₂, a₃, a₀]`. -/
def rotWord (a : ByteWord) : ByteWord := fun k => a (k + 1)

/-- `Rcon[j] = [x^(j-1), {00}, {00}, {00}]`, the powers of `x = {02}` in GF(2⁸). -/
def rcon (j : Nat) : ByteWord := fun k => if k = 0 then xtime^[j - 1] 1 else 0

/-- The body of the second loop of Fig. 11 at index `i`. -/
def expandWord (nk i : Nat) (w : Nat → ByteWord) : ByteWord :=
  let temp := w (i - 1)
  let temp :=
    if i % nk = 0 then wordXor (subWord (rotWord temp)) (rcon (i / nk))
    else if nk > 6 ∧ i % nk = 4 then subWord temp
    else temp
  wordXor (w (i - nk)) temp

theorem expandWord_readsBelow {nk : Nat} (h : 0 < nk) : ReadsBelow (expandWord nk) nk := by
  intro j hj w v hwv
  simp only [expandWord, hwv (j - nk) (by omega), hwv (j - 1) (by omega)]

/-- `KeyExpansion(key, w, Nk)` (Fig. 11): `w[i] = word(key[4i], …, key[4i+3])` for `i < Nk`, then
    the loop `while (i < Nb * (Nr+1))`. -/
def keyExpansion (key : List Byte) (nk nr : Nat) : Nat → ByteWord :=
  writeLoop (expandWord nk) (4 * (nr + 1) - nk) nk fun i k => key.getD (4 * i + k.val) 0

/-! ## 3. The cipher and its inverse -/

/-- `w[round*Nb, (round+1)*Nb-1]`: the four words of the round key of `round`. -/
def roundKey (w : Nat → ByteWord) (round : Nat) : Fin 4 → ByteWord := fun c => w (4 * round + c.val)

theorem roundKey_eq (w : Nat → ByteWord) (round : Nat) :
    roundKey w round = fun c => w (4 * round + c.val) := rfl

/-- The rounds `1 … n` of `Cipher()`, in order. -/
def cipherRounds (w : Nat → ByteWord) : Nat → State → State
  | 0, s => s
  | n + 1, s => addRoundKey (mixColumns (shiftRows (subBytes (cipherRounds w n s)))) (roundKey w (n + 1))

/-- `Cipher(in, out, w)` with `Nr` rounds (Fig. 5). -/
def cipher (nr : Nat) (w : Nat → ByteWord) (input : Fin 16 → Byte) : Fin 16 → Byte :=
  let state := ofBlock input
  let state := addRoundKey state (roundKey w 0)
  let state := cipherRounds w (nr - 1) state
  let state := shiftRows (subBytes state)
  toBlock (addRoundKey state (roundKey w nr))

/-- The rounds `n … 1` of `InvCipher()`, `n` first. -/
def invCipherRounds (w : Nat → ByteWord) : Nat → State → State
  | 0, s => s
  | n + 1, s =>
    invCipherRounds w n (invMixColumns (addRoundKey (invSubBytes (invShiftRows s)) (roundKey w (n + 1))))

/-- `InvCipher(in, out, w)` with `Nr` rounds (Fig. 12). -/
def invCipher (nr : Nat) (w : Nat → ByteWord) (input : Fin 16 → Byte) : Fin 16 → Byte :=
  let state := ofBlock input
  let state := addRoundKey state (roundKey w nr)
  let state := invCipherRounds w (nr - 1) state
  let state := invSubBytes (invShiftRows state)
  toBlock (addRoundKey state (roundKey w 0))

/-- The number of rounds for a key of `Nk` words (Fig. 4): 10, 12 or 14. -/
def rounds (nk : Nat) : Nat := nk + 6

/-- AES encryption of a block under `key`. -/
def encrypt (key : List Byte) (input : Fin 16 → Byte) : Fin 16 → Byte :=
  let nk := key.length / 4
  cipher (rounds nk) (keyExpansion key nk (rounds nk)) input

/-- AES decryption of a block under `key`. -/
def decrypt (key : List Byte) (input : Fin 16 → Byte) : Fin 16 → Byte :=
  let nk := key.length / 4
  invCipher (rounds nk) (keyExpansion key nk (rounds nk)) input

/-! ## 4. What the reference reads -/

/-- Expanded keys that agree on the words of rounds `0 … n` give the same rounds. -/
theorem cipherRounds_congr {w w' : Nat → ByteWord} (n : Nat)
    (h : ∀ i < 4 * (n + 1), w i = w' i) (s : State) : cipherRounds w n s = cipherRounds w' n s := by
  induction n with
  | zero => rfl
  | succ n ih =>
    have hk : roundKey w (n + 1) = roundKey w' (n + 1) := funext fun c => h _ (by omega)
    rw [cipherRounds, cipherRounds, ih fun i hi => h i (by omega), hk]

theorem invCipherRounds_congr {w w' : Nat → ByteWord} (n : Nat)
    (h : ∀ i < 4 * (n + 1), w i = w' i) (s : State) :
    invCipherRounds w n s = invCipherRounds w' n s := by
  induction n generalizing s with
  | zero => rfl
  | succ n ih =>
    have hk : roundKey w (n + 1) = roundKey w' (n + 1) := funext fun c => h _ (by omega)
    rw [invCipherRounds, invCipherRounds, ih fun i hi => h i (by omega), hk]

/-- **`Cipher()` reads only the words `w[0 .. 4 (Nr + 1))`.** -/
theorem cipher_congr {nr : Nat} {w w' : Nat → ByteWord} (h : ∀ i < 4 * (nr + 1), w i = w' i) :
    cipher nr w = cipher nr w' := by
  have hk : ∀ r ≤ nr, roundKey w r = roundKey w' r := fun r hr => funext fun c => h _ (by omega)
  funext input
  simp only [cipher, hk 0 (Nat.zero_le _), hk nr le_rfl,
    cipherRounds_congr (nr - 1) (fun i hi => h i (by omega))]

theorem invCipher_congr {nr : Nat} {w w' : Nat → ByteWord} (h : ∀ i < 4 * (nr + 1), w i = w' i) :
    invCipher nr w = invCipher nr w' := by
  have hk : ∀ r ≤ nr, roundKey w r = roundKey w' r := fun r hr => funext fun c => h _ (by omega)
  funext input
  simp only [invCipher, hk 0 (Nat.zero_le _), hk nr le_rfl,
    invCipherRounds_congr (nr - 1) (fun i hi => h i (by omega))]

end CycloneCrypto.Fips197
