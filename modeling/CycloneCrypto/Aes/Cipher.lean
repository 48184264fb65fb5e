import CycloneCrypto.Aes.Transform
import CycloneCrypto.Loop

/-!
# `aesInit`, `aesEncryptBlock`, `aesDecryptBlock`

The three functions of `aes.c` that the descriptor `aesCipherAlgo` exports, on a host of byte
order `e`:

* `aesInit` -- the round count from the key length, the key copied into the schedule, then the
  expansion loop (`keyExpansion`), one pass per word;
* `aesEncryptBlock` -- the initial `addRoundKey`, the loop `for(i = 1; i < nr; i++)`
  (`encryptRounds`, its passes in order) and the last round;
* `aesDecryptBlock` -- the mirror, with the loop `for(i = nr - 1; i >= 1; i--)`
  (`decryptRounds`, entered at `i = nr - 1`). With `uint_t i` the loop would wrap for `nr = 0`;
  `aesInit` never builds such a context, and the model runs no pass there.
-/

namespace CycloneCrypto.Aes

/-- `AesContext`: the round count `nr` and the key schedule `w`. The schedule is a `uint32_t`
    array of 60 words; every index the code reads or writes stays below `4 (nr + 1) ≤ 60`, so it
    is a function of the index here, whatever it holds beyond. -/
structure AesContext where
  nr : Nat
  w : Nat → Word

/-- The transformation of `temp = w[i - 1]` in pass `i` of the expansion loop of `aesInit`. -/
def expandTemp (e : HostOrder) (nk i : Nat) (temp : Word) : Word :=
  -- Apply transformation
  if i % nk = 0 then subWord e (rotWord temp) ^^^ rcon.getD (i / nk) 0
  else if nk > 6 ∧ i % nk = 4 then subWord e temp
  else temp

/-- Pass `i` of the expansion loop: save `temp = w[i - 1]`, transform it, and give `w[i]` the
    value `w[i - nk] ^ temp`. -/
def expandStep (e : HostOrder) (nk i : Nat) (w : Nat → Word) : Word :=
  w (i - nk) ^^^ expandTemp e nk i (w (i - 1))

/-- The expansion loop of `aesInit`, `for(i = nk; i < keyScheduleSize; i++)`. -/
def keyExpansion (e : HostOrder) (nk : Nat) : Nat → Nat → (Nat → Word) → Nat → Word :=
  writeLoop (expandStep e nk)

/-- The context `aesInit` leaves once `nr` is chosen: the key copied into `w[0 .. keyLength/4)`
    (`memcpy`), then the expansion up to `keyScheduleSize = 4 (nr + 1)`. -/
def aesExpand (e : HostOrder) (ctx : AesContext) (key : List Byte) (nr : Nat) : AesContext :=
  let keyLength := key.length
  -- Copy the original key
  let w := fun i => if i < keyLength / 4 then e.load (fun j => key.getD (4 * i + j) 0) else ctx.w i
  -- Determine the number of 32-bit words in the key
  let nk := keyLength / 4
  -- The size of the key schedule depends on the number of rounds
  let keyScheduleSize := 4 * (nr + 1)
  { nr := nr, w := keyExpansion e nk (keyScheduleSize - nk) nk w }

/-- `aesInit(context, key, keyLength)` with `keyLength = key.length`: the error code, and the
    context afterwards (untouched when the length is rejected). -/
def aesInit (e : HostOrder) (ctx : AesContext) (key : List Byte) : ErrorCode × AesContext :=
  -- 10, 12 or 14 rounds for 128, 192 or 256-bit keys
  if key.length = 16 then (.noError, aesExpand e ctx key 10)
  else if key.length = 24 then (.noError, aesExpand e ctx key 12)
  else if key.length = 32 then (.noError, aesExpand e ctx key 14)
  -- Key length is not supported...
  else (.invalidKeyLength, ctx)

/-- The first `n` passes of the loop `for(i = 1; i < nr; i++)` of `aesEncryptBlock`. -/
def encryptRounds (e : HostOrder) (w : Nat → Word) : Nat → AesState → AesState
  | 0, s => s
  | n + 1, s =>
    let s := encryptRounds e w n s
    addRoundKey e (mixColumns (shiftRows (subBytes s))) (fun j => w (4 * (n + 1) + j))

/-- `aesEncryptBlock(context, input, output)`: the block written to `output`. -/
def aesEncryptBlock (e : HostOrder) (ctx : AesContext) (input : Block) : Block :=
  -- Copy the plaintext to the state array
  let state : AesState := input
  -- Initial round key addition
  let state := addRoundKey e state ctx.w
  -- Apply round function 10, 12 or 14 times depending on the key length
  let state := encryptRounds e ctx.w (ctx.nr - 1) state
  -- The last round differs slightly from the first rounds
  addRoundKey e (shiftRows (subBytes state)) (fun j => ctx.w (4 * ctx.nr + j))

/-- The loop `for(i = nr - 1; i >= 1; i--)` of `aesDecryptBlock`, entered at `i = n`. -/
def decryptRounds (e : HostOrder) (w : Nat → Word) : Nat → AesState → AesState
  | 0, s => s
  | i + 1, s =>
    decryptRounds e w i
      (invMixColumns (addRoundKey e (invSubBytes (invShiftRows s)) (fun j => w (4 * (i + 1) + j))))

/-- `aesDecryptBlock(context, input, output)`: the block written to `output`. -/
def aesDecryptBlock (e : HostOrder) (ctx : AesContext) (input : Block) : Block :=
  -- Copy the ciphertext to the state array, initial round key addition
  let state := addRoundKey e input (fun j => ctx.w (4 * ctx.nr + j))
  -- Apply round function 10, 12 or 14 times depending on the key length
  let state := decryptRounds e ctx.w (ctx.nr - 1) state
  -- The last round differs slightly from the first rounds
  addRoundKey e (invSubBytes (invShiftRows state)) ctx.w

/-! ## `aesInit` by cases -/

/-- The round count of an accepted key length: `Nk + 6`. -/
theorem aesInit_of_ok (e : HostOrder) (ctx : AesContext) {key : List Byte} (hK : KeyLengthOk key) :
    aesInit e ctx key = (.noError, aesExpand e ctx key (key.length / 4 + 6)) := by
  rcases hK with h | h | h <;> simp [aesInit, h]

/-- **A rejected key length leaves the context as it was.** -/
theorem aesInit_of_not_ok (e : HostOrder) (ctx : AesContext) {key : List Byte}
    (hK : ¬ KeyLengthOk key) : aesInit e ctx key = (.invalidKeyLength, ctx) := by
  simp only [KeyLengthOk, not_or] at hK
  simp [aesInit, hK.1, hK.2.1, hK.2.2]

end CycloneCrypto.Aes
