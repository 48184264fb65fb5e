import CycloneCrypto.Camellia.Tables

/-!
# `camelliaInit`, `camelliaEncryptBlock`, `camelliaDecryptBlock`

The three functions of `camellia.c` that the descriptor `camelliaCipherAlgo` exports, and the
macros they expand:

* `camelliaS`, `camelliaP`, `camelliaRound`, `camelliaFl`, `camelliaInvFl` -- `CAMELLIA_S`,
  `CAMELLIA_P`, `CAMELLIA_ROUND`, `CAMELLIA_FL`, `CAMELLIA_INV_FL`; the round macro is read as the
  function of its four state arguments (`FeistelState`), since the decryptor passes them as
  `(right1, right2, left1, left2)`;
* `encryptRounds`, `decryptRounds` -- the loops `for(i = nr; i > 0; i--)` of the two block
  functions, with the pointer `ks` as an offset into `context->ks` that moves forward by 2 (and 4
  around an FL layer) or backward;
* `camelliaInit` -- the key intake into `context->k`, the six rounds that make `KA` and `KB`, and
  the subkey loop over `ks1` or `ks2` (`subkeyLoop`), whose body `subkeyWords` shifts words by a
  count computed at run time: C defines such a shift only below 32, and so does the model
  (`shl32`, `shr32`), with `subkeyWords_isSome` that the body never leaves that range.
-/

namespace CycloneCrypto.Camellia

/-- `CamelliaContext`: the round count `nr`, the key material `k[16]` (the banks `KL`, `KR`, `KA`,
    `KB` at offsets 0, 4, 8, 12) and the subkeys `ks[68]`. -/
structure CamelliaContext where
  nr : Nat
  k : Nat → Word
  ks : Nat → Word

/-! ## 1. The macros -/

/-- `CAMELLIA_S(zl, zr)`: `sbox1 … sbox4` on the bytes of `zl`, most significant first, and
    `sbox2, sbox3, sbox4, sbox1` on those of `zr`. (`sbox1[…] << 24` is taken as the 32-bit
    shift the code means, not as a shift of the promoted `int`.) -/
def camelliaS (zl zr : Word) : Word × Word :=
  (load32Be (lookup sbox1 (byteOf zl 3)) (lookup sbox2 (byteOf zl 2)) (lookup sbox3 (byteOf zl 1))
      (lookup sbox4 (byteOf zl 0)),
    load32Be (lookup sbox2 (byteOf zr 3)) (lookup sbox3 (byteOf zr 2)) (lookup sbox4 (byteOf zr 1))
      (lookup sbox1 (byteOf zr 0)))

/-- `CAMELLIA_P(zl, zr)`. -/
def camelliaP (zl zr : Word) : Word × Word :=
  let zl := zl ^^^ rol32 zr 8
  let zr := zr ^^^ rol32 zl 16
  let zl := zl ^^^ ror32 zr 8
  let zr := zr ^^^ ror32 zl 8
  (zl, zr)

/-- The four words a round macro works on: `left1, left2, right1, right2`. -/
structure FeistelState where
  left1 : Word
  left2 : Word
  right1 : Word
  right2 : Word
  deriving DecidableEq, Repr

/-- The same four words with the halves exchanged, as the decryptor passes them to the macros. -/
def FeistelState.swap (s : FeistelState) : FeistelState := ⟨s.right1, s.right2, s.left1, s.left2⟩

/-- `CAMELLIA_ROUND(left1, left2, right1, right2, k1, k2)`. -/
def camelliaRound (s : FeistelState) (k1 k2 : Word) : FeistelState :=
  let temp1 := s.left1 ^^^ k1
  let temp2 := s.left2 ^^^ k2
  let t := camelliaS temp1 temp2
  let t := camelliaP t.1 t.2
  let temp1 := t.1 ^^^ s.right2
  let temp2 := t.2 ^^^ s.right1
  ⟨temp2, temp1, s.left1, s.left2⟩

/-- `CAMELLIA_FL(xl, xr, kl, kr)`. -/
def camelliaFl (xl xr kl kr : Word) : Word × Word :=
  let temp1 := xl &&& kl
  let xr := xr ^^^ rol32 temp1 1
  let xl := xl ^^^ (xr ||| kr)
  (xl, xr)

/-- `CAMELLIA_INV_FL(yl, yr, kl, kr)`. -/
def camelliaInvFl (yl yr kl kr : Word) : Word × Word :=
  let yl := yl ^^^ (yr ||| kr)
  let temp1 := yl &&& kl
  let yr := yr ^^^ rol32 temp1 1
  (yl, yr)

/-- The rounds after which the loops apply an FL layer: `i == 7 || i == 13 || i == 19`. -/
def flRound (i : Nat) : Prop := i = 7 ∨ i = 13 ∨ i = 19

instance (i : Nat) : Decidable (flRound i) := inferInstanceAs (Decidable (_ ∨ _))

/-! ## 2. The block functions -/

/-- `LOAD32BE(input + 4 j)`. -/
def loadWord (input : Block) (j : Fin 4) : Word :=
  load32Be (input ⟨4 * j.val, by omega⟩) (input ⟨4 * j.val + 1, by omega⟩)
    (input ⟨4 * j.val + 2, by omega⟩) (input ⟨4 * j.val + 3, by omega⟩)

/-- `STORE32BE(w0, output + 0)`, …, `STORE32BE(w3, output + 12)`. -/
def storeWords (w0 w1 w2 w3 : Word) : Block := fun j =>
  store32Be (if j.val < 4 then w0 else if j.val < 8 then w1 else if j.val < 12 then w2 else w3)
    ⟨j.val % 4, Nat.mod_lt _ (by omega)⟩

/-- The loop of `camelliaEncryptBlock` from `i = n` down, `ks` at offset `p`: the state and the
    offset afterwards. -/
def encryptRounds (ks : Nat → Word) : Nat → Nat → FeistelState → FeistelState × Nat
  | 0, p, s => (s, p)
  | i + 1, p, s =>
    -- Apply round function
    let s := camelliaRound s (ks p) (ks (p + 1))
    -- Advance current location in key schedule
    let p := p + 2
    -- 6th, 12th and 18th rounds require special processing
    if flRound (i + 1) then
      let x := camelliaFl s.left1 s.left2 (ks p) (ks (p + 1))
      let y := camelliaInvFl s.right1 s.right2 (ks (p + 2)) (ks (p + 3))
      encryptRounds ks i (p + 4) ⟨x.1, x.2, y.1, y.2⟩
    else encryptRounds ks i p s

/-- `camelliaEncryptBlock(context, input, output)`: the block written to `output`. -/
def camelliaEncryptBlock (ctx : CamelliaContext) (input : Block) : Block :=
  let ks := ctx.ks
  -- The plaintext is separated into two parts (L and R); XOR with kw1 and kw2
  let s : FeistelState := ⟨loadWord input 0 ^^^ ks 0, loadWord input 1 ^^^ ks 1,
    loadWord input 2 ^^^ ks 2, loadWord input 3 ^^^ ks 3⟩
  let r := encryptRounds ks ctx.nr 4 s
  let s := r.1
  let p := r.2
  -- XOR operation with kw3 and kw4
  storeWords (s.right1 ^^^ ks p) (s.right2 ^^^ ks (p + 1)) (s.left1 ^^^ ks (p + 2))
    (s.left2 ^^^ ks (p + 3))

/-- The loop of `camelliaDecryptBlock` from `i = n` down, `ks` at offset `p`. -/
def decryptRounds (ks : Nat → Word) : Nat → Nat → FeistelState → FeistelState × Nat
  | 0, p, s => (s, p)
  | i + 1, p, s =>
    -- Update current location in key schedule
    let p := p - 2
    -- Apply round function, CAMELLIA_ROUND(right1, right2, left1, left2, ks[0], ks[1])
    let s := (camelliaRound s.swap (ks p) (ks (p + 1))).swap
    -- 6th, 12th and 18th rounds require special processing
    if flRound (i + 1) then
      let p := p - 4
      let x := camelliaFl s.right1 s.right2 (ks (p + 2)) (ks (p + 3))
      let y := camelliaInvFl s.left1 s.left2 (ks p) (ks (p + 1))
      decryptRounds ks i p ⟨y.1, y.2, x.1, x.2⟩
    else decryptRounds ks i p s

/-- `camelliaDecryptBlock(context, input, output)`: the block written to `output`. -/
def camelliaDecryptBlock (ctx : CamelliaContext) (input : Block) : Block :=
  -- The key schedule must be applied in reverse order
  let ks := ctx.ks
  let p := if ctx.nr = 18 then 48 else 64
  -- The ciphertext is separated into two parts (L and R); XOR with kw3 and kw4
  let s : FeistelState := ⟨loadWord input 2 ^^^ ks (p + 2), loadWord input 3 ^^^ ks (p + 3),
    loadWord input 0 ^^^ ks p, loadWord input 1 ^^^ ks (p + 1)⟩
  let r := decryptRounds ks ctx.nr p s
  let s := r.1
  -- Update current location in key schedule
  let p := r.2 - 4
  -- XOR operation with kw1 and kw2
  storeWords (s.left1 ^^^ ks p) (s.left2 ^^^ ks (p + 1)) (s.right1 ^^^ ks (p + 2))
    (s.right2 ^^^ ks (p + 3))

/-! ## 3. The key schedule -/

/-- One pass of the loop `for(i = 0; i < 4; i++)`: `KL[i]` and `KR[i]` from big-endian storage to
    host order, then `KB[i] = KL[i] ^ KR[i]`. -/
def betohStep (e : HostOrder) (k : Nat → Word) (i : Nat) : Nat → Word :=
  let k := Function.update k (kl + i) (betoh32 e (k (kl + i)))
  let k := Function.update k (kr + i) (betoh32 e (k (kr + i)))
  Function.update k (kb + i) (k (kl + i) ^^^ k (kr + i))

/-- The bank of four words at offset `b` set to `v`. -/
def setBank (k : Nat → Word) (b : Nat) (v : Fin 4 → Word) : Nat → Word := fun j =>
  if h : b ≤ j ∧ j < b + 4 then v ⟨j - b, by omega⟩ else k j

/-- The bank of four words at offset `b`. -/
def getBank (k : Nat → Word) (b : Nat) : Fin 4 → Word := fun j => k (b + j.val)

/-- The bank `b` XOR the bank `c`, word by word. -/
def xorBank (k : Nat → Word) (b c : Nat) : Fin 4 → Word := fun j => k (b + j.val) ^^^ k (c + j.val)

/-- One pass of the loop `for(i = 0; i < 6; i++)` that generates `KA` and `KB`. -/
def kaKbStep (k : Nat → Word) (i : Nat) : Nat → Word :=
  -- Apply round function
  let s := camelliaRound ⟨k kb, k (kb + 1), k (kb + 2), k (kb + 3)⟩ (sigma.getD (2 * i) 0)
    (sigma.getD (2 * i + 1) 0)
  let k := setBank k kb fun j => [s.left1, s.left2, s.right1, s.right2].getD j.val 0
  -- The 2nd round requires special processing: the result is XORed with KL
  if i = 1 then setBank k kb (xorBank k kb kl)
  -- The 4th round: save KA after the 4th round, then XOR the result with KR
  else if i = 3 then
    let k := setBank k ka (getBank k kb)
    setBank k kb (xorBank k kb kr)
  else k

/-- `a << m` on a `uint32_t`. C defines it for `m < 32` only; `none` is the undefined shift. -/
def shl32 (a : Word) (m : Nat) : Option Word := if m < 32 then some (a <<< m) else none

/-- `a >> m` on a `uint32_t`, defined for `m < 32` only. -/
def shr32 (a : Word) (m : Nat) : Option Word := if m < 32 then some (a >>> m) else none

/-- The current subkey of the loop `while(i > 0)`: words `n`, `n + 1` (and `n + 2`) modulo 4 of
    the bank, with `n` and `m` the quotient and remainder of `shift + position` by 32, and C's
    shifts: `none` if a word would be shifted by 32 or more. -/
def subkeyWords (k : Nat → Word) (p : CamelliaSubkey) : Option (Word × Word) := do
  -- Calculate the shift count
  let n := (p.shift + p.position) / 32
  let m := (p.shift + p.position) % 32
  -- Point to KL, KR, KA or KB
  let k := fun j => k (p.key + j)
  -- Generate the current subkey
  if m = 0 then pure (k (n % 4), k ((n + 1) % 4))
  else
    let a ← shl32 (k (n % 4)) m
    let b ← shr32 (k ((n + 1) % 4)) (32 - m)
    let c ← shl32 (k ((n + 1) % 4)) m
    let d ← shr32 (k ((n + 2) % 4)) (32 - m)
    pure (a ||| b, c ||| d)

/-- **The body never shifts a word by 32**: with `m = 0` it takes the words `n`, `n + 1` whole,
    and otherwise `m` and `32 - m` both lie in `1 … 31`, so every entry has its two words. -/
theorem subkeyWords_eq_some (k : Nat → Word) (p : CamelliaSubkey) {n m : Nat}
    (hn : (p.shift + p.position) / 32 = n) (hm : (p.shift + p.position) % 32 = m) :
    subkeyWords k p = some (if m = 0 then (k (p.key + n % 4), k (p.key + (n + 1) % 4))
      else ((k (p.key + n % 4) <<< m) ||| (k (p.key + (n + 1) % 4) >>> (32 - m)),
        (k (p.key + (n + 1) % 4) <<< m) ||| (k (p.key + (n + 2) % 4) >>> (32 - m)))) := by
  subst hn hm
  have hm' : (p.shift + p.position) % 32 < 32 := Nat.mod_lt _ (by decide)
  simp only [subkeyWords, shl32, shr32]
  -- a branch with a count of 32 or more contradicts `m < 32`, or `m ≠ 0` for the count `32 - m`
  split_ifs <;> first | rfl | omega

theorem subkeyWords_isSome (k : Nat → Word) (p : CamelliaSubkey) : (subkeyWords k p).isSome := by
  rw [subkeyWords_eq_some k p rfl rfl]
  rfl

/-- The two words the loop stores for an entry: the body's value, which every entry has. -/
def subkeyPair (k : Nat → Word) (p : CamelliaSubkey) : Word × Word :=
  (subkeyWords k p).get (subkeyWords_isSome k p)

/-- The subkey loop over the entries of a table, in order. -/
def subkeyLoop (k : Nat → Word) : List CamelliaSubkey → (Nat → Word) → Nat → Word
  | [], ks => ks
  | p :: ps, ks =>
    let w := subkeyPair k p
    subkeyLoop k ps (Function.update (Function.update ks p.index w.1) (p.index + 1) w.2)

/-- The context `camelliaInit` leaves once `nr` is chosen. -/
def camelliaExpand (e : HostOrder) (ctx : CamelliaContext) (key : List Byte) (nr : Nat) :
    CamelliaContext :=
  let keyLength := key.length
  -- Clear key contents, then save the supplied secret key
  let k : Nat → Word := fun i =>
    if i < keyLength / 4 then e.load (fun j => key.getD (4 * i + j) 0) else 0
  -- 192-bit keys require special processing: form a 256-bit key
  let k :=
    if keyLength = 24 then
      let k := Function.update k (kr + 2) (~~~k (kr + 0))
      Function.update k (kr + 3) (~~~k (kr + 1))
    else k
  -- XOR KL and KR before applying the rounds
  let k := [0, 1, 2, 3].foldl (betohStep e) k
  -- Generate the 128-bit keys KA and KB
  let k := [0, 1, 2, 3, 4, 5].foldl kaKbStep k
  -- The key schedule depends on the length of key
  let tbl := if keyLength = 16 then ks1 else ks2
  { nr := nr, k := k, ks := subkeyLoop k tbl ctx.ks }

/-- `camelliaInit(context, key, keyLength)` with `keyLength = key.length`: the error code, and
    the context afterwards (untouched when the length is rejected). -/
def camelliaInit (e : HostOrder) (ctx : CamelliaContext) (key : List Byte) :
    ErrorCode × CamelliaContext :=
  -- 18 rounds are required for 128-bit key
  if key.length = 16 then (.noError, camelliaExpand e ctx key 18)
  -- 24 rounds are required for 192 and 256-bit keys
  else if key.length = 24 ∨ key.length = 32 then (.noError, camelliaExpand e ctx key 24)
  -- Key length is not supported...
  else (.invalidKeyLength, ctx)

end CycloneCrypto.Camellia
