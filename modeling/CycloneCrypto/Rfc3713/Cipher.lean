import CycloneCrypto.Cipher

/-!
# Camellia as RFC 3713 specifies it

The reference the code is compared with, written from the RFC's description (§2) over 64- and
128-bit values, with no word punning and no pointer walk:

* `sbox1 … sbox4`, `S`, `P`, `F` -- the F-function (§2.4.1): `SBOX1`, which the RFC publishes
  as a table, is computed here by the algebraic construction it was made from (an inverse in
  GF(2⁸) between two affine maps), not copied from `camellia.c`; `SBOX2 … SBOX4` are the
  rotations of §2.4.4, and `P` is given byte by byte;
* `FL`, `FLINV` (§2.4.2, §2.4.3);
* `keyLR`, `keyA`, `keyB` -- `KL`, `KR`, `KA`, `KB` (§2.2), and the subkeys in the order the RFC
  lists them (`subkeys128`, `subkeys256`);
* `sixRounds`, `flLayer`, `groups`, `encryptWith` -- the data randomizing of §2.3 over a subkey
  sequence, and `decryptSubkeys` -- the reversal of §2.3.3 (`kw1 ↔ kw3`, `kw2 ↔ kw4`, `k` and `ke` reversed);
* `encrypt`, `decrypt` -- the two under a key of 16, 24 or 32 bytes;
* `ofBlock`, `toBlock` -- a 16-byte block read as a 128-bit value, its first byte the most
  significant, and back.

A subkey sequence `sk` holds the 64-bit subkeys in the RFC's order: `kw1, kw2`, then for group
`g = 0, 1, …` of six rounds the keys `sk (2 + 8 g) … sk (7 + 8 g)`, followed between groups by
`ke` at `sk (8 + 8 g)`, `sk (9 + 8 g)`, and last `kw3, kw4`.
-/

namespace CycloneCrypto.Rfc3713

/-- The 64-bit half `x >> 64` of a 128-bit value. -/
def hi64 (x : BitVec 128) : BitVec 64 := x.extractLsb' 64 64

/-- The 64-bit half `x & MASK64` of a 128-bit value. -/
def lo64 (x : BitVec 128) : BitVec 64 := x.extractLsb' 0 64

/-- Byte `j` of a 64-bit value, `j = 1` the most significant (the RFC's `t1 … t8`). -/
def byte8 (x : BitVec 64) (j : Nat) : Byte := x.extractLsb' (64 - 8 * j) 8

/-- The 64-bit value of the bytes `y1 … y8`, `y1` the most significant. -/
def ofBytes8 (y1 y2 y3 y4 y5 y6 y7 y8 : Byte) : BitVec 64 :=
  y1 ++ y2 ++ y3 ++ y4 ++ y5 ++ y6 ++ y7 ++ y8

/-! ## 1. The F-function (§2.4.1) -/

/-! ### `SBOX1`

The inverse of GF(2⁸) built over GF(2⁴) = GF(2)[α]/(α⁴ + α + 1) as GF(2⁴)[β]/(β² + β + α³ + 1),
between two GF(2)-linear maps of the bits. Elements of GF(2⁴) are their coefficients read as a
number below 16; a byte with bits `a₁ … a₈`, `a₁` the most significant, is
`(a₈ + a₇α + a₆α² + a₅α³) + (a₄ + a₃α + a₂α² + a₁α³)β`: its low nibble plus its high nibble
times `β`. -/

/-- `α • a` in GF(2⁴): a shift, reduced by `α⁴ + α + 1` (`0x13`) when the coefficient of `α³`
    (`a / 8`) is set. -/
def mulAlpha (a : Nat) : Nat := 2 * a ^^^ a / 8 * 0x13

/-- `a • b` in GF(2⁴) with `n` coefficients of `a` left: `b • αⁱ` for each coefficient `aᵢ = 1`. -/
def polyMul16 : Nat → Nat → Nat → Nat
  | 0, _, _ => 0
  | n + 1, a, b => a % 2 * b ^^^ polyMul16 n (a / 2) (mulAlpha b)

/-- The product of GF(2⁴). -/
def mul16 (a b : Nat) : Nat := polyMul16 4 a b

/-- The inverse of GF(2⁴), `a⁻¹ = a¹⁴ = a² • a⁴ • a⁸`, and `0` for `0`. -/
def inv16 (a : Nat) : Nat :=
  let a2 := mul16 a a
  let a4 := mul16 a2 a2
  mul16 (mul16 a2 a4) (mul16 a4 a4)

/-- The inverse of `x₀ + x₁β` in GF(2⁸), `0` for `0`: its conjugate `(x₀ + x₁) + x₁β` divided by
    its norm `x₀² + x₀x₁ + (α³ + 1)x₁²`. -/
def inv256 (x : Nat) : Nat :=
  let x0 := x % 16
  let x1 := x / 16
  let d := inv16 (mul16 x0 x0 ^^^ mul16 x0 x1 ^^^ mul16 9 (mul16 x1 x1))
  16 * mul16 x1 d + mul16 (x0 ^^^ x1) d

/-- Bit `aᵢ` of a byte, `a₁` the most significant. -/
def bitA (x i : Nat) : Nat := x / 2 ^ (8 - i) % 2

/-- The byte of the bits `b₁ … b₈`, `b₁` the most significant. -/
def ofBitsA (b : List Nat) : Nat := b.foldl (fun acc v => 2 * acc + v) 0

/-- The linear map applied before the inverse. -/
def sboxF (x : Nat) : Nat :=
  ofBitsA [bitA x 6 ^^^ bitA x 2, bitA x 7 ^^^ bitA x 1, bitA x 8 ^^^ bitA x 5 ^^^ bitA x 3,
    bitA x 8 ^^^ bitA x 3, bitA x 7 ^^^ bitA x 4, bitA x 5 ^^^ bitA x 2, bitA x 8 ^^^ bitA x 1,
    bitA x 6 ^^^ bitA x 4]

/-- The linear map applied after the inverse. -/
def sboxH (x : Nat) : Nat :=
  ofBitsA [bitA x 5 ^^^ bitA x 6 ^^^ bitA x 2, bitA x 6 ^^^ bitA x 2, bitA x 7 ^^^ bitA x 4,
    bitA x 8 ^^^ bitA x 2, bitA x 7 ^^^ bitA x 3, bitA x 8 ^^^ bitA x 1, bitA x 5 ^^^ bitA x 1,
    bitA x 6 ^^^ bitA x 3]

/-- `SBOX1` (§2.4.4): `h((f(x ⊕ 0xc5))⁻¹) ⊕ 0x6e`. -/
def sbox1 (x : Byte) : Byte := BitVec.ofNat 8 (sboxH (inv256 (sboxF (x.toNat ^^^ 0xc5))) ^^^ 0x6e)

/-- `SBOX2[x] = SBOX1[x] <<< 1`. -/
def sbox2 (x : Byte) : Byte := (sbox1 x).rotateLeft 1

/-- `SBOX3[x] = SBOX1[x] <<< 7`. -/
def sbox3 (x : Byte) : Byte := (sbox1 x).rotateLeft 7

/-- `SBOX4[x] = SBOX1[x <<< 1]`. -/
def sbox4 (x : Byte) : Byte := sbox1 (x.rotateLeft 1)

/-- The S-function: `SBOX1 … SBOX4` on `t1 … t4` and `SBOX2, SBOX3, SBOX4, SBOX1` on `t5 … t8`. -/
def S (x : BitVec 64) : BitVec 64 :=
  ofBytes8 (sbox1 (byte8 x 1)) (sbox2 (byte8 x 2)) (sbox3 (byte8 x 3)) (sbox4 (byte8 x 4))
    (sbox2 (byte8 x 5)) (sbox3 (byte8 x 6)) (sbox4 (byte8 x 7)) (sbox1 (byte8 x 8))

/-- The P-function, byte by byte. -/
def P (x : BitVec 64) : BitVec 64 :=
  let t1 := byte8 x 1
  let t2 := byte8 x 2
  let t3 := byte8 x 3
  let t4 := byte8 x 4
  let t5 := byte8 x 5
  let t6 := byte8 x 6
  let t7 := byte8 x 7
  let t8 := byte8 x 8
  ofBytes8 (t1 ^^^ t3 ^^^ t4 ^^^ t6 ^^^ t7 ^^^ t8) (t1 ^^^ t2 ^^^ t4 ^^^ t5 ^^^ t7 ^^^ t8)
    (t1 ^^^ t2 ^^^ t3 ^^^ t5 ^^^ t6 ^^^ t8) (t2 ^^^ t3 ^^^ t4 ^^^ t5 ^^^ t6 ^^^ t7)
    (t1 ^^^ t2 ^^^ t6 ^^^ t7 ^^^ t8) (t2 ^^^ t3 ^^^ t5 ^^^ t7 ^^^ t8)
    (t3 ^^^ t4 ^^^ t5 ^^^ t6 ^^^ t8) (t1 ^^^ t4 ^^^ t5 ^^^ t6 ^^^ t7)

/-- `F(F_IN, KE)`: `P(S(F_IN ^ KE))`. -/
def F (fin ke : BitVec 64) : BitVec 64 := P (S (fin ^^^ ke))

/-! ## 2. FL and FLINV (§2.4.2, §2.4.3) -/

/-- `FL(FL_IN, KE)`. -/
def FL (flIn ke : BitVec 64) : BitVec 64 :=
  let x1 : BitVec 32 := flIn.extractLsb' 32 32
  let x2 : BitVec 32 := flIn.extractLsb' 0 32
  let k1 : BitVec 32 := ke.extractLsb' 32 32
  let k2 : BitVec 32 := ke.extractLsb' 0 32
  let x2 := x2 ^^^ (x1 &&& k1).rotateLeft 1
  let x1 := x1 ^^^ (x2 ||| k2)
  x1 ++ x2

/-- `FLINV(FLINV_IN, KE)`. -/
def FLINV (flinvIn ke : BitVec 64) : BitVec 64 :=
  let y1 : BitVec 32 := flinvIn.extractLsb' 32 32
  let y2 : BitVec 32 := flinvIn.extractLsb' 0 32
  let k1 : BitVec 32 := ke.extractLsb' 32 32
  let k2 : BitVec 32 := ke.extractLsb' 0 32
  let y1 := y1 ^^^ (y2 ||| k2)
  let y2 := y2 ^^^ (y1 &&& k1).rotateLeft 1
  y1 ++ y2

/-! ## 3. The key schedule (§2.2) -/

/-- The bytes `K[i .. i + 16)` as a 128-bit value, most significant first. -/
def bytes128 (K : List Byte) (i : Nat) : BitVec 128 :=
  ofBytes8 (K.getD i 0) (K.getD (i + 1) 0) (K.getD (i + 2) 0) (K.getD (i + 3) 0)
      (K.getD (i + 4) 0) (K.getD (i + 5) 0) (K.getD (i + 6) 0) (K.getD (i + 7) 0) ++
    ofBytes8 (K.getD (i + 8) 0) (K.getD (i + 9) 0) (K.getD (i + 10) 0) (K.getD (i + 11) 0)
      (K.getD (i + 12) 0) (K.getD (i + 13) 0) (K.getD (i + 14) 0) (K.getD (i + 15) 0)

/-- `KL` and `KR`: for a 128-bit key `KL = K`, `KR = 0`; for a 192-bit key `KL = K >> 64` and
    `KR = ((K & MASK64) << 64) | (~(K & MASK64))`; for a 256-bit key `KL = K >> 128`,
    `KR = K & MASK128`. -/
def keyLR (K : List Byte) : BitVec 128 × BitVec 128 :=
  if K.length = 16 then (bytes128 K 0, 0)
  else if K.length = 24 then
    let r : BitVec 64 := hi64 (bytes128 K 16)
    (bytes128 K 0, r ++ ~~~r)
  else (bytes128 K 0, bytes128 K 16)

/-- `Sigma1 … Sigma6`. -/
def sigma (i : Nat) : BitVec 64 :=
  [0xA09E667F3BCC908B, 0xB67AE8584CAA73B2, 0xC6EF372FE94F82BE, 0x54FF53A5F1D36F1C,
    0x10E527FADE682D1D, 0xB05688C2B3E6C1FD].getD (i - 1) 0

/-- `KA`, from `KL` and `KR` by four F-steps. -/
def keyA (KL KR : BitVec 128) : BitVec 128 :=
  let D1 := hi64 (KL ^^^ KR)
  let D2 := lo64 (KL ^^^ KR)
  let D2 := D2 ^^^ F D1 (sigma 1)
  let D1 := D1 ^^^ F D2 (sigma 2)
  let D1 := D1 ^^^ hi64 KL
  let D2 := D2 ^^^ lo64 KL
  let D2 := D2 ^^^ F D1 (sigma 3)
  let D1 := D1 ^^^ F D2 (sigma 4)
  D1 ++ D2

/-- `KB`, from `KA` and `KR` by two F-steps. -/
def keyB (KA KR : BitVec 128) : BitVec 128 :=
  let D1 := hi64 (KA ^^^ KR)
  let D2 := lo64 (KA ^^^ KR)
  let D2 := D2 ^^^ F D1 (sigma 5)
  let D1 := D1 ^^^ F D2 (sigma 6)
  D1 ++ D2

/-- The 26 subkeys for a 128-bit key, in the RFC's order. -/
def subkeys128 (KL KA : BitVec 128) : List (BitVec 64) :=
  [hi64 (KL.rotateLeft 0), lo64 (KL.rotateLeft 0),      -- kw1, kw2
   hi64 (KA.rotateLeft 0), lo64 (KA.rotateLeft 0),      -- k1, k2
   hi64 (KL.rotateLeft 15), lo64 (KL.rotateLeft 15),    -- k3, k4
   hi64 (KA.rotateLeft 15), lo64 (KA.rotateLeft 15),    -- k5, k6
   hi64 (KA.rotateLeft 30), lo64 (KA.rotateLeft 30),    -- ke1, ke2
   hi64 (KL.rotateLeft 45), lo64 (KL.rotateLeft 45),    -- k7, k8
   hi64 (KA.rotateLeft 45), lo64 (KL.rotateLeft 60),    -- k9, k10
   hi64 (KA.rotateLeft 60), lo64 (KA.rotateLeft 60),    -- k11, k12
   hi64 (KL.rotateLeft 77), lo64 (KL.rotateLeft 77),    -- ke3, ke4
   hi64 (KL.rotateLeft 94), lo64 (KL.rotateLeft 94),    -- k13, k14
   hi64 (KA.rotateLeft 94), lo64 (KA.rotateLeft 94),    -- k15, k16
   hi64 (KL.rotateLeft 111), lo64 (KL.rotateLeft 111),  -- k17, k18
   hi64 (KA.rotateLeft 111), lo64 (KA.rotateLeft 111)]  -- kw3, kw4

/-- The 34 subkeys for a 192- or 256-bit key, in the RFC's order. -/
def subkeys256 (KL KR KA KB : BitVec 128) : List (BitVec 64) :=
  [hi64 (KL.rotateLeft 0), lo64 (KL.rotateLeft 0),      -- kw1, kw2
   hi64 (KB.rotateLeft 0), lo64 (KB.rotateLeft 0),      -- k1, k2
   hi64 (KR.rotateLeft 15), lo64 (KR.rotateLeft 15),    -- k3, k4
   hi64 (KA.rotateLeft 15), lo64 (KA.rotateLeft 15),    -- k5, k6
   hi64 (KR.rotateLeft 30), lo64 (KR.rotateLeft 30),    -- ke1, ke2
   hi64 (KB.rotateLeft 30), lo64 (KB.rotateLeft 30),    -- k7, k8
   hi64 (KL.rotateLeft 45), lo64 (KL.rotateLeft 45),    -- k9, k10
   hi64 (KA.rotateLeft 45), lo64 (KA.rotateLeft 45),    -- k11, k12
   hi64 (KL.rotateLeft 60), lo64 (KL.rotateLeft 60),    -- ke3, ke4
   hi64 (KR.rotateLeft 60), lo64 (KR.rotateLeft 60),    -- k13, k14
   hi64 (KB.rotateLeft 60), lo64 (KB.rotateLeft 60),    -- k15, k16
   hi64 (KL.rotateLeft 77), lo64 (KL.rotateLeft 77),    -- k17, k18
   hi64 (KA.rotateLeft 77), lo64 (KA.rotateLeft 77),    -- ke5, ke6
   hi64 (KR.rotateLeft 94), lo64 (KR.rotateLeft 94),    -- k19, k20
   hi64 (KA.rotateLeft 94), lo64 (KA.rotateLeft 94),    -- k21, k22
   hi64 (KL.rotateLeft 111), lo64 (KL.rotateLeft 111),  -- k23, k24
   hi64 (KB.rotateLeft 111), lo64 (KB.rotateLeft 111)]  -- kw3, kw4

/-! ## 4. Encryption and decryption (§2.3) -/

/-- Six rounds keyed `sk b … sk (b + 5)`: `D2 = D2 ^ F(D1, k)` and `D1 = D1 ^ F(D2, k)` in turn. -/
def sixRounds (sk : Nat → BitVec 64) (b : Nat) (d : BitVec 64 × BitVec 64) :
    BitVec 64 × BitVec 64 :=
  let D1 := d.1
  let D2 := d.2
  let D2 := D2 ^^^ F D1 (sk b)
  let D1 := D1 ^^^ F D2 (sk (b + 1))
  let D2 := D2 ^^^ F D1 (sk (b + 2))
  let D1 := D1 ^^^ F D2 (sk (b + 3))
  let D2 := D2 ^^^ F D1 (sk (b + 4))
  let D1 := D1 ^^^ F D2 (sk (b + 5))
  (D1, D2)

/-- The FL layer after group `g`: `D1 = FL(D1, ke)`, `D2 = FLINV(D2, ke')`. -/
def flLayer (sk : Nat → BitVec 64) (g : Nat) (d : BitVec 64 × BitVec 64) : BitVec 64 × BitVec 64 :=
  (FL d.1 (sk (8 + 8 * g)), FLINV d.2 (sk (9 + 8 * g)))

/-- Groups `g, g + 1, …` of six rounds, `n` left, with an FL layer between two groups. -/
def groups (sk : Nat → BitVec 64) : Nat → Nat → BitVec 64 × BitVec 64 → BitVec 64 × BitVec 64
  | 0, _, d => d
  | 1, g, d => sixRounds sk (2 + 8 * g) d
  | n + 2, g, d => groups sk (n + 1) (g + 1) (flLayer sk g (sixRounds sk (2 + 8 * g) d))

/-- Encryption of `M` in `G` groups of six rounds (3 for 18 rounds, 4 for 24) under the subkey
    sequence `sk`. -/
def encryptWith (sk : Nat → BitVec 64) (G : Nat) (M : BitVec 128) : BitVec 128 :=
  let D1 := hi64 M ^^^ sk 0
  let D2 := lo64 M ^^^ sk 1
  let d := groups sk G 0 (D1, D2)
  let D2 := d.2 ^^^ sk (8 * G)
  let D1 := d.1 ^^^ sk (8 * G + 1)
  D2 ++ D1

/-- The subkeys of decryption: `kw1 ↔ kw3`, `kw2 ↔ kw4`, and the round keys and the `ke` keys in
    reverse order (§2.3.3). -/
def decryptSubkeys (G : Nat) (sk : Nat → BitVec 64) : Nat → BitVec 64 := fun j =>
  if j = 0 then sk (8 * G) else if j = 1 then sk (8 * G + 1)
  else if j = 8 * G then sk 0 else if j = 8 * G + 1 then sk 1
  else sk (8 * G + 1 - j)

/-- The subkey sequence and the number of groups for a key of 16, 24 or 32 bytes. -/
def schedule (K : List Byte) : (Nat → BitVec 64) × Nat :=
  let KL := (keyLR K).1
  let KR := (keyLR K).2
  let KA := keyA KL KR
  let KB := keyB KA KR
  if K.length = 16 then (fun j => (subkeys128 KL KA).getD j 0, 3)
  else (fun j => (subkeys256 KL KR KA KB).getD j 0, 4)

/-- Camellia encryption of the 128-bit block `M` under `K`. -/
def encrypt (K : List Byte) (M : BitVec 128) : BitVec 128 :=
  encryptWith (schedule K).1 (schedule K).2 M

/-- Camellia decryption of the 128-bit block `C` under `K`. -/
def decrypt (K : List Byte) (C : BitVec 128) : BitVec 128 :=
  encryptWith (decryptSubkeys (schedule K).2 (schedule K).1) (schedule K).2 C

/-! ## 5. Blocks of 16 bytes -/

/-- The 128-bit value of a block, its first byte the most significant. -/
def ofBlock (B : Block) : BitVec 128 :=
  ofBytes8 (B 0) (B 1) (B 2) (B 3) (B 4) (B 5) (B 6) (B 7) ++
    ofBytes8 (B 8) (B 9) (B 10) (B 11) (B 12) (B 13) (B 14) (B 15)

/-- The block of a 128-bit value: byte `i` is bits `120 - 8 i … 127 - 8 i`. -/
def toBlock (x : BitVec 128) : Block := fun i => x.extractLsb' (120 - 8 * i.val) 8

end CycloneCrypto.Rfc3713
