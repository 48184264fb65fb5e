import CycloneCrypto.Aes.Tables

/-!
# The state transformations of `aes.c`

The state is the union `AesState` of 16 bytes `b` and 4 words `w`. The byte view is the model
(`AesState`, a function of the byte index); the word view is read and written through the host's
byte order (`AesState.word`, `AesState.setWord`). Byte `r` of column `c` is `b[4 c + r]`
(`cell c r`).

Each transformation is written as the source writes it -- `shiftRows` as its sequence of
swaps through `temp`, `mixColumns` as its loop over `i = 0, 4, 8, 12` -- and each has one lemma
that says what it does to every cell (`shiftRows_cell`, `mixColumns_cell`, `addRoundKey_cell`, …).
Later files use those lemmas and never unfold the transformations.
-/

namespace CycloneCrypto.Aes

/-- `AesState`: the bytes `b[0..15]` of the state. The union's other member, `w[0..3]`, shares
    their storage (`AesState.word`). -/
abbrev AesState := Fin 16 → Byte

/-- Byte `r` of column `c`: index `4 c + r`. -/
def cell (c r : Fin 4) : Fin 16 := ⟨4 * c.val + r.val, by omega⟩

theorem cell_div_mod (k : Fin 16) :
    k = cell ⟨k.val / 4, Nat.div_lt_of_lt_mul k.isLt⟩ ⟨k.val % 4, Nat.mod_lt _ (Nat.succ_pos 3)⟩ := by
  ext; simp only [cell]; omega

/-- States are equal when they agree on every cell. -/
theorem AesState.ext_cell {s t : AesState} (h : ∀ c r, s (cell c r) = t (cell c r)) : s = t := by
  funext k; rw [cell_div_mod k]; exact h _ _

namespace AesState

/-- `state->w[i]` on a host of byte order `e`. -/
def word (e : HostOrder) (s : AesState) (i : Fin 4) : Word := e.load fun r => s (cell i r)

/-- `state->w[i] = v` on a host of byte order `e`. -/
def setWord (e : HostOrder) (s : AesState) (i : Fin 4) (v : Word) : AesState := fun k =>
  if k.val / 4 = i.val then e.store v ⟨k.val % 4, Nat.mod_lt _ (by omega)⟩ else s k

@[simp] theorem setWord_cell (e : HostOrder) (s : AesState) (i : Fin 4) (v : Word) (c r : Fin 4) :
    s.setWord e i v (cell c r) = if c = i then e.store v r else s (cell c r) := by
  simp only [setWord, cell, Fin.ext_iff]
  rw [show (4 * c.val + r.val) / 4 = c.val by omega]
  split
  · congr 1; ext; simp only; omega
  · rfl

@[simp] theorem word_setWord (e : HostOrder) (s : AesState) (i : Fin 4) (v : Word) (c : Fin 4) :
    (s.setWord e i v).word e c = if c = i then v else s.word e c := by
  simp only [word, setWord_cell]
  split
  · exact HostOrder.load_store e v
  · rfl

end AesState

/-- `subWord(w)`: the S-box applied to each byte `p[0..3]` that `w` occupies in memory. -/
def subWord (e : HostOrder) (w : Word) : Word := e.load fun j => lookup sbox (e.store w j)

/-- `rotWord(w)`: `ROR32(w, 8)`. -/
def rotWord (w : Word) : Word := ror32 w 8

/-- `addRoundKey(state, k)`: `state->w[i] ^= k[i]` for `i = 0 … 3`, with `k` the round key's
    first word `k 0` onwards. -/
def addRoundKey (e : HostOrder) (s : AesState) (k : Nat → Word) : AesState :=
  let s := s.setWord e 0 (s.word e 0 ^^^ k 0)
  let s := s.setWord e 1 (s.word e 1 ^^^ k 1)
  let s := s.setWord e 2 (s.word e 2 ^^^ k 2)
  s.setWord e 3 (s.word e 3 ^^^ k 3)

/-- `subBytes(state)`: `state->b[i] = sbox[state->b[i]]` for `i < 16`. -/
def subBytes (s : AesState) : AesState := fun i => lookup sbox (s i)

/-- `invSubBytes(state)`: `state->b[i] = isbox[state->b[i]]` for `i < 16`. -/
def invSubBytes (s : AesState) : AesState := fun i => lookup isbox (s i)

/-- `shiftRows(state)`: row `r` shifted left by `r` bytes, by swaps through `temp`. -/
def shiftRows (s : AesState) : AesState :=
  -- The second row is shifted left by 1 byte
  let temp := s 1
  let s := Function.update s 1 (s 5)
  let s := Function.update s 5 (s 9)
  let s := Function.update s 9 (s 13)
  let s := Function.update s 13 temp
  -- The third row is shifted left by 2 bytes
  let temp := s 2
  let s := Function.update s 2 (s 10)
  let s := Function.update s 10 temp
  let temp := s 6
  let s := Function.update s 6 (s 14)
  let s := Function.update s 14 temp
  -- The last row is shifted left by 3 bytes
  let temp := s 3
  let s := Function.update s 3 (s 15)
  let s := Function.update s 15 (s 11)
  let s := Function.update s 11 (s 7)
  Function.update s 7 temp

/-- `invShiftRows(state)`: row `r` shifted right by `r` bytes, by swaps through `temp`. -/
def invShiftRows (s : AesState) : AesState :=
  -- The second row is shifted right by 1 byte
  let temp := s 1
  let s := Function.update s 1 (s 13)
  let s := Function.update s 13 (s 9)
  let s := Function.update s 9 (s 5)
  let s := Function.update s 5 temp
  -- The third row is shifted right by 2 bytes
  let temp := s 2
  let s := Function.update s 2 (s 10)
  let s := Function.update s 10 temp
  let temp := s 6
  let s := Function.update s 6 (s 14)
  let s := Function.update s 14 temp
  -- The last row is shifted right by 3 bytes
  let temp := s 3
  let s := Function.update s 3 (s 7)
  let s := Function.update s 7 (s 11)
  let s := Function.update s 11 (s 15)
  Function.update s 15 temp

/-- One pass of the loop of `mixColumns`, on the column `b[i..i+3]`. -/
def mixColumnsBody (s : AesState) (i : Fin 16) : AesState :=
  let b0 := s (i + 0)
  let b1 := s (i + 1)
  let b2 := s (i + 2)
  let b3 := s (i + 3)
  let p := b0 ^^^ b1 ^^^ b2 ^^^ b3
  let s := Function.update s (i + 0) (p ^^^ b0 ^^^ lookup mul2 (b0 ^^^ b1))
  let s := Function.update s (i + 1) (p ^^^ b1 ^^^ lookup mul2 (b1 ^^^ b2))
  let s := Function.update s (i + 2) (p ^^^ b2 ^^^ lookup mul2 (b2 ^^^ b3))
  Function.update s (i + 3) (p ^^^ b3 ^^^ lookup mul2 (b3 ^^^ b0))

/-- `mixColumns(state)`: the loop `for(i = 0; i < 16; i += 4)`. -/
def mixColumns (s : AesState) : AesState := [0, 4, 8, 12].foldl mixColumnsBody s

/-- One pass of the loop of `invMixColumns`, on the column `b[i..i+3]`. -/
def invMixColumnsBody (s : AesState) (i : Fin 16) : AesState :=
  let b0 := s (i + 0)
  let b1 := s (i + 1)
  let b2 := s (i + 2)
  let b3 := s (i + 3)
  let q := b0 ^^^ b1 ^^^ b2 ^^^ b3
  let q := q ^^^ lookup mul2 (lookup mul2 (lookup mul2 q))
  let p := q ^^^ lookup mul2 (lookup mul2 (b0 ^^^ b2))
  let q := q ^^^ lookup mul2 (lookup mul2 (b1 ^^^ b3))
  let s := Function.update s (i + 0) (p ^^^ b0 ^^^ lookup mul2 (b0 ^^^ b1))
  let s := Function.update s (i + 1) (q ^^^ b1 ^^^ lookup mul2 (b1 ^^^ b2))
  let s := Function.update s (i + 2) (p ^^^ b2 ^^^ lookup mul2 (b2 ^^^ b3))
  Function.update s (i + 3) (q ^^^ b3 ^^^ lookup mul2 (b3 ^^^ b0))

/-- `invMixColumns(state)`: the loop `for(i = 0; i < 16; i += 4)`. -/
def invMixColumns (s : AesState) : AesState := [0, 4, 8, 12].foldl invMixColumnsBody s

/-! ## What each transformation does to a cell -/

/-- The column `mixColumns` writes in place of the column `b`. -/
def mixColumn (b : Fin 4 → Byte) (r : Fin 4) : Byte :=
  (b 0 ^^^ b 1 ^^^ b 2 ^^^ b 3) ^^^ b r ^^^ lookup mul2 (b r ^^^ b (r + 1))

/-- The column `invMixColumns` writes in place of the column `b`. -/
def invMixColumn (b : Fin 4 → Byte) (r : Fin 4) : Byte :=
  let q := b 0 ^^^ b 1 ^^^ b 2 ^^^ b 3
  let q := q ^^^ lookup mul2 (lookup mul2 (lookup mul2 q))
  let p := q ^^^ lookup mul2 (lookup mul2 (b 0 ^^^ b 2))
  let q := q ^^^ lookup mul2 (lookup mul2 (b 1 ^^^ b 3))
  (if r.val % 2 = 0 then p else q) ^^^ b r ^^^ lookup mul2 (b r ^^^ b (r + 1))

/-- **`shiftRows` moves cell `(c + r, r)` to `(c, r)`.** -/
theorem shiftRows_cell (s : AesState) (c r : Fin 4) : shiftRows s (cell c r) = s (cell (c + r) r) := by
  fin_cases c <;> fin_cases r <;> rfl

/-- **`invShiftRows` moves cell `(c - r, r)` to `(c, r)`.** -/
theorem invShiftRows_cell (s : AesState) (c r : Fin 4) :
    invShiftRows s (cell c r) = s (cell (c - r) r) := by
  fin_cases c <;> fin_cases r <;> rfl

theorem mixColumns_cell (s : AesState) (c r : Fin 4) :
    mixColumns s (cell c r) = mixColumn (fun k => s (cell c k)) r := by
  fin_cases c <;> fin_cases r <;> rfl

theorem invMixColumns_cell (s : AesState) (c r : Fin 4) :
    invMixColumns s (cell c r) = invMixColumn (fun k => s (cell c k)) r := by
  fin_cases c <;> fin_cases r <;> rfl

/-- **`addRoundKey` XORs cell `(c, r)` with the byte `r` that key word `c` occupies in memory.** -/
theorem addRoundKey_cell (e : HostOrder) (s : AesState) (k : Nat → Word) (c r : Fin 4) :
    addRoundKey e s k (cell c r) = s (cell c r) ^^^ e.store (k c) r := by
  simp only [addRoundKey, AesState.setWord_cell, AesState.word_setWord]
  fin_cases c <;> simp [AesState.word, HostOrder.store_load]

end CycloneCrypto.Aes
