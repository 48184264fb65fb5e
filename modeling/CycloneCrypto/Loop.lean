import Mathlib.Logic.Function.Basic

/-!
# Loops that fill an array one index at a time

The key expansions of `aes.c` and of FIPS 197 are both loops `for(; i < i₀ + n; i++) w[i] = …`
whose body reads only entries below `i`. `writeLoop f n i w` is such a loop, with body `f`; this
file proves once what every such loop does:

* `writeLoop_of_lt`, `writeLoop_of_ge` -- entries outside `[i, i + n)` keep their value;
* `writeLoop_eq` -- when `f j` reads only below `j` (`ReadsBelow`), every entry the loop wrote
  satisfies the loop's recurrence in the final array;
* `writeLoop_agree` -- two runs from arrays that agree below `i` agree on everything they wrote;
* `writeLoop_map` -- a map of the entries that turns one body into another turns the loop into the
  other loop (a simulation, step by step).
-/

namespace CycloneCrypto

section
variable {α β : Type}

/-- The loop `for(; i < i₀ + n; i++) w[i] = f(i, w)`, entered at `i = i₀` with `n` passes left. -/
def writeLoop (f : Nat → (Nat → α) → α) : Nat → Nat → (Nat → α) → Nat → α
  | 0, _, w => w
  | n + 1, i, w => writeLoop f n (i + 1) (Function.update w i (f i w))

/-- `f j` reads only the entries below `j`, for every `j ≥ i`. -/
def ReadsBelow (f : Nat → (Nat → α) → α) (i : Nat) : Prop :=
  ∀ j ≥ i, ∀ w v : Nat → α, (∀ k < j, w k = v k) → f j w = f j v

theorem ReadsBelow.succ {f : Nat → (Nat → α) → α} {i : Nat} (hf : ReadsBelow f i) :
    ReadsBelow f (i + 1) := fun j hj => hf j (by omega)

variable (f : Nat → (Nat → α) → α)

theorem writeLoop_of_lt (n i : Nat) (w : Nat → α) {j : Nat} (hj : j < i) :
    writeLoop f n i w j = w j := by
  induction n generalizing i w with
  | zero => rfl
  | succ n ih => rw [writeLoop, ih _ _ (by omega), Function.update_noteq (by omega)]

theorem writeLoop_of_ge (n i : Nat) (w : Nat → α) {j : Nat} (hj : i + n ≤ j) :
    writeLoop f n i w j = w j := by
  induction n generalizing i w with
  | zero => rfl
  | succ n ih => rw [writeLoop, ih _ _ (by omega), Function.update_noteq (by omega)]

/-- **Runs from arrays that agree below the start agree on every entry they wrote.** -/
theorem writeLoop_agree {i : Nat} (hf : ReadsBelow f i) (n : Nat) {w v : Nat → α}
    (h : ∀ k < i, w k = v k) : ∀ j < i + n, writeLoop f n i w j = writeLoop f n i v j := by
  induction n generalizing i w v with
  | zero => intro j hj; exact h j (by omega)
  | succ n ih =>
    refine fun j hj => ih hf.succ (fun k hk => ?_) j (by omega)
    by_cases hki : k = i
    · subst hki; simp only [Function.update_same]; exact hf k (Nat.le_refl k) w v h
    · simp only [Function.update_noteq hki]; exact h k (by omega)

/-- **Every entry the loop wrote satisfies the loop's recurrence in the final array.** -/
theorem writeLoop_eq {i : Nat} (hf : ReadsBelow f i) (n : Nat) (w : Nat → α) {j : Nat}
    (hj : i ≤ j) (hjn : j < i + n) : writeLoop f n i w j = f j (writeLoop f n i w) := by
  induction n generalizing i w with
  | zero => omega
  | succ n ih =>
    rcases Nat.eq_or_lt_of_le hj with rfl | hlt
    · have hbelow : ∀ k < i, w k = writeLoop f n (i + 1) (Function.update w i (f i w)) k :=
        fun k hk => by rw [writeLoop_of_lt f n _ _ (by omega), Function.update_noteq (by omega)]
      rw [writeLoop, writeLoop_of_lt f n _ _ (Nat.lt_succ_self i), Function.update_same]
      exact hf i (Nat.le_refl i) _ _ hbelow
    · exact ih hf.succ _ hlt (by omega)

/-- **Simulation**: if `φ` carries every pass of body `f` to a pass of body `g`, it carries the
    loop over `f` to the loop over `g`. -/
theorem writeLoop_map (g : Nat → (Nat → β) → β) (φ : α → β) (n i : Nat)
    (h : ∀ j, i ≤ j → j < i + n → ∀ w, φ (f j w) = g j (φ ∘ w)) (w : Nat → α) :
    φ ∘ writeLoop f n i w = writeLoop g n i (φ ∘ w) := by
  induction n generalizing i w with
  | zero => rfl
  | succ n ih =>
    rw [writeLoop, writeLoop, ih (i + 1) (fun j hj hjn => h j (by omega) (by omega)),
      Function.comp_update, h i (Nat.le_refl i) (by omega)]

end

end CycloneCrypto
