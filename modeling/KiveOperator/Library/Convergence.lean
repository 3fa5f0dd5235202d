import KiveOperator.Library.Runs
import Mathlib.Logic.Function.Iterate

/-!
# Iterations that settle

A function is applied again and again to a state.  If each application lowers a measure as long
as the measure is not zero, and the next application then leads to a fixed point, the fixed point
is reached within one more step than the measure says, and it is kept from then on.

`run_of_measure` says the same of a run in which some of the inputs lower the measure and the others
do not raise it, in whatever order they come.
-/

namespace Convergence

variable {α : Type*} {f : α → α} {P Q : α → Prop} {μ : α → ℕ}

/-- The states of the iteration from `μ a + 1` on are fixed points of the kind `Q`. -/
theorem iterate_of_measure (hP : ∀ a, P a → P (f a))
    (hdec : ∀ a, P a → μ a ≠ 0 → μ (f a) < μ a) (hdone : ∀ a, P a → μ a = 0 → Q (f a))
    (hfix : ∀ a, Q a → f a = a) {a : α} (ha : P a) {m : ℕ} (hm : μ a < m) : Q (f^[m] a) := by
  induction m generalizing a with
  | zero => exact absurd hm (Nat.not_lt_zero _)
  | succ m ih =>
    rw [Function.iterate_succ_apply]
    by_cases hzero : μ a = 0
    · have hQ := hdone a ha hzero
      rwa [Function.iterate_fixed (hfix _ hQ)]
    · exact ih (hP a ha) (Nat.lt_of_lt_of_le (hdec a ha hzero) (Nat.lt_succ_iff.mp hm))

/-- A run with more inputs that lower the measure than it takes ends in a state of the kind `Q`. -/
theorem run_of_measure {σ ι : Type*} {step : σ → ι → σ} {P Q : σ → Prop} {μ : σ → ℕ}
    (mine : ι → Prop) [DecidablePred mine] (hP : ∀ s i, P s → P (step s i))
    (hother : ∀ s i, P s → ¬ mine i → μ (step s i) ≤ μ s)
    (hdec : ∀ s i, P s → mine i → μ s ≠ 0 → μ (step s i) < μ s)
    (hdone : ∀ s i, P s → mine i → μ s = 0 → Q (step s i))
    (hkeep : ∀ s i, P s → Q s → Q (step s i)) {inputs : List ι} {s : σ} (hs : P s)
    (hm : μ s < inputs.countP mine) : Q (Runs.run step inputs s) := by
  have hkept : ∀ (inputs : List ι) s, P s → Q s → Q (Runs.run step inputs s) := by
    intro inputs
    induction inputs with
    | nil => exact fun _ _ hQ => hQ
    | cons i inputs ih => exact fun s hs hQ => ih _ (hP s i hs) (hkeep s i hs hQ)
  induction inputs generalizing s with
  | nil => exact absurd hm (Nat.not_lt_zero _)
  | cons i inputs ih =>
    by_cases hi : mine i
    · rw [List.countP_cons_of_pos (by simpa using hi)] at hm
      by_cases hzero : μ s = 0
      · exact hkept inputs _ (hP s i hs) (hdone s i hs hi hzero)
      · have hlt := hdec s i hs hi hzero
        exact ih (hP s i hs) (by omega)
    · rw [List.countP_cons_of_neg (by simpa using hi)] at hm
      have hle := hother s i hs hi
      exact ih (hP s i hs) (by omega)

end Convergence
