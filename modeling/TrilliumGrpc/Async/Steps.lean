import Mathlib.Order.WellFounded

/-! # Systems that are polled step by step

A run takes one step for each of its events. What every step keeps, a run keeps; and a
run is through after finitely many events if each of them lowers a rank of the state.
-/

namespace Async

variable {U T V : Type} {step : U → T → U} {Kept Done : U → Prop}

theorem kept_of_step (hstep : ∀ u t, Kept u → Kept (step u t)) {u : U} (hu : Kept u)
    (ts : List T) : Kept (ts.foldl step u) := by
  induction ts generalizing u with
  | nil => exact hu
  | cons t ts ih => exact ih (hstep u t hu)

/-- `At v u` says that `u` stands at `v`. Every step from a good place is the last one, or
some lower good place is where each step leads that is not. -/
theorem ends_of_progress {At : V → U → Prop} {Good : V → Prop} {lower : V → V → Prop}
    (hwf : WellFounded lower) (hdone : ∀ u t, Done u → Done (step u t))
    (hprogress : ∀ v, Good v → (∀ u t, At v u → Done (step u t)) ∨
      ∃ v', lower v' v ∧ Good v' ∧ ∀ u t, At v u → Done (step u t) ∨ At v' (step u t))
    {v : V} (hv : Good v) :
    ∃ N, ∀ u, At v u → ∀ ts : List T, N ≤ ts.length → Done (ts.foldl step u) := by
  induction v using hwf.induction with
  | h v ih =>
      rcases hprogress v hv with hlast | ⟨v', hlower, hv', hstep⟩
      · refine ⟨1, fun u hu ts hlong => ?_⟩
        cases ts with
        | nil => simp at hlong
        | cons t ts => exact kept_of_step hdone (hlast u t hu) ts
      · obtain ⟨N, hN⟩ := ih v' hlower hv'
        refine ⟨N + 1, fun u hu ts hlong => ?_⟩
        cases ts with
        | nil => simp at hlong
        | cons t ts =>
            rcases hstep u t hu with hend | hthere
            · exact kept_of_step hdone hend ts
            · exact hN _ hthere ts (Nat.le_of_succ_le_succ hlong)

end Async
