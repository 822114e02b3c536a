import Mathlib.Algebra.Order.Group.MinMax
import Mathlib.Algebra.Order.Ring.Int
import Mathlib.Data.List.Induction
import Mathlib.Tactic.Common
import Mathlib.Tactic.Linarith
import Mathlib.Tactic.Ring

set_option relaxedAutoImplicit false
set_option autoImplicit false

/-!
# The backlog of a periodic activity

An activity is due every `period`; its turns take the times of a list, one after another. A turn
that ends before the next one is due is followed by a pause, and a turn that ends later by the next
turn at once. The backlog says how much after its due time a turn ends.

## Main definitions

* `Backlog.after` — the backlog after some turns.

## Main results

* `Backlog.after_le` — turns that are shorter than the period work the backlog off.
-/

namespace Backlog

variable {period bound x u : ℤ} {us : List ℤ}

/-- The backlog after a turn that takes the time `u`. -/
def next (period x u : ℤ) : ℤ := max (x - period) 0 + u

/-- The backlog after some turns. -/
def after (period : ℤ) (x : ℤ) (us : List ℤ) : ℤ := us.foldl (next period) x

@[simp] lemma after_nil : after period x [] = x := rfl

@[simp] lemma after_concat : after period x (us ++ [u]) = next period (after period x us) u := by
  rw [after, List.foldl_append]
  rfl

/-- **Working the backlog off.** If no turn takes longer than `bound`, and that is at most the
period, each turn takes the difference off the backlog until it is the length of a turn.

**Proof sketch.** Induction on the turns from the right. -/
theorem after_le (hbound : bound ≤ period) (hus : ∀ u ∈ us, u ≤ bound) :
    after period x us ≤ max (x - us.length * (period - bound)) bound := by
  induction us using List.reverseRecOn with
  | nil => simp
  | append_singleton us u ih =>
    have hu : u ≤ bound := hus u (by simp)
    have hbefore := ih fun v hv => hus v (List.mem_append_left _ hv)
    have hlength : ((us ++ [u]).length : ℤ) * (period - bound) =
        us.length * (period - bound) + (period - bound) := by
      rw [List.length_append, List.length_singleton]
      push_cast
      ring
    rw [after_concat, next, hlength]
    generalize (us.length : ℤ) * (period - bound) = worked at hbefore ⊢
    omega

end Backlog
