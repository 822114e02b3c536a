import Mathlib.Data.List.Basic
import CfePsp.Lib.Runs

set_option relaxedAutoImplicit false
set_option autoImplicit false

/-!
# Ledgers of acquired resources

A program acquires resources, uses them and gives them back. The list of what it did is legal when
nothing is acquired that is held already, and nothing is used or released that is not held; a legal
list determines what is held in the end.

## Main definitions

* `Ledger.Op` — acquiring, using and releasing a resource.
* `Ledger.held` — what is held after a list of operations, if they are legal.

## Main results

* `Ledger.count_acquire` — what is not held any more was released as often as it was acquired.
* `Ledger.exists_held_of_release`, `Ledger.exists_held_of_use` — a resource is held when it is
  released or used.
-/

namespace Ledger

variable {R : Type} [DecidableEq R]

/-- The operations on a resource. -/
inductive Op (R : Type)
  | acquire (r : R)
  | use (r : R)
  | release (r : R)
  deriving DecidableEq

/-- What is held after one more operation. -/
def next (l : List R) : Op R → Option (List R)
  | .acquire r => if r ∈ l then none else some (r :: l)
  | .use r => if r ∈ l then some l else none
  | .release r => if r ∈ l then some (l.erase r) else none

/-- What is held after a list of operations, the resource acquired last first; `none` if one of
them was not legal. -/
def held (ops : List (Op R)) : Option (List R) := Transition.run next [] ops

section Held

variable {ops ops₁ ops₂ : List (Op R)} {op : Op R} {l l' : List R} {r s : R}

/-- A legal list followed by an operation. -/
lemma held_concat : held (ops ++ [op]) = some l ↔ ∃ l', held ops = some l' ∧ next l' op = some l :=
  Transition.run_concat

lemma held_acquire (h : held ops = some l) (hr : r ∉ l) :
    held (ops ++ [.acquire r]) = some (r :: l) :=
  held_concat.2 ⟨l, h, if_neg hr⟩

lemma held_use (h : held ops = some l) (hr : r ∈ l) : held (ops ++ [.use r]) = some l :=
  held_concat.2 ⟨l, h, if_pos hr⟩

lemma held_release (h : held ops = some l) (hr : r ∈ l) :
    held (ops ++ [.release r]) = some (l.erase r) :=
  held_concat.2 ⟨l, h, if_pos hr⟩

/-- **A resource is held when it is released.** -/
lemma exists_held_of_release (h : held (ops₁ ++ .release r :: ops₂) = some l) :
    ∃ l', held ops₁ = some l' ∧ r ∈ l' := by
  obtain ⟨l', hl', hrest⟩ := Transition.run_append.1 h
  obtain ⟨l'', hstep, -⟩ := Transition.run_cons.1 hrest
  refine ⟨l', hl', ?_⟩
  by_contra hr
  simp only [next, if_neg hr, reduceCtorEq] at hstep

/-- **A resource is held when it is used.** -/
lemma exists_held_of_use (h : held (ops₁ ++ .use r :: ops₂) = some l) :
    ∃ l', held ops₁ = some l' ∧ r ∈ l' := by
  obtain ⟨l', hl', hrest⟩ := Transition.run_append.1 h
  obtain ⟨l'', hstep, -⟩ := Transition.run_cons.1 hrest
  refine ⟨l', hl', ?_⟩
  by_contra hr
  simp only [next, if_neg hr, reduceCtorEq] at hstep

/-- No operation makes a resource held twice. -/
lemma nodup_next (hl : l.Nodup) (h : next l op = some l') : l'.Nodup := by
  cases op with
  | acquire r =>
    simp only [next] at h
    split at h
    · cases h
    next hr =>
      obtain rfl := Option.some.inj h
      exact List.nodup_cons.2 ⟨hr, hl⟩
  | use r =>
    simp only [next] at h
    split at h
    · obtain rfl := Option.some.inj h
      exact hl
    · cases h
  | release r =>
    simp only [next] at h
    split at h
    · obtain rfl := Option.some.inj h
      exact hl.erase r
    · cases h

/-- No resource is held twice. -/
lemma nodup_of_held (h : held ops = some l) : l.Nodup := by
  refine Transition.run_invariant (P := fun _ l => l.Nodup) List.nodup_nil ?_ h
  intro _ l op l' hl hstep
  exact nodup_next hl hstep

/-- How often a resource was acquired, over one operation. -/
lemma count_next (hnext : next l op = some l') (s : R) :
    [op].count (.acquire s) + l.count s = [op].count (.release s) + l'.count s := by
  cases op with
  | acquire r =>
    simp only [next] at hnext
    split at hnext
    · cases hnext
    · obtain rfl := Option.some.inj hnext
      by_cases hs : r = s
      · subst hs
        simp
        omega
      · simp [hs]
  | use r =>
    simp only [next] at hnext
    split at hnext
    · obtain rfl := Option.some.inj hnext
      simp
    · cases hnext
  | release r =>
    simp only [next] at hnext
    split at hnext
    next hr =>
      obtain rfl := Option.some.inj hnext
      by_cases hs : r = s
      · subst hs
        have hpos : 0 < l.count r := List.count_pos_iff.2 hr
        simp [List.count_erase_self]
        omega
      · have hs' : s ≠ r := fun h => hs h.symm
        simp [hs, List.count_erase_of_ne hs']
    · cases hnext

/-- **Releases against acquisitions**: a resource was acquired as often as it was released, and once
more if it is held.

**Proof sketch.** Induction on the list, from the right. -/
theorem count_acquire (h : held ops = some l) (s : R) :
    ops.count (.acquire s) = ops.count (.release s) + l.count s := by
  induction ops using List.reverseRecOn generalizing l with
  | nil =>
    obtain rfl : [] = l := Option.some.inj h
    rfl
  | append_singleton ops op ih =>
    obtain ⟨l', hl', hstep⟩ := held_concat.1 h
    have hcount := count_next hstep s
    have hprev := ih hl'
    rw [List.count_append, List.count_append]
    omega

end Held

end Ledger
