import Mathlib.Logic.Function.Basic

set_option relaxedAutoImplicit false
set_option autoImplicit false

/-!
# Ownership of locks

Each lock has at most one owner. A take waits until the lock is free and makes the client its owner,
a give frees it. What a client holds is read off its own state; as long as every client owns what it
holds, no lock is held twice.

## Main definitions

* `Locks.take`, `Locks.give` — the operations on the owners.
* `Locks.Owned` — every client owns what it holds.

## Main results

* `Locks.Owned.exclusive` — a lock is held by one client.
* `Locks.Owned.take`, `Locks.Owned.give` — the operations keep ownership, when the client that takes
  a lock holds no more than that lock in addition, and the client that gives one holds it no longer.
-/

namespace Locks

variable {ι κ : Type} [DecidableEq κ]

/-- The owners after the client `i` took the lock `m`; `none` while it has to wait. -/
def take (owner : κ → Option ι) (m : κ) (i : ι) : Option (κ → Option ι) :=
  match owner m with
  | none => some (Function.update owner m (some i))
  | some _ => none

/-- The owners after the lock `m` was given back. -/
def give (owner : κ → Option ι) (m : κ) : κ → Option ι := Function.update owner m none

/-- Every client owns the locks it holds. -/
def Owned (owner : κ → Option ι) (Holds : ι → κ → Prop) : Prop :=
  ∀ i m, Holds i m → owner m = some i

variable {owner owner' : κ → Option ι} {Holds Holds' : ι → κ → Prop} {i j : ι} {m : κ}

lemma take_eq_some : take owner m i = some owner' ↔
    owner m = none ∧ owner' = Function.update owner m (some i) := by
  unfold take
  cases howner : owner m with
  | none => simp [eq_comm]
  | some k => simp

omit [DecidableEq κ] in
/-- **A lock is held by one client.** -/
lemma Owned.exclusive (h : Owned owner Holds) (hi : Holds i m) (hj : Holds j m) : i = j :=
  Option.some.inj ((h i m hi).symm.trans (h j m hj))

omit [DecidableEq κ] in
/-- Clients that hold no more than before own what they hold. -/
lemma Owned.mono (h : Owned owner Holds) (hholds : ∀ j k, Holds' j k → Holds j k) :
    Owned owner Holds' :=
  fun j k hj => h j k (hholds j k hj)

/-- A take keeps ownership. -/
lemma Owned.take (h : Owned owner Holds) (htake : Locks.take owner m i = some owner')
    (hholds : ∀ j k, Holds' j k → Holds j k ∨ j = i ∧ k = m) : Owned owner' Holds' := by
  obtain ⟨hfree, rfl⟩ := take_eq_some.1 htake
  intro j k hj
  rcases hholds j k hj with hold | ⟨rfl, rfl⟩
  · have hne : k ≠ m := by
      rintro rfl
      rw [h j k hold] at hfree
      cases hfree
    rw [Function.update_of_ne hne]
    exact h j k hold
  · exact Function.update_self _ _ _

/-- A give of a lock that the client holds keeps ownership. -/
lemma Owned.give (h : Owned owner Holds) (hi : Holds i m)
    (hholds : ∀ j k, Holds' j k → Holds j k ∧ ¬(j = i ∧ k = m)) :
    Owned (Locks.give owner m) Holds' := by
  intro j k hj
  obtain ⟨hold, hother⟩ := hholds j k hj
  have hne : k ≠ m := by
    rintro rfl
    exact hother ⟨h.exclusive hold hi, rfl⟩
  rw [Locks.give, Function.update_of_ne hne]
  exact h j k hold

end Locks
