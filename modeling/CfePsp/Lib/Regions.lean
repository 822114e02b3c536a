import Mathlib.Logic.Function.Basic
import CfePsp.Lib.Layout

set_option relaxedAutoImplicit false
set_option autoImplicit false

/-!
# Separate memories in one

A memory has areas that do not overlap. Whoever knows only the areas can think of each as a memory
of its own: an access that stays in its area does to the areas what the same access does to the
separate memory, and nothing to the others.

## Main definitions

* `Regions.Represents` — the areas of a memory have the contents of separate memories.

## Main results

* `Regions.Represents.replace` — what stays in one area replaces one of the separate memories.
* `Regions.Represents.store`, `Regions.represents_const` — a store, and areas of one value.
-/

namespace Regions

open Layout (Area)

variable {ι α : Type*} {area : ι → Area} {mem mem' : ℕ → α} {parts : ι → ℕ → α}

/-- Each area of the memory has the contents of its separate memory. -/
def Represents (area : ι → Area) (mem : ℕ → α) (parts : ι → ℕ → α) : Prop :=
  ∀ i, ∀ k < (area i).size, mem ((area i).start + k) = parts i k

/-- A byte of one area is in no other area. -/
lemma notMem_of_ne (hdisjoint : Pairwise fun i j => Disjoint (area i).bytes (area j).bytes)
    {i j : ι} (hij : i ≠ j) {k : ℕ} (hk : k < (area i).size) :
    (area i).start + k ∉ (area j).bytes :=
  Set.disjoint_left.1 (hdisjoint hij) ⟨Nat.le_add_right _ k, Nat.add_lt_add_left hk _⟩

/-- What changes one area only replaces its separate memory. -/
lemma Represents.replace [DecidableEq ι] (h : Represents area mem parts)
    (hdisjoint : Pairwise fun i j => Disjoint (area i).bytes (area j).bytes) {i : ι}
    (hframe : ∀ a ∉ (area i).bytes, mem' a = mem a) {f : ℕ → α}
    (hf : ∀ k < (area i).size, mem' ((area i).start + k) = f k) :
    Represents area mem' (Function.update parts i f) := by
  intro j k hk
  by_cases hij : j = i
  · subst hij
    rw [Function.update_self]
    exact hf k hk
  · rw [Function.update_of_ne hij, hframe _ (notMem_of_ne hdisjoint hij hk)]
    exact h j k hk

/-- A store to a byte of an area. -/
lemma Represents.store [DecidableEq ι] (h : Represents area mem parts)
    (hdisjoint : Pairwise fun i j => Disjoint (area i).bytes (area j).bytes) {i : ι} {k : ℕ}
    (hk : k < (area i).size) (v : α) :
    Represents area (Function.update mem ((area i).start + k) v)
      (Function.update parts i (Function.update (parts i) k v)) := by
  refine h.replace hdisjoint (fun a ha => ?_) fun l hl => ?_
  · refine Function.update_of_ne ?_ _ _
    rintro rfl
    exact ha ⟨Nat.le_add_right _ k, Nat.add_lt_add_left hk _⟩
  · by_cases hkl : l = k
    · subst hkl
      rw [Function.update_self, Function.update_self]
    · rw [Function.update_of_ne hkl, Function.update_of_ne fun heq => hkl (Nat.add_left_cancel heq)]
      exact h i l hl

/-- Outside the areas the memory may change as it likes. -/
lemma Represents.congr (h : Represents area mem parts)
    (hframe : ∀ i, ∀ a ∈ (area i).bytes, mem' a = mem a) : Represents area mem' parts := by
  intro i k hk
  rw [hframe i _ ⟨Nat.le_add_right _ k, Nat.add_lt_add_left hk _⟩]
  exact h i k hk

/-- Areas that hold one value everywhere. -/
lemma represents_const {v : α} (h : ∀ i, ∀ a ∈ (area i).bytes, mem a = v) :
    Represents area mem fun _ _ => v :=
  fun i k hk => h i _ ⟨Nat.le_add_right _ k, Nat.add_lt_add_left hk _⟩

end Regions
