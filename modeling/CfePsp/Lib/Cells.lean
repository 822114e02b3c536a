import Mathlib.Data.Nat.Basic
import Mathlib.Logic.Function.Basic
import Mathlib.Tactic.Common

set_option relaxedAutoImplicit false
set_option autoImplicit false

/-!
# Memories as functions of the address

A stretch of memory is a function from addresses to the values of its cells; copying a block
into it overlays an interval of addresses. Nothing bounds the interval, so a copy that runs
past the end of an object is a copy like any other and shows in the cells behind the object.

## Main definitions

* `Cells.overlay` — the memory after a block copy.
* `Cells.storeAll` — the memory after a list of single stores.

## Main results

* `Cells.storeAll_range'` — a loop that stores consecutive cells copies a block.
-/

namespace Cells

variable {α : Type*}

/-- The memory `dst` after the `n` cells from `base` on were overwritten by the first `n` cells
of `src`. -/
def overlay (dst src : ℕ → α) (base n : ℕ) : ℕ → α :=
  fun a => if base ≤ a ∧ a < base + n then src (a - base) else dst a

/-- Inside the copied interval the memory holds the source. -/
lemma overlay_of_mem {dst src : ℕ → α} {base n a : ℕ} (h : base ≤ a ∧ a < base + n) :
    overlay dst src base n a = src (a - base) :=
  if_pos h

/-- Outside the copied interval nothing changes. -/
lemma overlay_of_notMem {dst src : ℕ → α} {base n a : ℕ} (h : ¬(base ≤ a ∧ a < base + n)) :
    overlay dst src base n a = dst a :=
  if_neg h

/-- A cell that a copy changed lies in the copied interval. -/
lemma mem_of_overlay_ne {dst src : ℕ → α} {base n a : ℕ}
    (h : overlay dst src base n a ≠ dst a) : base ≤ a ∧ a < base + n := by
  by_contra hout
  exact h (overlay_of_notMem hout)

/-- A copy reads the cells it writes and no others of its source. -/
lemma overlay_congr {dst src src' : ℕ → α} {base n : ℕ} (h : ∀ i < n, src i = src' i) :
    overlay dst src base n = overlay dst src' base n := by
  funext a
  by_cases ha : base ≤ a ∧ a < base + n
  · rw [overlay_of_mem ha, overlay_of_mem ha]
    exact h _ (by omega)
  · rw [overlay_of_notMem ha, overlay_of_notMem ha]

/-- Two copies to the same place with the same result have the same source cells. -/
lemma eq_of_overlay_eq {dst src src' : ℕ → α} {base n : ℕ}
    (h : overlay dst src base n = overlay dst src' base n) : ∀ i < n, src i = src' i := by
  intro i hi
  have hcell := congrFun h (base + i)
  rw [overlay_of_mem (by omega), overlay_of_mem (by omega), Nat.add_sub_cancel_left] at hcell
  exact hcell

/-- A copy of no cells does nothing. -/
@[simp] lemma overlay_zero (dst src : ℕ → α) (base : ℕ) : overlay dst src base 0 = dst := by
  funext a
  exact overlay_of_notMem (by omega)

/-! ## Single stores -/

/-- The memory after the stores of a list, each a place and a value, in order. -/
def storeAll (m : ℕ → α) (stores : List (ℕ × α)) : ℕ → α :=
  stores.foldl (fun m x => Function.update m x.1 x.2) m

@[simp] lemma storeAll_nil (m : ℕ → α) : storeAll m [] = m := rfl

@[simp] lemma storeAll_cons (m : ℕ → α) (x : ℕ × α) (stores : List (ℕ × α)) :
    storeAll m (x :: stores) = storeAll (Function.update m x.1 x.2) stores := rfl

@[simp] lemma storeAll_append (m : ℕ → α) (stores stores' : List (ℕ × α)) :
    storeAll m (stores ++ stores') = storeAll (storeAll m stores) stores' :=
  List.foldl_append

/-- **A loop that stores consecutive cells copies a block.**

**Proof sketch.** Induction on the number of stores: the last one extends the block by a cell. -/
lemma storeAll_range' (m f : ℕ → α) (base n : ℕ) :
    storeAll m ((List.range' base n).map fun a => (a, f a)) =
      overlay m (fun i => f (base + i)) base n := by
  induction n with
  | zero => simp
  | succ n ih =>
    rw [List.range'_concat, List.map_append, storeAll_append, ih, Nat.one_mul]
    funext a
    by_cases ha : a = base + n
    · subst ha
      rw [overlay_of_mem (by omega), Nat.add_sub_cancel_left]
      simp
    · simp only [List.map_cons, List.map_nil, storeAll_cons, storeAll_nil,
        Function.update_of_ne ha]
      by_cases hin : base ≤ a ∧ a < base + n
      · rw [overlay_of_mem hin, overlay_of_mem (by omega)]
      · rw [overlay_of_notMem hin, overlay_of_notMem (by omega)]

end Cells
