import Mathlib.Data.List.Basic
import Mathlib.Tactic.Common

set_option relaxedAutoImplicit false
set_option autoImplicit false

/-!
# Scans that keep the last answer

A scan goes through a list until it finds an element it looks for. Every other element leaves an
answer of its own behind, and overwrites that of the element before it; a scan that finds nothing
returns what the last element left.

## Main definitions

* `Scan.scan` — the scan.

## Main results

* `Scan.scan_of_exists`, `Scan.scan_of_forall` — what a scan returns.
* `Scan.scan_perm_iff` — when the order of the list makes no difference.
-/

namespace Scan

variable {α β : Type*}

/-- Stops with `found` at the first element with `p`; keeps the answer of the last element seen. -/
def scan (p : α → Prop) [DecidablePred p] (found : β) (answer : α → β) : List α → β → β
  | [], c => c
  | a :: l, _ => if p a then found else scan p found answer l (answer a)

variable {p : α → Prop} [DecidablePred p] {found c : β} {answer : α → β} {l : List α}

/-- A scan finds what is there. -/
lemma scan_of_exists (h : ∃ a ∈ l, p a) : scan p found answer l c = found := by
  induction l generalizing c with
  | nil =>
    obtain ⟨a, ha, -⟩ := h
    exact absurd ha List.not_mem_nil
  | cons a l ih =>
    rw [scan]
    split_ifs with hp
    · rfl
    · obtain ⟨b, hb, hpb⟩ := h
      rcases List.mem_cons.1 hb with rfl | hb
      · exact absurd hpb hp
      · exact ih ⟨b, hb, hpb⟩

/-- A scan that finds nothing returns the answer of the last element. -/
lemma scan_of_forall (h : ∀ a ∈ l, ¬p a) :
    scan p found answer l c = (l.getLast?.map answer).getD c := by
  induction l generalizing c with
  | nil => rfl
  | cons a l ih =>
    rw [scan, if_neg (h a List.mem_cons_self), ih fun b hb => h b (List.mem_cons_of_mem a hb),
      List.getLast?_cons]
    cases l.getLast? with
    | none => rfl
    | some b => rfl

/-- A list may be rearranged so that any one of its elements is the last. -/
lemma exists_perm_concat {a : α} (ha : a ∈ l) : ∃ l', (l' ++ [a]).Perm l := by
  obtain ⟨l₁, l₂, rfl⟩ := List.append_of_mem ha
  exact ⟨l₁ ++ l₂, (List.perm_append_singleton a _).trans List.perm_middle.symm⟩

/-- **The order makes no difference** to a scan exactly when it finds what it looks for, or all
elements have the same answer.

**Proof sketch.** If it finds nothing, any element may be the last one. -/
theorem scan_perm_iff :
    (∀ l', l'.Perm l → scan p found answer l' c = scan p found answer l c) ↔
      (∃ a ∈ l, p a) ∨ ∀ a ∈ l, ∀ b ∈ l, answer a = answer b := by
  constructor
  · intro hperm
    by_cases hex : ∃ a ∈ l, p a
    · exact .inl hex
    · push Not at hex
      have hlast : ∀ a ∈ l, answer a = scan p found answer l c := by
        intro a ha
        obtain ⟨l', hl'⟩ := exists_perm_concat ha
        rw [← hperm _ hl', scan_of_forall fun b hb => hex b (hl'.subset hb)]
        simp
      exact .inr fun a ha b hb => (hlast a ha).trans (hlast b hb).symm
  · intro hcond l' hl'
    by_cases hex : ∃ a ∈ l, p a
    · obtain ⟨a, ha, hp⟩ := hex
      rw [scan_of_exists ⟨a, hl'.symm.subset ha, hp⟩, scan_of_exists ⟨a, ha, hp⟩]
    · have hsame := hcond.resolve_left hex
      push Not at hex
      rw [scan_of_forall fun b hb => hex b (hl'.subset hb), scan_of_forall hex]
      cases hlast' : l'.getLast? with
      | none =>
        obtain rfl := List.getLast?_eq_none_iff.1 hlast'
        rw [hl'.symm.eq_nil]
        rfl
      | some a =>
        have ha : a ∈ l := hl'.subset (List.mem_of_getLast? hlast')
        cases hlast : l.getLast? with
        | none =>
          rw [List.getLast?_eq_none_iff.1 hlast] at ha
          exact absurd ha List.not_mem_nil
        | some b => exact hsame a ha b (List.mem_of_getLast? hlast)

end Scan
