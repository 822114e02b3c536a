import Mathlib.Data.List.Basic

set_option relaxedAutoImplicit false
set_option autoImplicit false

/-!
# Lists of stores cut short by a crash

A procedure that updates persistent memory is a list of stores; a crash leaves behind what a first
part `done` of the list has made of the memory, and `rest` is never executed. What a reader of the
memory can tell usually depends on whether some decisive store, the turning point, is among those
made.

## Main results

* `Crash.foldl_keeps` — what every store of a list keeps is kept wherever the list is cut.
* `Crash.turningPoint` — before the turning point one property holds, from then on another.
-/

namespace Crash

variable {σ ε : Type*} (apply : σ → ε → σ) {P Q : σ → Prop} {done rest l l₁ l₂ : List ε} {s : σ}

/-- What every store of a list keeps is kept wherever the list is cut. -/
lemma foldl_keeps (hkeep : ∀ st ∈ l, ∀ s, P s → P (apply s st)) (hcut : done ++ rest = l)
    (hs : P s) : P (done.foldl apply s) := by
  induction done generalizing s l with
  | nil => exact hs
  | cons st done ih =>
    subst hcut
    refine ih (l := done ++ rest) (fun st' hst' => hkeep st' ?_) rfl (hkeep st ?_ s hs)
    · exact List.mem_cons_of_mem _ hst'
    · exact List.mem_cons_self

/-- **The turning point.** Let the stores before `turn` keep `P`, let `turn` lead from `P` to `Q`
and let the stores after it keep `Q`. Wherever the list is cut, either `turn` is still to come and
`P` holds, or it has been made and `Q` holds. -/
theorem turningPoint {turn : ε} (hs : P s) (hbefore : ∀ st ∈ l₁, ∀ s, P s → P (apply s st))
    (hturn : ∀ s, P s → Q (apply s turn)) (hafter : ∀ st ∈ l₂, ∀ s, Q s → Q (apply s st))
    (hcut : done ++ rest = l₁ ++ turn :: l₂) :
    (turn ∈ rest ∧ P (done.foldl apply s)) ∨
      ((∃ l, l₂ = l ++ rest) ∧ Q (done.foldl apply s)) := by
  rcases List.append_eq_append_iff.1 hcut with ⟨d, hl₁, hrest⟩ | ⟨d, hdone, hd⟩
  · refine .inl ⟨by simp [hrest], foldl_keeps apply hbefore hl₁.symm hs⟩
  · cases d with
    | nil =>
      -- the cut is right before the turning point
      rw [List.append_nil] at hdone
      obtain rfl : turn :: l₂ = rest := hd
      refine .inl ⟨List.mem_cons_self, ?_⟩
      exact foldl_keeps apply hbefore (by rw [hdone, List.append_nil]) hs
    | cons st d =>
      obtain ⟨rfl, rfl⟩ := List.cons.inj hd
      refine .inr ⟨⟨d, rfl⟩, ?_⟩
      have hP : P (l₁.foldl apply s) := foldl_keeps apply hbefore (List.append_nil l₁) hs
      rw [hdone, List.foldl_append, List.foldl_cons]
      exact foldl_keeps apply hafter rfl (hturn _ hP)

end Crash
