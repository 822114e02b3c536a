import Mathlib.Data.List.Induction
import Mathlib.Tactic.Common

set_option relaxedAutoImplicit false
set_option autoImplicit false

/-!
# Runs of guarded transition functions

A transition system is given by a function `step : σ → ε → Option σ`: `step s e = some t` says
that event `e` is enabled in state `s` and leads to `t`. An event carries everything an
observer sees of the step, outputs included, so a *run* is the list of its events.

## Main definitions

* `Transition.run` — the state a list of events leads to, if every event is enabled in turn.
* `Transition.Always` — a property of single steps that every step of a run has.
* `Transition.Since` — an event of one kind happened, and none of another kind since.

## Main results

* `Transition.run_invariant` — what holds at the start and is kept by every step holds after
  every run; the property may mention the events so far.
* `Transition.run_simulates` — a step-by-step simulation carries whole runs over: every run of
  the concrete system is, event for event, a run of the abstract one.
* `Transition.run_of_always`, `Transition.run_invariant_of_always` — the invariant rules for the
  runs whose steps all meet a condition.
* `Transition.always_iff` — two properties of steps that agree where an invariant holds agree on
  whole runs, if one of them keeps the invariant.
-/

namespace Transition

variable {σ ε α : Type*} {step : σ → ε → Option σ} {astep : α → ε → Option α}

/-- The state reached from `s` by the events `tr`; `none` when one of them is not enabled. -/
def run (step : σ → ε → Option σ) (s : σ) (tr : List ε) : Option σ :=
  tr.foldlM step s

@[simp] lemma run_nil (s : σ) : run step s [] = some s := rfl

/-- A run of a longer list starts with the step of its first event. -/
lemma run_cons {s t : σ} {e : ε} {tr : List ε} :
    run step s (e :: tr) = some t ↔ ∃ u, step s e = some u ∧ run step u tr = some t := by
  simp [run, List.foldlM_cons, Option.bind_eq_some_iff]

/-- A run of a concatenation passes through the state its first part leads to. -/
lemma run_append {s t : σ} {tr₁ tr₂ : List ε} :
    run step s (tr₁ ++ tr₂) = some t ↔
      ∃ u, run step s tr₁ = some u ∧ run step u tr₂ = some t := by
  simp [run, List.foldlM_append, Option.bind_eq_some_iff]

/-- A run extended by one event. -/
lemma run_concat {s t : σ} {e : ε} {tr : List ε} :
    run step s (tr ++ [e]) = some t ↔ ∃ u, run step s tr = some u ∧ step u e = some t := by
  rw [run_append]
  refine exists_congr fun u => and_congr_right fun _ => ?_
  rw [run_cons]
  simp

/-- **The invariant rule.** A property of the events so far and the state reached that holds
before the first event and survives every step holds after every run.

**Proof sketch.** Induction on the list of events from the right: the last step starts in the
state of a shorter run. -/
theorem run_invariant {P : List ε → σ → Prop} {s₀ : σ} (h₀ : P [] s₀)
    (hstep : ∀ tr s e t, P tr s → step s e = some t → P (tr ++ [e]) t) :
    ∀ {tr : List ε} {s : σ}, run step s₀ tr = some s → P tr s := by
  intro tr
  induction tr using List.reverseRecOn with
  | nil =>
    intro s h
    obtain rfl : s₀ = s := by simpa using h
    exact h₀
  | append_singleton tr e ih =>
    intro s h
    obtain ⟨u, hu, hs⟩ := run_concat.1 h
    exact hstep tr u e s (ih hu) hs

/-- **The simulation rule.** If related states have, for every concrete step, an abstract step
with the same event to related states, then every concrete run is an abstract run. The relation
may mention the events so far.

**Proof sketch.** The invariant rule for the property "the abstract run of the same events
exists and ends in a related state". -/
theorem run_simulates {R : List ε → σ → α → Prop} {s₀ : σ} {a₀ : α} (h₀ : R [] s₀ a₀)
    (hstep : ∀ tr s a e t, R tr s a → step s e = some t →
      ∃ b, astep a e = some b ∧ R (tr ++ [e]) t b)
    {tr : List ε} {s : σ} (h : run step s₀ tr = some s) :
    ∃ a, run astep a₀ tr = some a ∧ R tr s a := by
  refine run_invariant (P := fun tr s => ∃ a, run astep a₀ tr = some a ∧ R tr s a)
    ⟨a₀, run_nil a₀, h₀⟩ ?_ h
  rintro tr s e t ⟨a, ha, hR⟩ hs
  obtain ⟨b, hb, hR'⟩ := hstep tr s a e t hR hs
  exact ⟨b, run_concat.2 ⟨a, ha, hb⟩, hR'⟩

/-! ## Properties of every step -/

/-- Every step of the run of the events from `s` has the property `P`. -/
def Always (step : σ → ε → Option σ) (P : σ → ε → Prop) : σ → List ε → Prop
  | _, [] => True
  | s, e :: tr => P s e ∧ ∀ t ∈ step s e, Always step P t tr

/-- Whether a given run has the property throughout can be computed. -/
instance decidableAlways {P : σ → ε → Prop} [∀ s e, Decidable (P s e)] :
    (s : σ) → (tr : List ε) → Decidable (Always step P s tr)
  | _, [] => isTrue trivial
  | s, e :: tr =>
      match h : step s e with
      | none => decidable_of_iff (P s e) (by simp [Always, h])
      | some t =>
          have : Decidable (Always step P t tr) := decidableAlways t tr
          decidable_of_iff (P s e ∧ Always step P t tr) (by simp [Always, h])

section Always

variable {P C : σ → ε → Prop} {I : σ → Prop} {s t : σ} {e : ε} {tr : List ε}

/-- **The invariant rule under a condition**: what every step that meets `C` keeps holds after a run
of such steps.

**Proof sketch.** Induction on the list of events. -/
theorem run_of_always (hs : I s)
    (hkeep : ∀ s e t, I s → C s e → step s e = some t → I t) (hC : Always step C s tr)
    (h : run step s tr = some t) : I t := by
  induction tr generalizing s with
  | nil =>
    obtain rfl : s = t := by simpa using h
    exact hs
  | cons e tr ih =>
    obtain ⟨u, hu, hrest⟩ := run_cons.1 h
    exact ih (hkeep s e u hs hC.1 hu) (hC.2 u hu) hrest

/-- A condition on every step of a run that is one event longer. -/
lemma always_concat : Always step C s (tr ++ [e]) ↔
    Always step C s tr ∧ ∀ t ∈ run step s tr, C t e := by
  induction tr generalizing s with
  | nil => simp [Always]
  | cons e' tr ih =>
    simp only [List.cons_append, Always, ih, Option.mem_def, run_cons, forall_exists_index, and_imp,
      forall_and, and_assoc]
    refine and_congr_right fun _ => and_congr_right fun _ => ?_
    exact ⟨fun h t u hu ht => h u hu t ht, fun h u hu t ht => h t u hu ht⟩

/-- **The invariant rule under a condition, for a property of the events so far** and the state
reached. -/
theorem run_invariant_of_always {P : List ε → σ → Prop} (h₀ : P [] s)
    (hstep : ∀ tr s e t, P tr s → C s e → step s e = some t → P (tr ++ [e]) t)
    (hC : Always step C s tr) (h : run step s tr = some t) : P tr t := by
  revert hC
  refine (run_invariant (P := fun tr t => run step s tr = some t ∧ (Always step C s tr → P tr t))
    ⟨run_nil s, fun _ => h₀⟩ ?_ h).2
  rintro tr u e t ⟨hu, ih⟩ hs
  refine ⟨run_concat.2 ⟨u, hu, hs⟩, fun hC => ?_⟩
  obtain ⟨hbefore, hlast⟩ := always_concat.1 hC
  exact hstep tr u e t (ih hbefore) (hlast u hu) hs

/-- **A property of steps against a condition**: if a step from a state with the invariant has the
property exactly when it meets the condition, and then keeps the invariant, then all steps of a run
have the property exactly when all of them meet the condition.

**Proof sketch.** Induction on the list of events. -/
theorem always_iff (hs : I s) (hkeep : ∀ s e t, I s → C s e → step s e = some t → I t)
    (hiff : ∀ s e, I s → (P s e ↔ C s e)) : Always step P s tr ↔ Always step C s tr := by
  induction tr generalizing s with
  | nil => exact Iff.rfl
  | cons e tr ih =>
    constructor
    · rintro ⟨hP, hrest⟩
      have hC : C s e := (hiff s e hs).1 hP
      exact ⟨hC, fun t ht => (ih (hkeep s e t hs hC ht)).1 (hrest t ht)⟩
    · rintro ⟨hC, hrest⟩
      exact ⟨(hiff s e hs).2 hC, fun t ht => (ih (hkeep s e t hs hC ht)).2 (hrest t ht)⟩

/-- A property of every step, said of the prefixes of the run. -/
lemma always_iff_forall : Always step P s tr ↔
    ∀ tr₁ e tr₂ u, tr = tr₁ ++ e :: tr₂ → run step s tr₁ = some u → P u e := by
  induction tr generalizing s with
  | nil => exact iff_of_true trivial fun tr₁ e tr₂ u h => absurd h (by simp)
  | cons e tr ih =>
    constructor
    · rintro ⟨hP, hrest⟩ tr₁ e' tr₂ u h hu
      cases tr₁ with
      | nil =>
        obtain ⟨rfl, rfl⟩ := List.cons.inj h
        obtain rfl : s = u := by simpa using hu
        exact hP
      | cons e₁ tr₁ =>
        obtain ⟨rfl, rfl⟩ := List.cons.inj h
        obtain ⟨t, ht, hrun⟩ := run_cons.1 hu
        exact ih.1 (hrest t ht) tr₁ e' tr₂ u rfl hrun
    · intro h
      refine ⟨h [] e tr s rfl rfl, fun t ht => ih.2 fun tr₁ e' tr₂ u heq hu => ?_⟩
      exact h (e :: tr₁) e' tr₂ u (by rw [heq, List.cons_append]) (run_cons.2 ⟨t, ht, hu⟩)

end Always

/-! ## What happened since -/

/-- There is an event with `p`, and none after it with `q`. -/
def Since (p q : ε → Prop) (tr : List ε) : Prop :=
  ∃ tr₁ e tr₂, tr = tr₁ ++ e :: tr₂ ∧ p e ∧ ∀ e' ∈ tr₂, ¬q e'

section Since

variable {p q : ε → Prop} {tr : List ε} {e : ε}

lemma not_since_nil : ¬Since p q ([] : List ε) := by
  rintro ⟨tr₁, e, tr₂, h, -⟩
  exact List.cons_ne_nil e tr₂ (List.append_eq_nil_iff.1 h.symm).2

/-- One event more. -/
lemma since_concat : Since p q (tr ++ [e]) ↔ p e ∨ Since p q tr ∧ ¬q e := by
  constructor
  · rintro ⟨tr₁, e₁, tr₂, h, hp, hq⟩
    rcases List.eq_nil_or_concat tr₂ with rfl | ⟨tr₂, e₂, rfl⟩
    · obtain ⟨-, he⟩ := List.append_inj' h rfl
      obtain rfl := List.singleton_inj.1 he
      exact .inl hp
    · rw [List.concat_eq_append, ← List.cons_append, ← List.append_assoc] at h
      obtain ⟨rfl, he⟩ := List.append_inj' h rfl
      obtain rfl := List.singleton_inj.1 he
      rw [List.concat_eq_append] at hq
      refine .inr ⟨⟨tr₁, e₁, tr₂, rfl, hp, fun e' he' => ?_⟩, ?_⟩
      · exact hq e' (List.mem_append_left _ he')
      · exact hq e (List.mem_append_right _ (List.mem_singleton_self e))
  · rintro (hp | ⟨⟨tr₁, e₁, tr₂, rfl, hp, hq⟩, hqe⟩)
    · exact ⟨tr, e, [], rfl, hp, by simp⟩
    · refine ⟨tr₁, e₁, tr₂ ++ [e], by simp, hp, fun e' he' => ?_⟩
      rcases List.mem_append.1 he' with hmem | hmem
      · exact hq e' hmem
      · rwa [List.mem_singleton.1 hmem]

end Since

end Transition
