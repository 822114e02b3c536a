import CfePsp.Lib.Runs

set_option relaxedAutoImplicit false
set_option autoImplicit false

/-!
# Boots and sessions

A machine keeps a memory across resets. A boot decides from a reset register and the memory how the
software starts; the session that follows changes the memory, until the machine is restarted on
command or goes down otherwise.

## Main definitions

* `Sessions.Machine` — what a boot, an action of a session and a commanded restart do to the memory.
* `Sessions.step` — the events of a machine.

## Main results

* `Sessions.run_known` — what each boot establishes and each session keeps holds while a session
  lasts and after it failed; a commanded restart leaves what it makes of such a memory.
* `Sessions.run_refines` — machines whose memories stay related have the same runs.
-/

namespace Sessions

variable {μ ρ τ α κ : Type}

/-- A machine: `μ` is its memory, `ρ` the reset register, `τ` how the software is started, `α` the
actions of a session and `κ` the argument of a commanded restart. -/
structure Machine (μ ρ τ α κ : Type) where
  /-- The start and the memory of the session that a boot begins. -/
  boot : ρ → μ → τ × μ
  /-- What an action of a session does to the memory. -/
  act : α → μ → μ
  /-- The memory that a commanded restart leaves. -/
  restart : κ → μ → μ

/-- How a session ended. -/
inductive Ending (κ : Type)
  | failed
  | restarted (k : κ)

/-- The machine has not been started, runs a session, or is down after one. -/
inductive Phase (τ κ : Type)
  | off
  | up (start : τ)
  | down (start : τ) (ending : Ending κ)

/-- The state of a machine. -/
structure State (μ τ κ : Type) where
  mem : μ
  phase : Phase τ κ

/-- The events: a boot, an action of the session, a restart, and going down without one. -/
inductive Event (ρ α κ : Type)
  | boot (r : ρ)
  | act (a : α)
  | restart (k : κ)
  | fail

/-- A step: a boot begins a session, the other events belong to one. -/
def step (M : Machine μ ρ τ α κ) (s : State μ τ κ) : Event ρ α κ → Option (State μ τ κ)
  | .boot r =>
      match s.phase with
      | .up _ => none
      | _ => some ⟨(M.boot r s.mem).2, .up (M.boot r s.mem).1⟩
  | .act a =>
      match s.phase with
      | .up t => some ⟨M.act a s.mem, .up t⟩
      | _ => none
  | .restart k =>
      match s.phase with
      | .up t => some ⟨M.restart k s.mem, .down t (.restarted k)⟩
      | _ => none
  | .fail =>
      match s.phase with
      | .up t => some ⟨s.mem, .down t .failed⟩
      | _ => none

section Rule

variable {M : Machine μ ρ τ α κ} {s u : State μ τ κ} {e : Event ρ α κ} {P : τ → μ → Prop}

/-- What an event does. -/
lemma step_cases (h : step M s e = some u) :
    (∃ r, e = .boot r ∧ u = ⟨(M.boot r s.mem).2, .up (M.boot r s.mem).1⟩) ∨
    (∃ t a, e = .act a ∧ s.phase = .up t ∧ u = ⟨M.act a s.mem, .up t⟩) ∨
    (∃ t k, e = .restart k ∧ s.phase = .up t ∧
      u = ⟨M.restart k s.mem, .down t (.restarted k)⟩) ∨
    ∃ t, e = .fail ∧ s.phase = .up t ∧ u = ⟨s.mem, .down t .failed⟩ := by
  cases e with
  | boot r =>
    refine .inl ⟨r, rfl, ?_⟩
    simp only [step] at h
    split at h
    · cases h
    · exact (Option.some.inj h).symm
  | act a =>
    simp only [step] at h
    split at h
    next t ht => exact .inr (.inl ⟨t, a, rfl, ht, (Option.some.inj h).symm⟩)
    · cases h
  | restart k =>
    simp only [step] at h
    split at h
    next t ht => exact .inr (.inr (.inl ⟨t, k, rfl, ht, (Option.some.inj h).symm⟩))
    · cases h
  | fail =>
    simp only [step] at h
    split at h
    next t ht => exact .inr (.inr (.inr ⟨t, rfl, ht, (Option.some.inj h).symm⟩))
    · cases h

/-- What is known of the memory, when `P` holds during sessions: it holds while a session lasts and
after it failed, and a restart leaves what it makes of a memory with `P`. -/
def Known (M : Machine μ ρ τ α κ) (P : τ → μ → Prop) (s : State μ τ κ) : Prop :=
  match s.phase with
  | .off => True
  | .up t => P t s.mem
  | .down t .failed => P t s.mem
  | .down t (.restarted k) => ∃ mem, P t mem ∧ s.mem = M.restart k mem

/-- What one event leaves known. -/
lemma Known.step (hboot : ∀ r mem, P (M.boot r mem).1 (M.boot r mem).2)
    (hact : ∀ t mem a, P t mem → P t (M.act a mem)) (h : Known M P s)
    (hs : step M s e = some u) : Known M P u := by
  unfold Known at h
  rcases step_cases hs with ⟨r, -, rfl⟩ | ⟨t, a, -, hup, rfl⟩ | ⟨t, k, -, hup, rfl⟩ |
    ⟨t, -, hup, rfl⟩
  · exact hboot r s.mem
  · rw [hup] at h
    exact hact t s.mem a h
  · rw [hup] at h
    exact ⟨s.mem, h, rfl⟩
  · rw [hup] at h
    exact h

/-- **The rule of sessions**: what each boot establishes and each session keeps is known of every
state of a run that begins with the machine off. -/
theorem run_known (hboot : ∀ r mem, P (M.boot r mem).1 (M.boot r mem).2)
    (hact : ∀ t mem a, P t mem → P t (M.act a mem)) {mem : μ} {tr : List (Event ρ α κ)}
    (h : Transition.run (Sessions.step M) ⟨mem, .off⟩ tr = some u) : Known M P u :=
  Transition.run_invariant (P := fun _ s => Known M P s) (show Known M P ⟨mem, .off⟩ from trivial)
    (fun _ _ _ _ h hs => h.step hboot hact hs) h

end Rule

section Refinement

variable {ν : Type} {M : Machine μ ρ τ α κ} {N : Machine ν ρ τ α κ} {R : μ → ν → Prop}

/-- Related memories stay related in a step, and the step is one of the other machine. -/
lemma exists_step {C : α → Prop}
    (hboot : ∀ r m n, R m n → (M.boot r m).1 = (N.boot r n).1 ∧ R (M.boot r m).2 (N.boot r n).2)
    (hact : ∀ a m n, C a → R m n → R (M.act a m) (N.act a n))
    (hrestart : ∀ k m n, R m n → R (M.restart k m) (N.restart k n)) {s u : State μ τ κ}
    {t : State ν τ κ} {e : Event ρ α κ} (hphase : t.phase = s.phase) (hR : R s.mem t.mem)
    (he : ∀ a, e = .act a → C a) (hs : step M s e = some u) :
    ∃ v, step N t e = some v ∧ v.phase = u.phase ∧ R u.mem v.mem := by
  rcases step_cases hs with ⟨r, rfl, rfl⟩ | ⟨x, a, rfl, hup, rfl⟩ | ⟨x, k, rfl, hup, rfl⟩ |
    ⟨x, rfl, hup, rfl⟩
  · obtain ⟨hstart, hmem⟩ := hboot r s.mem t.mem hR
    refine ⟨⟨(N.boot r t.mem).2, .up (N.boot r t.mem).1⟩, ?_, by rw [hstart], hmem⟩
    simp only [step, hphase] at hs ⊢
    split at hs
    · cases hs
    · rfl
  · refine ⟨⟨N.act a t.mem, .up x⟩, ?_, rfl, hact a _ _ (he a rfl) hR⟩
    simp only [step, hphase, hup]
  · refine ⟨⟨N.restart k t.mem, .down x (.restarted k)⟩, ?_, rfl, hrestart k _ _ hR⟩
    simp only [step, hphase, hup]
  · refine ⟨⟨t.mem, .down x .failed⟩, ?_, rfl, hR⟩
    simp only [step, hphase, hup]

/-- **The refinement rule of sessions**: if boots, actions with a property and restarts keep two
memories related, and boots start the software in the same way, then a run of one machine is a run
of the other. -/
theorem run_refines {C : α → Prop}
    (hboot : ∀ r m n, R m n → (M.boot r m).1 = (N.boot r n).1 ∧ R (M.boot r m).2 (N.boot r n).2)
    (hact : ∀ a m n, C a → R m n → R (M.act a m) (N.act a n))
    (hrestart : ∀ k m n, R m n → R (M.restart k m) (N.restart k n)) {m : μ} {n : ν} (hR : R m n)
    {tr : List (Event ρ α κ)} (htr : ∀ a, .act a ∈ tr → C a) {s : State μ τ κ}
    (hrun : Transition.run (step M) ⟨m, .off⟩ tr = some s) :
    ∃ t, Transition.run (step N) ⟨n, .off⟩ tr = some t ∧ t.phase = s.phase ∧ R s.mem t.mem := by
  induction tr using List.reverseRecOn generalizing s with
  | nil =>
    obtain rfl := Option.some.inj hrun
    exact ⟨⟨n, .off⟩, rfl, rfl, hR⟩
  | append_singleton tr e ih =>
    obtain ⟨u, hu, hs⟩ := Transition.run_concat.1 hrun
    obtain ⟨v, hv, hphase, hmem⟩ := ih (fun a ha => htr a (List.mem_append_left _ ha)) hu
    obtain ⟨t, ht, hres⟩ := exists_step hboot hact hrestart hphase hmem
      (fun a ha => htr a (ha ▸ List.mem_append_right _ List.mem_cons_self)) hs
    exact ⟨t, Transition.run_concat.2 ⟨v, hv, ht⟩, hres⟩

end Refinement

end Sessions
