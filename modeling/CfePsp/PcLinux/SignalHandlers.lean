import CfePsp.Lib.Runs

set_option relaxedAutoImplicit false
set_option autoImplicit false

/-!
# Nested exception handlers on the Linux port

A handler of `cfe_psp_exception.c` runs on the thread that the signal is delivered to, on top of
whatever that thread is doing, which may be another handler. `CFE_PSP_AsyncMask` decides both which
signals stay blocked meanwhile and whether a signal gets the handler that never returns.

## Main definitions

* `CfePsp.PcLinux.SignalHandlers.attachSigHandler` — `CFE_PSP_AttachSigHandler`.
* `CfePsp.PcLinux.SignalHandlers.Thread` — the signal mask of a thread, and the activations of
  handlers on it.
* `CfePsp.PcLinux.SignalHandlers.step` — the steps of all threads, in any interleaving.
* `CfePsp.PcLinux.SignalHandlers.ThreadInv` — only the lowest activation on a thread can return.

## Main results

* `CfePsp.PcLinux.SignalHandlers.logging_undisturbed` — nothing happens on a thread between the
  start and the end of the logging of an exception.
* `CfePsp.PcLinux.SignalHandlers.suspended_for_good` — a thread that a synchronous signal was
  delivered to never runs the application again.

## Design

A set of signals is a function to `Bool`. The kernel blocks `sa_mask` and the signal itself while a
handler runs, and restores the mask when the handler returns; `sigsuspend` waits with another mask
until a handler returns. A signal without a handler of this file has no steps: it does nothing, or
the process ends there. The stores to the log are in `CfePsp.PcLinux.ExceptionLog`.
-/

namespace CfePsp.PcLinux.SignalHandlers

open Transition

/-! ## The handlers -/

/-- A `sigset_t`. -/
abbrev Sigset := ℕ → Bool

/-- `sigaddset`. -/
def Sigset.add (mask : Sigset) (signo : ℕ) : Sigset := fun n => mask n || n == signo

/-- `sigdelset`. -/
def Sigset.del (mask : Sigset) (signo : ℕ) : Sigset := fun n => mask n && n != signo

/-- `SIGINT`. -/
def sigint : ℕ := 2
/-- `SIGILL`. -/
def sigill : ℕ := 4
/-- `SIGBUS`. -/
def sigbus : ℕ := 7
/-- `SIGFPE`. -/
def sigfpe : ℕ := 8
/-- `SIGSEGV`. -/
def sigsegv : ℕ := 11
/-- `SIGTERM`. -/
def sigterm : ℕ := 15

/-- The two handlers. -/
inductive Handler
  | exceptionSigHandler
  | exceptionSigHandlerSuspend
  deriving DecidableEq

/-- The members of `struct sigaction` that are set. -/
structure SigAction where
  handler : Handler
  mask : Sigset

/-- How far an activation of a handler has come. -/
inductive Stage
  | entered
  /-- Between `CFE_PSP_Exception_GetNextContextBuffer` and `CFE_PSP_Exception_WriteComplete`. -/
  | logging
  | logged
  /-- `pthread_kill` has been called. -/
  | signalled
  /-- In `sigsuspend`, with the mask that it replaced. -/
  | suspended (replaced : Sigset)
  /-- `sigsuspend` has returned. -/
  | resumed

/-- An activation of a handler, with the mask that its return restores. -/
structure Activation where
  handler : Handler
  stage : Stage
  saved : Sigset

/-- A thread, with the activations of handlers on it, the latest first. -/
structure Thread where
  mask : Sigset
  stack : List Activation

/-- The steps of a thread. -/
inductive ThreadEvent
  /-- The application runs, and leaves the thread with some mask. -/
  | runApplication (mask : Sigset)
  /-- A signal is delivered. -/
  | deliver (signo : ℕ)
  /-- `CFE_PSP_Exception_GetNextContextBuffer` returns a buffer, or `NULL`. -/
  | getNextContextBuffer (stored : Bool)
  | writeComplete
  | pthreadKill
  | sigsuspend
  /-- The handler returns. -/
  | handlerReturn

/-- What the return of a handler leaves behind: a `sigsuspend` below it returns. -/
def resume (saved : Sigset) : List Activation → Thread
  | ⟨handler, .suspended replaced, saved'⟩ :: below =>
      ⟨replaced, ⟨handler, .resumed, saved'⟩ :: below⟩
  | stack => ⟨saved, stack⟩

/-- One step of a thread, while `CFE_PSP_AsyncMask` and the attached handlers are as given. -/
def Thread.step (asyncMask : Sigset) (action : ℕ → Option SigAction) :
    Thread → ThreadEvent → Option Thread
  | ⟨_, []⟩, .runApplication mask => some ⟨mask, []⟩
  | ⟨mask, stack⟩, .deliver signo =>
      match action signo with
      | some act =>
          if mask signo then none
          else some ⟨Sigset.add (fun n => mask n || act.mask n) signo,
            ⟨act.handler, .entered, mask⟩ :: stack⟩
      | none => none
  | ⟨mask, ⟨handler, .entered, saved⟩ :: below⟩, .getNextContextBuffer stored =>
      some ⟨mask, ⟨handler, if stored then .logging else .logged, saved⟩ :: below⟩
  | ⟨mask, ⟨handler, .logging, saved⟩ :: below⟩, .writeComplete =>
      some ⟨mask, ⟨handler, .logged, saved⟩ :: below⟩
  | ⟨mask, ⟨handler, .logged, saved⟩ :: below⟩, .pthreadKill =>
      some ⟨mask, ⟨handler, .signalled, saved⟩ :: below⟩
  | ⟨mask, ⟨.exceptionSigHandlerSuspend, .signalled, saved⟩ :: below⟩, .sigsuspend =>
      some ⟨asyncMask, ⟨.exceptionSigHandlerSuspend, .suspended mask, saved⟩ :: below⟩
  | ⟨_, ⟨.exceptionSigHandler, .signalled, saved⟩ :: below⟩, .handlerReturn =>
      some (resume saved below)
  | ⟨_, ⟨.exceptionSigHandlerSuspend, .resumed, saved⟩ :: below⟩, .handlerReturn =>
      some (resume saved below)
  | _, _ => none

/-- The state of the process. -/
structure State where
  /-- `CFE_PSP_AsyncMask`. -/
  asyncMask : Sigset
  /-- What `sigaction` has been called with. -/
  action : ℕ → Option SigAction
  thread : ℕ → Thread

/-- `CFE_PSP_AttachSigHandler`. -/
def attachSigHandler (s : State) (signo : ℕ) : State :=
  let sa : SigAction :=
    if !s.asyncMask signo then ⟨.exceptionSigHandlerSuspend, s.asyncMask.add signo⟩
    else ⟨.exceptionSigHandler, s.asyncMask⟩
  { s with action := Function.update s.action signo (some sa) }

/-- What `CFE_PSP_AttachExceptions` makes `CFE_PSP_AsyncMask`. -/
def asyncSignals : Sigset :=
  let filled : Sigset := fun _ => true
  (((filled.del sigill).del sigfpe).del sigbus).del sigsegv

/-- `CFE_PSP_AttachExceptions`. -/
def attachExceptions (s : State) : State :=
  attachSigHandler (attachSigHandler { s with asyncMask := asyncSignals } sigint) sigterm

/-- `CFE_PSP_SetDefaultExceptionEnvironment`. -/
def setDefaultExceptionEnvironment (s : State) : State := attachSigHandler s sigfpe

/-- The steps. -/
inductive Event
  | thread (i : ℕ) (e : ThreadEvent)
  | attachExceptions
  | setDefaultExceptionEnvironment

/-- One step. -/
def step (s : State) : Event → Option State
  | .thread i e => ((s.thread i).step s.asyncMask s.action e).map fun t =>
      { s with thread := Function.update s.thread i t }
  | .attachExceptions => some (attachExceptions s)
  | .setDefaultExceptionEnvironment => some (setDefaultExceptionEnvironment s)

/-- The threads, with any masks, when `CFE_PSP_AttachExceptions` has been called for the first
time. -/
def start (mask : ℕ → Sigset) : State :=
  attachExceptions ⟨fun _ => false, fun _ => none, fun i => ⟨mask i, []⟩⟩

/-! ## The attached handlers -/

/-- The signals that are not among those that an instruction of the thread itself raises. -/
def IsAsync (signo : ℕ) : Prop :=
  signo ≠ sigill ∧ signo ≠ sigfpe ∧ signo ≠ sigbus ∧ signo ≠ sigsegv

/-- What holds of the attached handlers: they block the asynchronous signals, and a signal has the
handler that returns exactly when it is one of these. -/
structure TableInv (s : State) : Prop where
  asyncMask : ∀ n, s.asyncMask n = true ↔ IsAsync n
  masked : ∀ signo act, s.action signo = some act → ∀ n, IsAsync n → act.mask n = true
  returns : ∀ signo act, s.action signo = some act →
    (act.handler = .exceptionSigHandler ↔ IsAsync signo)

section Table

variable {s : State}

lemma TableInv.attachSigHandler (h : TableInv s) (signo : ℕ) :
    TableInv (attachSigHandler s signo) := by
  have hattached : ∀ signo' act,
      (SignalHandlers.attachSigHandler s signo).action signo' = some act →
      (∀ n, IsAsync n → act.mask n = true) ∧
        (act.handler = .exceptionSigHandler ↔ IsAsync signo') := by
    intro signo' act hact
    by_cases hsame : signo' = signo
    · subst hsame
      simp only [SignalHandlers.attachSigHandler, Function.update_self, Option.some.injEq] at hact
      subst hact
      cases hasync : s.asyncMask signo' with
      | false =>
        have hsync : ¬IsAsync signo' := by
          rw [← h.asyncMask, hasync]
          exact Bool.false_ne_true
        refine ⟨fun n hn => ?_, by simpa using hsync⟩
        simp [Sigset.add, (h.asyncMask n).2 hn]
      | true =>
        exact ⟨fun n hn => (h.asyncMask n).2 hn, by simpa using (h.asyncMask signo').1 hasync⟩
    · simp only [SignalHandlers.attachSigHandler, Function.update_of_ne hsame] at hact
      exact ⟨h.masked signo' act hact, h.returns signo' act hact⟩
  exact ⟨h.asyncMask, fun signo' act hact => (hattached signo' act hact).1,
    fun signo' act hact => (hattached signo' act hact).2⟩

/-- `CFE_PSP_AttachExceptions` sets up `CFE_PSP_AsyncMask`, whatever it was. -/
lemma tableInv_attachExceptions
    (h : ∀ signo act, s.action signo = some act → (∀ n, IsAsync n → act.mask n = true) ∧
      (act.handler = .exceptionSigHandler ↔ IsAsync signo)) :
    TableInv (attachExceptions s) := by
  have hmask : TableInv { s with asyncMask := asyncSignals } :=
    ⟨fun n => by simp [asyncSignals, Sigset.del, IsAsync, and_assoc],
      fun signo act hact => (h signo act hact).1, fun signo act hact => (h signo act hact).2⟩
  exact (hmask.attachSigHandler sigint).attachSigHandler sigterm

lemma tableInv_start (mask : ℕ → Sigset) : TableInv (start mask) :=
  tableInv_attachExceptions nofun

end Table

/-! ## The activations on a thread -/

/-- **The invariant of a thread**: while there is a handler on it, the asynchronous signals are
blocked, and every activation above another is one that does not return. -/
structure ThreadInv (t : Thread) : Prop where
  masked : t.stack ≠ [] → ∀ n, IsAsync n → t.mask n = true
  above : ∀ a ∈ t.stack.dropLast, a.handler = .exceptionSigHandlerSuspend
  waiting : ∀ a ∈ t.stack, a.stage ≠ .resumed

section Activations

variable {s : State} {t u : Thread} {e : ThreadEvent} {a b : Activation}
  {below : List Activation} {mask mask' : Sigset}

lemma threadInv_idle (mask : Sigset) : ThreadInv ⟨mask, []⟩ :=
  ⟨fun h => absurd rfl h, nofun, nofun⟩

/-- Below a handler that returns there is nothing. -/
lemma ThreadInv.eq_nil (h : ThreadInv ⟨mask, a :: below⟩)
    (ha : a.handler = .exceptionSigHandler) : below = [] := by
  cases below with
  | nil => rfl
  | cons b below =>
    have habove := h.above a List.mem_cons_self
    exact absurd (ha.symm.trans habove) nofun

/-- The latest activation goes on, with another mask that blocks the asynchronous signals. -/
lemma ThreadInv.advance (h : ThreadInv ⟨mask, a :: below⟩) (hb : b.handler = a.handler)
    (hstage : b.stage ≠ .resumed) (hmask : ∀ n, IsAsync n → mask' n = true) :
    ThreadInv ⟨mask', b :: below⟩ where
  masked := fun _ => hmask
  above := by
    cases below with
    | nil => exact nofun
    | cons a' below =>
      intro x hx
      rcases List.mem_cons.1 hx with rfl | hx
      · exact hb.trans (h.above a List.mem_cons_self)
      · exact h.above x (List.mem_cons_of_mem _ hx)
  waiting := by
    intro x hx
    rcases List.mem_cons.1 hx with rfl | hx
    · exact hstage
    · exact h.waiting x (List.mem_cons_of_mem _ hx)

/-- A signal is delivered on top of what the thread is doing.

**Proof sketch.** If there is a handler already, the signal is not an asynchronous one, so the new
handler is one that does not return. -/
lemma ThreadInv.deliver (htable : TableInv s) (h : ThreadInv t) {signo : ℕ} {act : SigAction}
    (hact : s.action signo = some act) (hopen : t.mask signo = false) :
    ThreadInv ⟨Sigset.add (fun n => t.mask n || act.mask n) signo,
      ⟨act.handler, .entered, t.mask⟩ :: t.stack⟩ where
  masked := fun _ n hn => by simp [Sigset.add, htable.masked signo act hact n hn]
  above := by
    intro a ha
    cases hstack : t.stack with
    | nil => simp [hstack] at ha
    | cons b below =>
      rw [hstack, List.dropLast_cons_cons] at ha
      rcases List.mem_cons.1 ha with rfl | ha
      · have hsync : ¬IsAsync signo := fun hasync => by
          have hblocked := h.masked (by simp [hstack]) signo hasync
          exact Bool.false_ne_true (hopen.symm.trans hblocked)
        cases hhandler : act.handler with
        | exceptionSigHandler => exact absurd ((htable.returns signo act hact).1 hhandler) hsync
        | exceptionSigHandlerSuspend => rfl
      · exact h.above a (hstack ▸ ha)
  waiting := by
    intro a ha
    rcases List.mem_cons.1 ha with rfl | ha
    · exact nofun
    · exact h.waiting a ha

/-- The steps of a thread with the invariant, a rule for each thing that can happen. -/
inductive ThreadStep (s : State) : Thread → ThreadEvent → Thread → Prop
  | runApplication {mask mask' : Sigset} :
      ThreadStep s ⟨mask, []⟩ (.runApplication mask') ⟨mask', []⟩
  | deliver {mask : Sigset} {stack signo act} (hact : s.action signo = some act)
      (hopen : mask signo = false) :
      ThreadStep s ⟨mask, stack⟩ (.deliver signo)
        ⟨Sigset.add (fun n => mask n || act.mask n) signo, ⟨act.handler, .entered, mask⟩ :: stack⟩
  | stored {mask : Sigset} {handler saved below} :
      ThreadStep s ⟨mask, ⟨handler, .entered, saved⟩ :: below⟩ (.getNextContextBuffer true)
        ⟨mask, ⟨handler, .logging, saved⟩ :: below⟩
  | full {mask : Sigset} {handler saved below} :
      ThreadStep s ⟨mask, ⟨handler, .entered, saved⟩ :: below⟩ (.getNextContextBuffer false)
        ⟨mask, ⟨handler, .logged, saved⟩ :: below⟩
  | writeComplete {mask : Sigset} {handler saved below} :
      ThreadStep s ⟨mask, ⟨handler, .logging, saved⟩ :: below⟩ .writeComplete
        ⟨mask, ⟨handler, .logged, saved⟩ :: below⟩
  | pthreadKill {mask : Sigset} {handler saved below} :
      ThreadStep s ⟨mask, ⟨handler, .logged, saved⟩ :: below⟩ .pthreadKill
        ⟨mask, ⟨handler, .signalled, saved⟩ :: below⟩
  | sigsuspend {mask : Sigset} {saved below} :
      ThreadStep s ⟨mask, ⟨.exceptionSigHandlerSuspend, .signalled, saved⟩ :: below⟩ .sigsuspend
        ⟨s.asyncMask, ⟨.exceptionSigHandlerSuspend, .suspended mask, saved⟩ :: below⟩
  | handlerReturn {mask saved : Sigset} :
      ThreadStep s ⟨mask, [⟨.exceptionSigHandler, .signalled, saved⟩]⟩ .handlerReturn ⟨saved, []⟩

/-- With the invariant, a handler that returns goes back to the application. -/
lemma threadStep_of_step (h : ThreadInv t) (hs : t.step s.asyncMask s.action e = some u) :
    ThreadStep s t e u := by
  obtain ⟨mask, stack⟩ := t
  cases e with
  | runApplication mask' =>
    cases stack with
    | nil =>
      obtain rfl := Option.some.inj hs
      exact .runApplication
    | cons a below => exact absurd hs nofun
  | deliver signo =>
    simp only [Thread.step] at hs
    split at hs
    case h_1 act hact =>
      split_ifs at hs with hblocked
      obtain rfl := Option.some.inj hs
      exact .deliver hact (Bool.not_eq_true _ ▸ hblocked)
    case h_2 => exact absurd hs nofun
  | getNextContextBuffer stored =>
    obtain _ | ⟨⟨handler, stage, saved⟩, below⟩ := stack
    · exact absurd hs nofun
    · cases stage <;> simp only [Thread.step, reduceCtorEq] at hs
      obtain rfl := Option.some.inj hs
      cases stored
      · exact .full
      · exact .stored
  | writeComplete | pthreadKill =>
    obtain _ | ⟨⟨handler, stage, saved⟩, below⟩ := stack
    · exact absurd hs nofun
    · cases stage <;> simp only [Thread.step, reduceCtorEq] at hs
      obtain rfl := Option.some.inj hs
      constructor
  | sigsuspend =>
    obtain _ | ⟨⟨handler, stage, saved⟩, below⟩ := stack
    · exact absurd hs nofun
    · cases handler <;> cases stage <;> simp only [Thread.step, reduceCtorEq] at hs
      obtain rfl := Option.some.inj hs
      exact .sigsuspend
  | handlerReturn =>
    obtain _ | ⟨⟨handler, stage, saved⟩, below⟩ := stack
    · exact absurd hs nofun
    · cases handler <;> cases stage <;> simp only [Thread.step, reduceCtorEq] at hs
      · obtain rfl : below = [] := h.eq_nil rfl
        obtain rfl := Option.some.inj hs
        exact .handlerReturn
      · exact absurd rfl (h.waiting _ List.mem_cons_self)

/-- **A step of a thread keeps its invariant.** -/
lemma ThreadInv.step (htable : TableInv s) (h : ThreadInv t) (hs : ThreadStep s t e u) :
    ThreadInv u := by
  cases hs with
  | runApplication => exact threadInv_idle _
  | deliver hact hopen => exact h.deliver htable hact hopen
  | stored | full | writeComplete | pthreadKill =>
    exact h.advance rfl nofun (h.masked (List.cons_ne_nil _ _))
  | sigsuspend => exact h.advance rfl nofun fun n hn => (htable.asyncMask n).2 hn
  | handlerReturn => exact threadInv_idle _

end Activations

/-! ## Runs -/

section Runs

variable {mask : ℕ → Sigset} {s t : State} {tr tr' : List Event} {e : Event} {i : ℕ}

/-- The invariant of the process. -/
def Inv (s : State) : Prop := TableInv s ∧ ∀ i, ThreadInv (s.thread i)

lemma inv_start (mask : ℕ → Sigset) : Inv (start mask) :=
  ⟨tableInv_start mask, fun i => threadInv_idle (mask i)⟩

/-- What a step is for a thread: one of its own, or nothing. -/
lemma thread_step (hs : step s e = some t) (hinv : Inv s) (i : ℕ) :
    (∃ e', e = .thread i e' ∧ ThreadStep s (s.thread i) e' (t.thread i)) ∨
      (∀ e', e ≠ .thread i e') ∧ t.thread i = s.thread i := by
  cases e with
  | thread j e' =>
    obtain ⟨u, hu, rfl⟩ := Option.map_eq_some_iff.1 hs
    by_cases hij : i = j
    · subst hij
      refine .inl ⟨e', rfl, ?_⟩
      simpa only [Function.update_self] using threadStep_of_step (hinv.2 i) hu
    · refine .inr ⟨fun e'' heq => hij (Event.thread.inj heq).1.symm, ?_⟩
      exact Function.update_of_ne hij _ _
  | attachExceptions | setDefaultExceptionEnvironment =>
    obtain rfl := Option.some.inj hs
    exact .inr ⟨nofun, rfl⟩

/-- Every step keeps the invariant. -/
lemma Inv.step (hinv : Inv s) (hs : SignalHandlers.step s e = some t) : Inv t := by
  refine ⟨?_, fun i => ?_⟩
  · have htable := hinv.1
    cases e with
    | thread j e' =>
      obtain ⟨u, -, rfl⟩ := Option.map_eq_some_iff.1 hs
      exact ⟨htable.asyncMask, htable.masked, htable.returns⟩
    | attachExceptions =>
      obtain rfl := Option.some.inj hs
      exact tableInv_attachExceptions fun signo act hact =>
        ⟨htable.masked signo act hact, htable.returns signo act hact⟩
    | setDefaultExceptionEnvironment =>
      obtain rfl := Option.some.inj hs
      exact htable.attachSigHandler sigfpe
  · rcases thread_step hs hinv i with ⟨e', -, hstep⟩ | ⟨-, heq⟩
    · exact (hinv.2 i).step hinv.1 hstep
    · exact heq ▸ hinv.2 i

lemma inv_of_run (h : run step (start mask) tr = some s) : Inv s :=
  run_invariant (P := fun _ s => Inv s) (inv_start mask) (fun _ _ _ _ hinv hs => hinv.step hs) h

/-- The activation that the thread is executing is between `GetNextContextBuffer` and
`WriteComplete`. -/
def Thread.IsLogging (t : Thread) : Prop :=
  ∃ a below, t.stack = a :: below ∧ a.stage = .logging

/-- Only the start of the logging leads a thread into it. -/
lemma ThreadStep.isLogging {t u : Thread} {e : ThreadEvent} (hs : ThreadStep s t e u)
    (hu : u.IsLogging) : e = .getNextContextBuffer true := by
  obtain ⟨a, below, hstack, hstage⟩ := hu
  cases hs with
  | stored => rfl
  | runApplication | handlerReturn => exact absurd hstack nofun
  | deliver | full | writeComplete | pthreadKill | sigsuspend =>
    obtain ⟨rfl, -⟩ := List.cons.inj hstack
    exact absurd hstage nofun

/-- **The logging of an exception is not disturbed by its own thread.** In every run of any number
of threads with any signals, `CFE_PSP_Exception_WriteComplete` is called on a thread only when the
last thing that happened on the thread was that `CFE_PSP_Exception_GetNextContextBuffer` returned a
buffer: a handler that another one interrupts while it logs never gets to complete its entry.

**Proof sketch.** The invariant of a thread: an activation above another never returns, so a thread
gets into the middle of the logging only by starting it. -/
theorem logging_undisturbed
    (h : run step (start mask) (tr ++ [.thread i .writeComplete]) = some s) :
    Since (· = .thread i (.getNextContextBuffer true)) (fun e => ∃ e', e = .thread i e') tr := by
  obtain ⟨u, hu, hs⟩ := run_concat.1 h
  have hlogging : (u.thread i).IsLogging := by
    rcases thread_step hs (inv_of_run hu) i with ⟨e', he', hstep⟩ | ⟨hne, -⟩
    · obtain rfl := (Event.thread.inj he').2
      generalize u.thread i = t at hstep ⊢
      generalize s.thread i = t' at hstep
      cases hstep
      exact ⟨_, _, rfl, rfl⟩
    · exact absurd rfl (hne _)
  refine (run_invariant (P := fun tr u => Inv u ∧ ((u.thread i).IsLogging →
    Since (· = Event.thread i (.getNextContextBuffer true)) (fun e => ∃ e', e = .thread i e') tr))
    ⟨inv_start mask, fun hlog => ?_⟩ ?_ hu).2 hlogging
  · obtain ⟨a, below, hstack, -⟩ := hlog
    exact absurd hstack nofun
  · rintro tr s e t ⟨hinv, hsince⟩ hs
    refine ⟨hinv.step hs, fun hlog => since_concat.2 ?_⟩
    rcases thread_step hs hinv i with ⟨e', rfl, hstep⟩ | ⟨hne, heq⟩
    · obtain rfl := hstep.isLogging hlog
      exact .inl rfl
    · refine .inr ⟨hsince (heq ▸ hlog), ?_⟩
      rintro ⟨e', he'⟩
      exact hne e' he'

/-- A handler is interrupted while it logs. -/
def interruptedWhileLogging : List Event :=
  [.setDefaultExceptionEnvironment, .thread 0 (.deliver sigint),
    .thread 0 (.getNextContextBuffer true), .thread 0 (.deliver sigfpe),
    .thread 1 (.runApplication fun _ => true), .thread 0 (.getNextContextBuffer true)]

/-- The entry that is completed is the one of the handler that interrupted the other. -/
theorem logging_undisturbed_of_nested :
    ∃ s, run step (start fun _ _ => false)
        (interruptedWhileLogging ++ [.thread 0 .writeComplete]) = some s ∧
      Since (· = Event.thread 0 (.getNextContextBuffer true))
        (fun e => ∃ e', e = Event.thread 0 e') interruptedWhileLogging :=
  ⟨_, rfl, @logging_undisturbed (fun _ _ => false) _ interruptedWhileLogging 0 rfl⟩

/-- There is an activation on the thread that does not return. -/
def Thread.IsFaulted (t : Thread) : Prop :=
  ∃ a ∈ t.stack, a.handler = .exceptionSigHandlerSuspend

/-- A thread that faulted stays so; what it still does is to log, and to take signals that are not
asynchronous. -/
lemma ThreadStep.isFaulted {t u : Thread} {e : ThreadEvent} (hs : ThreadStep s t e u)
    (hinv : ThreadInv t) (ht : t.IsFaulted) :
    u.IsFaulted ∧ (∀ mask, e ≠ .runApplication mask) ∧ e ≠ .handlerReturn ∧
      ∀ signo, e = .deliver signo → ¬IsAsync signo := by
  obtain ⟨a, ha, hhandler⟩ := ht
  cases hs with
  | runApplication => exact absurd ha nofun
  | @deliver mask stack signo act hact hopen =>
    refine ⟨⟨a, List.mem_cons_of_mem _ ha, hhandler⟩, nofun, nofun, fun n hn hasync => ?_⟩
    obtain rfl := ThreadEvent.deliver.inj hn
    have hblocked := hinv.masked (List.ne_nil_of_mem ha) signo hasync
    exact Bool.false_ne_true (hopen.symm.trans hblocked)
  | stored | full | writeComplete | pthreadKill | sigsuspend =>
    refine ⟨?_, nofun, nofun, nofun⟩
    rcases List.mem_cons.1 ha with rfl | ha
    · exact ⟨_, List.mem_cons_self, hhandler⟩
    · exact ⟨a, List.mem_cons_of_mem _ ha, hhandler⟩
  | handlerReturn =>
    obtain rfl := List.mem_singleton.1 ha
    exact absurd hhandler nofun

/-- **A thread that faults is suspended for good.** In every run of any number of threads with any
signals, after a synchronous signal was delivered to a thread, the thread never runs the application
again, no handler on it ever returns, and neither `SIGINT` nor `SIGTERM` nor any other asynchronous
signal is delivered to it.

**Proof sketch.** The handler of the signal is one that does not return, and `sigsuspend` would
return only after a handler above it had; but such a handler does not return either. -/
theorem suspended_for_good {signo : ℕ} (hsync : ¬IsAsync signo)
    (h : run step (start mask) (tr ++ .thread i (.deliver signo) :: tr') = some t)
    {e : ThreadEvent} (he : .thread i e ∈ tr') :
    (∀ mask, e ≠ .runApplication mask) ∧ e ≠ .handlerReturn ∧
      ∀ signo, e = .deliver signo → ¬IsAsync signo := by
  obtain ⟨u, hu, hrest⟩ := run_append.1 h
  obtain ⟨v, hs, hrest⟩ := run_cons.1 hrest
  have hinv := inv_of_run hu
  have hfaulted : (v.thread i).IsFaulted := by
    rcases thread_step hs hinv i with ⟨e', he', hstep⟩ | ⟨hne, -⟩
    · obtain rfl := (Event.thread.inj he').2
      generalize u.thread i = t at hstep
      generalize v.thread i = t' at hstep ⊢
      cases hstep with
      | @deliver mask stack signo act hact hopen =>
        refine ⟨_, List.mem_cons_self, ?_⟩
        cases hhandler : act.handler with
        | exceptionSigHandler => exact absurd ((hinv.1.returns _ act hact).1 hhandler) hsync
        | exceptionSigHandlerSuspend => rfl
    · exact absurd rfl (hne _)
  refine (run_invariant (P := fun tr' t => Inv t ∧ (t.thread i).IsFaulted ∧
    ∀ e, Event.thread i e ∈ tr' → (∀ mask, e ≠ .runApplication mask) ∧ e ≠ .handlerReturn ∧
      ∀ signo, e = .deliver signo → ¬IsAsync signo)
    ⟨hinv.step hs, hfaulted, nofun⟩ ?_ hrest).2.2 e he
  rintro tr s e t ⟨hinv, hfaulted, hall⟩ hs
  rcases thread_step hs hinv i with ⟨e', rfl, hstep⟩ | ⟨hne, heq⟩
  · obtain ⟨hfaulted', hprops⟩ := hstep.isFaulted (hinv.2 i) hfaulted
    refine ⟨hinv.step hs, hfaulted', fun e he => ?_⟩
    rcases List.mem_append.1 he with he | he
    · exact hall e he
    · obtain rfl := (Event.thread.inj (List.mem_singleton.1 he)).2
      exact hprops
  · refine ⟨hinv.step hs, heq ▸ hfaulted, fun e he => ?_⟩
    rcases List.mem_append.1 he with he | he
    · exact hall e he
    · exact absurd (List.mem_singleton.1 he).symm (hne e)

/-- What a thread does after it has faulted, with another `SIGFPE` sent to it later. -/
def suspendedAndSignalled : List Event :=
  [.thread 0 (.getNextContextBuffer false), .thread 0 .pthreadKill, .thread 0 .sigsuspend,
    .thread 0 (.deliver sigfpe), .thread 0 (.getNextContextBuffer true)]

/-- The thread does not return from the first handler by that. -/
theorem suspended_for_good_of_again :
    ∃ s, run step (start fun _ _ => false) ([.setDefaultExceptionEnvironment] ++
        .thread 0 (.deliver sigfpe) :: suspendedAndSignalled) = some s ∧
      ThreadEvent.deliver sigfpe ≠ .handlerReturn := by
  refine ⟨_, rfl, ?_⟩
  exact (@suspended_for_good (fun _ _ => false) _ [.setDefaultExceptionEnvironment]
    suspendedAndSignalled 0 sigfpe (by simp [IsAsync]) rfl _ (by simp [suspendedAndSignalled])).2.1

end Runs

end CfePsp.PcLinux.SignalHandlers
