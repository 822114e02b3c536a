import CfePsp.Lib.Progress

set_option relaxedAutoImplicit false
set_option autoImplicit false

/-!
# The idle task of the Linux port

The thread that started the process ends in `OS_Application_Run`, where it waits for the signal
`CFE_PSP_EXCEPTION_EVENT_SIGNAL`. A handler that has logged an exception sends it the signal so that
it calls `SystemNotify` of the cFE; `CFE_PSP_Restart` sets `ShutdownReq` and sends the same signal
so that it leaves its loop and deletes all tasks. A signal that is pending already is not queued a
second time, and `ShutdownReq` is read and written without a lock. A `SIGFPE` on the idle thread
itself suspends it for good.

## Main definitions

* `CfePsp.PcLinux.IdleTask.Pc` — where the idle thread is in `OS_Application_Run`.
* `CfePsp.PcLinux.IdleTask.step` — the steps of the idle thread, of the handlers and of
  `CFE_PSP_Restart`, in any interleaving.
* `CfePsp.PcLinux.IdleTask.Unnotified` — an exception was signalled, and no call of `SystemNotify`
  has begun since.

## Main results

* `CfePsp.PcLinux.IdleTask.exceptions_notified` — the idle thread never sleeps on an exception that
  was signalled, and never notifies the cFE of nothing.
* `CfePsp.PcLinux.IdleTask.notified_within` — how many steps the idle thread takes until it
  notifies, unless it is suspended.
* `CfePsp.PcLinux.IdleTask.shutdown_reached` — after `CFE_PSP_Restart` has sent its signal, the idle
  thread gets to the deletion of all tasks within four steps, and is never blocked before, unless it
  is suspended.
* `CfePsp.PcLinux.IdleTask.stuck_of_suspended` — a suspended idle thread does neither.

## Design

The signal is blocked in the idle thread outside of `sigwait`, as the OSAL leaves it, and pending at
most once. `sigwait` may return an error, which the loop ignores. Whether the configuration of the
cFE has a `SystemNotify` is a parameter. The steps of a handler on the idle thread itself are steps
of a handler like any other; the handler of a synchronous signal, which does not return (see
`CfePsp.PcLinux.SignalHandlers`), takes the thread out of `OS_Application_Run` besides.
-/

namespace CfePsp.PcLinux.IdleTask

open Transition

/-- Where the idle thread is in `OS_Application_Run`, or that it has left it. -/
inductive Pc
  /-- At the condition of the loop. -/
  | test
  /-- In `sigwait`. -/
  | waiting
  /-- `sigwait` has returned: with the signal, or with an error. -/
  | woken (signalled : Bool)
  /-- The condition of the `if` was true. -/
  | notify
  /-- In `SystemNotify`. -/
  | notifying
  /-- The loop has ended. -/
  | shutdown
  /-- `OS_DeleteAllObjects` has been called. -/
  | deleted
  /-- In `CFE_PSP_ExceptionSigHandlerSuspend`. -/
  | suspended
  deriving DecidableEq

/-- The state of the idle thread, and of what it shares with the others. -/
structure State where
  pc : Pc
  /-- `CFE_PSP_IdleTaskState.ShutdownReq`. -/
  shutdownReq : Bool
  /-- `CFE_PSP_EXCEPTION_EVENT_SIGNAL` is pending for the idle thread. -/
  pending : Bool
  /-- How many handlers have logged an exception and have not sent the signal yet. -/
  handlers : ℕ
  /-- How many calls of `CFE_PSP_Restart` have set `ShutdownReq` and have not sent the signal
  yet. -/
  restarts : ℕ
  deriving DecidableEq

/-- The idle thread enters `OS_Application_Run`. -/
def start : State := ⟨.test, false, false, 0, 0⟩

/-- The steps. -/
inductive Event
  /-- The condition of the loop is evaluated. -/
  | testShutdownReq
  /-- `sigwait` returns the signal, or an error. -/
  | sigwait (signalled : Bool)
  /-- The condition of the `if` is evaluated. -/
  | testEvent
  /-- `SystemNotify` is called. -/
  | beginNotify
  /-- `SystemNotify` returns. -/
  | endNotify
  /-- `OS_DeleteAllObjects`. -/
  | deleteAllObjects
  /-- A handler has come to the end of its logging. -/
  | logException
  /-- A handler calls `pthread_kill`. -/
  | signalException
  /-- `CFE_PSP_Restart` sets `ShutdownReq`. -/
  | requestShutdown
  /-- `CFE_PSP_Restart` calls `pthread_kill`. -/
  | signalShutdown
  /-- A synchronous signal is delivered to the idle thread. -/
  | fault
  deriving DecidableEq

/-- The step is one of the idle thread. -/
def Event.ofIdle : Event → Bool
  | .testShutdownReq | .sigwait _ | .testEvent | .beginNotify | .endNotify
  | .deleteAllObjects => true
  | .logException | .signalException | .requestShutdown | .signalShutdown | .fault => false

/-- One step; when all tasks are deleted, nobody takes any. -/
def step (systemNotify : Bool) (s : State) : Event → Option State
  | .testShutdownReq =>
      if s.pc = .test then some { s with pc := if s.shutdownReq then .shutdown else .waiting }
      else none
  | .sigwait signalled =>
      if s.pc = .waiting ∧ (signalled = true → s.pending = true) then
        some { s with pc := .woken signalled, pending := s.pending && !signalled }
      else none
  | .testEvent =>
      match s.pc with
      | .woken signalled =>
          some { s with
            pc := if signalled && !s.shutdownReq && systemNotify then .notify else .test }
      | _ => none
  | .beginNotify => if s.pc = .notify then some { s with pc := .notifying } else none
  | .endNotify => if s.pc = .notifying then some { s with pc := .test } else none
  | .deleteAllObjects => if s.pc = .shutdown then some { s with pc := .deleted } else none
  | .logException =>
      if s.pc = .deleted then none else some { s with handlers := s.handlers + 1 }
  | .signalException =>
      if s.pc = .deleted ∨ s.handlers = 0 then none
      else some { s with handlers := s.handlers - 1, pending := true }
  | .requestShutdown =>
      if s.pc = .deleted then none
      else some { s with shutdownReq := true, restarts := s.restarts + 1 }
  | .signalShutdown =>
      if s.pc = .deleted ∨ s.restarts = 0 then none
      else some { s with restarts := s.restarts - 1, pending := true }
  | .fault => if s.pc = .deleted then none else some { s with pc := .suspended }

/-- The steps as a relation, a rule for each thing that can happen. -/
inductive Step (systemNotify : Bool) : State → Event → State → Prop
  | enterSigwait {p h r} :
      Step systemNotify ⟨.test, false, p, h, r⟩ .testShutdownReq ⟨.waiting, false, p, h, r⟩
  | leaveLoop {p h r} :
      Step systemNotify ⟨.test, true, p, h, r⟩ .testShutdownReq ⟨.shutdown, true, p, h, r⟩
  | signalled {req h r} :
      Step systemNotify ⟨.waiting, req, true, h, r⟩ (.sigwait true)
        ⟨.woken true, req, false, h, r⟩
  | failed {req p h r} :
      Step systemNotify ⟨.waiting, req, p, h, r⟩ (.sigwait false) ⟨.woken false, req, p, h, r⟩
  | wanted {p h r} (hn : systemNotify = true) :
      Step systemNotify ⟨.woken true, false, p, h, r⟩ .testEvent ⟨.notify, false, p, h, r⟩
  | unwanted {w req p h r} (hn : w = false ∨ req = true ∨ systemNotify = false) :
      Step systemNotify ⟨.woken w, req, p, h, r⟩ .testEvent ⟨.test, req, p, h, r⟩
  | beginNotify {req p h r} :
      Step systemNotify ⟨.notify, req, p, h, r⟩ .beginNotify ⟨.notifying, req, p, h, r⟩
  | endNotify {req p h r} :
      Step systemNotify ⟨.notifying, req, p, h, r⟩ .endNotify ⟨.test, req, p, h, r⟩
  | deleteAllObjects {req p h r} :
      Step systemNotify ⟨.shutdown, req, p, h, r⟩ .deleteAllObjects ⟨.deleted, req, p, h, r⟩
  | logException {pc req p h r} (hpc : pc ≠ .deleted) :
      Step systemNotify ⟨pc, req, p, h, r⟩ .logException ⟨pc, req, p, h + 1, r⟩
  | signalException {pc req p h r} (hpc : pc ≠ .deleted) :
      Step systemNotify ⟨pc, req, p, h + 1, r⟩ .signalException ⟨pc, req, true, h, r⟩
  | requestShutdown {pc req p h r} (hpc : pc ≠ .deleted) :
      Step systemNotify ⟨pc, req, p, h, r⟩ .requestShutdown ⟨pc, true, p, h, r + 1⟩
  | signalShutdown {pc req p h r} (hpc : pc ≠ .deleted) :
      Step systemNotify ⟨pc, req, p, h, r + 1⟩ .signalShutdown ⟨pc, req, true, h, r⟩
  | fault {pc req p h r} (hpc : pc ≠ .deleted) :
      Step systemNotify ⟨pc, req, p, h, r⟩ .fault ⟨.suspended, req, p, h, r⟩

variable {systemNotify : Bool} {s t : State} {e : Event} {tr : List Event}

/-- The rules are the steps. -/
lemma step_iff : step systemNotify s e = some t ↔ Step systemNotify s e t := by
  obtain ⟨pc, req, p, h, r⟩ := s
  constructor
  · intro hs
    cases e with
    | testShutdownReq =>
      simp only [step] at hs
      split_ifs at hs with hpc hreq
      · obtain rfl := Option.some.inj hs
        subst hpc hreq
        exact .leaveLoop
      · obtain rfl := Option.some.inj hs
        rw [Bool.not_eq_true] at hreq
        subst hpc hreq
        exact .enterSigwait
    | sigwait signalled =>
      simp only [step] at hs
      split_ifs at hs with hpc
      obtain rfl := Option.some.inj hs
      obtain ⟨rfl, hp⟩ := hpc
      cases signalled
      · simpa using Step.failed
      · obtain rfl := hp rfl
        exact .signalled
    | testEvent =>
      cases pc <;> simp only [step, reduceCtorEq] at hs
      obtain rfl := Option.some.inj hs
      rename_i w
      split_ifs with hgo
      · obtain ⟨⟨rfl, hreq⟩, hn⟩ : (w = true ∧ req = false) ∧ systemNotify = true := by
          simpa using hgo
        subst hreq
        exact .wanted hn
      · refine .unwanted ?_
        cases w <;> cases req <;> simp_all
    | beginNotify | endNotify | deleteAllObjects =>
      simp only [step] at hs
      split_ifs at hs with hpc
      obtain rfl := Option.some.inj hs
      subst hpc
      constructor
    | logException | requestShutdown | fault =>
      simp only [step] at hs
      split_ifs at hs with hpc
      obtain rfl := Option.some.inj hs
      constructor
      exact hpc
    | signalException =>
      simp only [step] at hs
      split_ifs at hs with hpc
      obtain rfl := Option.some.inj hs
      obtain ⟨hlive, hh⟩ := not_or.1 hpc
      obtain ⟨h, rfl⟩ := Nat.exists_eq_succ_of_ne_zero hh
      exact .signalException hlive
    | signalShutdown =>
      simp only [step] at hs
      split_ifs at hs with hpc
      obtain rfl := Option.some.inj hs
      obtain ⟨hlive, hr⟩ := not_or.1 hpc
      obtain ⟨r, rfl⟩ := Nat.exists_eq_succ_of_ne_zero hr
      exact .signalShutdown hlive
  · rintro (_ | _ | _ | _ | hn | hn | _ | _ | _ | hpc | hpc | hpc | hpc | hpc)
    case wanted => simp [step, hn]
    case unwanted =>
      rcases hn with rfl | rfl | rfl <;> simp [step]
    all_goals simp [step, *]

/-! ## The invariant -/

/-- A handler has sent its signal, and no call of `SystemNotify` has begun since. -/
def Unnotified (tr : List Event) : Prop := Since (· = .signalException) (· = .beginNotify) tr

lemma unnotified_concat : Unnotified (tr ++ [e]) ↔
    e = .signalException ∨ Unnotified tr ∧ e ≠ .beginNotify :=
  since_concat

/-- How many calls of `SystemNotify` the idle thread may still begin without another signal. -/
def State.owed (s : State) : ℕ :=
  (if s.pc = .notify then 1 else 0) +
    if s.shutdownReq then 0
    else (if s.pending then 1 else 0) + if s.pc = .woken true then 1 else 0

/-- **The invariant**: what ties the state to the signals sent so far. -/
structure Inv (systemNotify : Bool) (tr : List Event) (s : State) : Prop where
  /-- An exception that was signalled is on its way to `SystemNotify`, as long as the idle thread
  is. -/
  bell : Unnotified tr → systemNotify = true → s.shutdownReq = false → s.pc ≠ .suspended →
    s.pending = true ∨ s.pc = .woken true ∨ s.pc = .notify
  /-- The idle thread does not sleep on a shutdown that was signalled. -/
  asleep : s.pc = .waiting → s.shutdownReq = true → s.restarts = 0 → s.pending = true
  ended : s.pc = .shutdown ∨ s.pc = .deleted → s.shutdownReq = true
  requested : s.restarts ≠ 0 → s.shutdownReq = true
  /-- Each call of `SystemNotify` is paid for by a signal of a handler. -/
  paid : tr.count .beginNotify + s.owed ≤ tr.count .signalException

lemma Inv.start : Inv systemNotify [] start where
  bell := fun h => absurd h not_since_nil
  asleep := nofun
  ended := nofun
  requested := fun h => absurd rfl h
  paid := Nat.le_refl _

/-- What is owed grows by the signals of handlers only, and each call of `SystemNotify` takes one
off. -/
lemma owed_step (hs : Step systemNotify s e t) (hreq : s.restarts ≠ 0 → s.shutdownReq = true) :
    [e].count .beginNotify + t.owed ≤ s.owed + [e].count .signalException := by
  cases hs with
  | signalShutdown =>
    obtain rfl := hreq (Nat.succ_ne_zero _)
    simp [State.owed]
  | wanted | unwanted | signalException =>
    simp only [State.owed, reduceCtorEq, if_false, if_true, List.count_singleton]
    split_ifs <;> simp_all
  | fault =>
    simp only [State.owed, reduceCtorEq, if_false, List.count_singleton, beq_iff_eq]
    split_ifs <;> omega
  | _ => simp [State.owed]

/-- Counting one event more. -/
lemma count_concat (e' : Event) : (tr ++ [e]).count e' = tr.count e' + [e].count e' :=
  List.count_append

/-- **Every step keeps the invariant.** -/
lemma Inv.step (h : Inv systemNotify tr s) (hs : IdleTask.step systemNotify s e = some t) :
    Inv systemNotify (tr ++ [e]) t := by
  have hstep := step_iff.1 hs
  have howed := owed_step hstep h.requested
  have hpaid := h.paid
  refine ⟨fun hun hn hreq hlive => ?_, fun hpc hreq hr => ?_, fun hpc => ?_, fun hr => ?_, ?_⟩
  · -- an exception that was signalled just now is pending; an earlier one was on its way
    rw [unnotified_concat] at hun
    rcases hun with rfl | ⟨hun, hne⟩
    · cases hstep
      exact .inl rfl
    · have hbell := h.bell hun hn
      cases hstep with
      | signalled => exact .inr (.inl rfl)
      | wanted => exact .inr (.inr rfl)
      | unwanted hw =>
        rcases hw with rfl | rfl | rfl
        · simpa using hbell hreq nofun
        · exact absurd hreq (Bool.noConfusion)
        · exact absurd hn (Bool.noConfusion)
      | beginNotify => exact absurd rfl hne
      | requestShutdown => exact absurd hreq (Bool.noConfusion)
      | signalException | signalShutdown => exact .inl rfl
      | enterSigwait | leaveLoop | failed | endNotify | deleteAllObjects =>
        simpa using hbell hreq nofun
      | logException => exact hbell hreq hlive
      | fault => exact absurd rfl hlive
  · cases hstep with
    | enterSigwait => exact absurd hreq (Bool.noConfusion)
    | logException => exact h.asleep hpc hreq hr
    | requestShutdown => exact absurd hr (Nat.succ_ne_zero _)
    | signalException | signalShutdown => rfl
    | _ => exact absurd hpc nofun
  · cases hstep with
    | leaveLoop => rfl
    | deleteAllObjects => exact h.ended (.inl rfl)
    | logException | signalException | signalShutdown => exact h.ended hpc
    | requestShutdown => rfl
    | _ => simp at hpc
  · cases hstep with
    | requestShutdown => rfl
    | signalShutdown => exact h.requested (Nat.succ_ne_zero _)
    | _ => exact h.requested hr
  · rw [count_concat, count_concat]
    omega

/-- The invariant holds in every run. -/
lemma inv_of_run (h : run (step systemNotify) start tr = some s) : Inv systemNotify tr s :=
  run_invariant Inv.start (fun _ _ _ _ hinv hs => hinv.step hs) h

/-- **A suspended idle thread** calls neither `SystemNotify` nor `OS_DeleteAllObjects`, whatever
happens after the synchronous signal. -/
theorem stuck_of_suspended (hpc : s.pc = .suspended) (h : run (step systemNotify) s tr = some t) :
    t.pc = .suspended ∧ tr.countP Event.ofIdle = 0 := by
  refine run_invariant (P := fun tr t => t.pc = .suspended ∧ tr.countP Event.ofIdle = 0)
    ⟨hpc, rfl⟩ ?_ h
  rintro tr u e v ⟨hu, htr⟩ hs
  rw [List.countP_append, htr]
  cases step_iff.1 hs with
  | logException | signalException | requestShutdown | signalShutdown => exact ⟨hu, rfl⟩
  | fault => exact ⟨rfl, rfl⟩
  | _ => exact absurd hu nofun

end CfePsp.PcLinux.IdleTask
