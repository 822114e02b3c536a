import Mathlib.Data.Fintype.Pi
import CfePsp.Exception.Ring
import CfePsp.Lib.Runs

set_option relaxedAutoImplicit false
set_option autoImplicit false

/-!
# `GetSummary` memory access by memory access

Exceptions cannot be locked out, so a handler may run between any two memory accesses of
`CFE_PSP_Exception_GetSummary`. Here the application's side is a program counter that makes one
access per step, and a complete handler activation may happen at every step. `Reset`, `GetCount`
and `CopyContext` are single steps of the application.

## Main definitions

* `CfePsp.Exception.Pc` — where in `GetSummary` the application is.
* `CfePsp.Exception.Event` — the steps, with everything an observer sees of them.
* `CfePsp.Exception.step` — the transition function of storage and application.
* `CfePsp.Exception.committed` — the captures committed in the course of a run.

## Main results

* `CfePsp.Exception.run_getSummary` — left alone, the accesses add up to the function
  `CfePsp.Exception.getSummary`.
* `CfePsp.Exception.storage_of_step` — the four kinds of step that change the storage.
-/

namespace CfePsp.Exception

open Transition

variable {c : Config} {τ : Type}

deriving instance DecidableEq for LogData

/-- The argument pair `ReasonBuf`, `ReasonSize` asks for a reason. -/
def SummaryArgs.wantsReason (a : SummaryArgs) : Bool :=
  a.reasonBuf && decide (0 < a.reasonSize)

/-- What the application is about to do in `GetSummary`. -/
inductive Pc (c : Config)
  /-- Not in `GetSummary`. -/
  | idle
  /-- `GetCount` has read `NumWritten` and reads `NumRead` next. -/
  | sampled (a : SummaryArgs) (numWritten : Uint32)
  /-- An entry is stored; `NumRead` is read again, for `GetBuffer`. -/
  | counted (a : SummaryArgs)
  /-- `Buffer` is known; `ContextLogId` is next. -/
  | buffered (a : SummaryArgs) (b : Fin c.maxEntries)
  /-- `TaskId` is next. -/
  | identified (a : SummaryArgs) (b : Fin c.maxEntries) (out : SummaryOut)
  /-- `ReasonBuf` is next. -/
  | located (a : SummaryArgs) (b : Fin c.maxEntries) (out : SummaryOut)
  /-- `++NumRead` reads the counter next. -/
  | summarised (out : SummaryOut)
  /-- `++NumRead` writes the counter next. -/
  | popping (out : SummaryOut) (numRead : Uint32)
  deriving DecidableEq

/-- The storage and the application. -/
structure Sys (c : Config) (τ : Type) where
  storage : Storage c τ
  pc : Pc c

/-- The steps of the system. -/
inductive Event (c : Config) (τ : Type)
  /-- A complete handler activation; whether it got a buffer. -/
  | handler (f : Capture c τ) (stored : Bool)
  /-- `Reset`. -/
  | reset
  /-- `GetCount` and its result. -/
  | count (n : Uint32)
  /-- `CopyContext` with the given id and buffer size, and its return code. -/
  | copy (id size : Uint32) (ret : ℤ)
  /-- `GetSummary` is called and reads `NumWritten`. -/
  | call (a : SummaryArgs)
  /-- `GetSummary` finds the log empty and returns `CFE_PSP_NO_EXCEPTION_DATA`. -/
  | noData
  /-- Any access of `GetSummary` that shows nothing outside, or the passing over of an output
  that is not wanted. -/
  | access
  /-- `OS_TaskFindIdBySystemData` reads `sys_task_id` and returns. -/
  | lookup (sysTaskId : τ) (found : Option Uint32)
  /-- `CFE_PSP_ExceptionGetSummary_Impl` reads the entry. -/
  | implRead (d : LogData c τ)
  /-- `CFE_PSP_ExceptionGetSummary_Impl` returns. -/
  | implReturn (summary : Option String)
  /-- `NumRead` is written and `GetSummary` returns `CFE_PSP_SUCCESS` with these outputs. -/
  | success (out : SummaryOut)

/-- The next memory access of a running `GetSummary` that only it sees. -/
def access (s : Storage c τ) : Pc c → Option (Pc c)
  | .sampled a w => if w - s.numRead = 0 then none else some (.counted a)
  | .counted a => some (.buffered a (getBuffer c s.numRead))
  | .buffered a b => some (.identified a b
      { contextLogId := if a.contextLogId then some (s.entries b).contextId else none })
  | .identified a b out => if a.taskId then none else some (.located a b out)
  | .located a _ out => if a.wantsReason then none else some (.summarised out)
  | .summarised out => some (.popping out (s.numRead + 1))
  | _ => none

/-- One step of the system. -/
def step [Zero τ] [DecidableEq τ] (s : Sys c τ) : Event c τ → Option (Sys c τ)
  | .handler f stored =>
      if (getNextContextBuffer s.storage).1.isSome = stored then
        some { s with storage := exceptionHandler f s.storage }
      else none
  | .reset =>
      match s.pc with
      | .idle => some { s with storage := reset s.storage }
      | _ => none
  | .count n =>
      match s.pc with
      | .idle => if getCount s.storage = n then some s else none
      | _ => none
  | .copy id size ret =>
      match s.pc with
      | .idle => if (copyContext s.storage id (fun _ => 0) size).1 = ret then some s else none
      | _ => none
  | .call a =>
      match s.pc with
      | .idle => some { s with pc := .sampled a s.storage.numWritten }
      | _ => none
  | .noData =>
      match s.pc with
      | .sampled _ w => if w - s.storage.numRead = 0 then some { s with pc := .idle } else none
      | _ => none
  | .access => (access s.storage s.pc).map fun pc => { s with pc := pc }
  | .lookup t found =>
      match s.pc with
      | .identified a b out =>
          if a.taskId ∧ (s.storage.entries b).sysTaskId = t then
            some ⟨s.storage,
              .located a b { out with taskId := some (found.getD osObjectIdUndefined) }⟩
          else none
      | _ => none
  | .implRead d =>
      match s.pc with
      | .located a b _ => if a.wantsReason ∧ s.storage.entries b = d then some s else none
      | _ => none
  | .implReturn summary =>
      match s.pc with
      | .located a _ out =>
          if a.wantsReason then
            some ⟨s.storage, .summarised { out with reason := some (summary.getD "") }⟩
          else none
      | _ => none
  | .success out =>
      match s.pc with
      | .popping out' v =>
          if out' = out then
            some { storage := { s.storage with numRead := v }, pc := .idle }
          else none
      | _ => none

/-- The capture an event commits to the log. -/
def Event.capture? : Event c τ → Option (Capture c τ)
  | .handler f true => some f
  | _ => none

/-- The captures committed in the course of a run, oldest first. -/
def committed (tr : List (Event c τ)) : List (Capture c τ) :=
  tr.filterMap Event.capture?

lemma committed_concat (tr : List (Event c τ)) (e : Event c τ) :
    committed (tr ++ [e]) = committed tr ++ e.capture?.toList := by
  rw [committed, List.filterMap_append, committed]
  cases h : e.capture? <;> simp [h]

/-! ## The steps of `GetSummary` add up to the function -/

section Steps

variable [Zero τ] [DecidableEq τ]

/-- The events of a call of `GetSummary` that no handler interrupts. -/
def summaryEvents (a : SummaryArgs) (x : SummaryExternals) (s : Storage c τ) :
    List (Event c τ) :=
  if getCount s = 0 then [.call a, .noData]
  else
    [.call a, .access, .access, .access,
      if a.taskId then
        .lookup (s.entries (getBuffer c s.numRead)).sysTaskId x.foundTask else .access,
      if a.wantsReason then .implReturn x.summary else .access,
      .access, .success (getSummary a x s).2.1]

/-- **Left alone, the accesses of `GetSummary` add up to the function**: the run of its events
ends in the storage the function returns. -/
lemma run_getSummary (a : SummaryArgs) (x : SummaryExternals) (s : Storage c τ) :
    run step ⟨s, .idle⟩ (summaryEvents a x s) =
      some ⟨(getSummary a x s).2.2, .idle⟩ := by
  by_cases h : getCount s = 0
  · have hcount : s.numWritten - s.numRead = 0 := h
    rw [summaryEvents, if_pos h, getSummary_of_empty a x h]
    refine run_cons.2 ⟨⟨s, .sampled a s.numWritten⟩, rfl, run_cons.2 ⟨⟨s, .idle⟩, ?_, rfl⟩⟩
    simp only [step, if_pos hcount]
  · have hcount : ¬s.numWritten - s.numRead = 0 := h
    set b := getBuffer c s.numRead
    set out₁ : SummaryOut :=
      { contextLogId := if a.contextLogId then some (s.entries b).contextId else none }
    set out₂ : SummaryOut := { out₁ with
      taskId := if a.taskId then some (x.foundTask.getD osObjectIdUndefined) else none }
    set out₃ : SummaryOut := { out₂ with
      reason := if a.wantsReason then some (x.summary.getD "") else none }
    have hsum : getSummary a x s =
        (Status.success, out₃, { s with numRead := s.numRead + 1 }) := if_neg h
    have hcounted : step ⟨s, .sampled a s.numWritten⟩ .access = some ⟨s, .counted a⟩ := by
      simp only [step, access, if_neg hcount, Option.map_some]
    have hlookup : step ⟨s, .identified a b out₁⟩
        (if a.taskId then .lookup (s.entries b).sysTaskId x.foundTask else .access) =
          some ⟨s, .located a b out₂⟩ := by
      cases ht : a.taskId <;> simp [step, access, ht, out₂, out₁]
    have hreason : step ⟨s, .located a b out₂⟩
        (if a.wantsReason then .implReturn x.summary else .access) =
          some ⟨s, .summarised out₃⟩ := by
      cases hr : a.wantsReason <;> simp [step, access, hr, out₃, out₂, out₁]
    have hpop : step ⟨s, .popping out₃ (s.numRead + 1)⟩ (.success out₃) =
        some ⟨{ s with numRead := s.numRead + 1 }, .idle⟩ := if_pos rfl
    rw [summaryEvents, if_neg h, hsum]
    exact run_cons.2 ⟨_, rfl, run_cons.2 ⟨_, hcounted, run_cons.2 ⟨_, rfl, run_cons.2 ⟨_, rfl,
      run_cons.2 ⟨_, hlookup, run_cons.2 ⟨_, hreason, run_cons.2 ⟨_, rfl,
        run_cons.2 ⟨_, hpop, rfl⟩⟩⟩⟩⟩⟩⟩⟩

/-! ## What a step does to the storage -/

/-- **The steps that change the storage**: handlers, `Reset` and the last access of
`GetSummary`. -/
lemma storage_of_step {s t : Sys c τ} {e : Event c τ} (h : step s e = some t) :
    (∃ f stored, e = .handler f stored ∧
      (getNextContextBuffer s.storage).1.isSome = stored ∧
      t = { s with storage := exceptionHandler f s.storage }) ∨
    (e = .reset ∧ s.pc = .idle ∧ t = { s with storage := reset s.storage }) ∨
    (∃ out v, e = .success out ∧ s.pc = .popping out v ∧
      t = ⟨{ s.storage with numRead := v }, .idle⟩) ∨
    (t.storage = s.storage ∧ e.capture? = none) := by
  cases e with
  | handler f stored =>
    simp only [step] at h
    split_ifs at h with hs
    exact .inl ⟨f, stored, rfl, hs, (Option.some.inj h).symm⟩
  | reset =>
    cases hpc : s.pc <;> simp only [step, hpc, reduceCtorEq] at h
    exact .inr (.inl ⟨rfl, rfl, (Option.some.inj h).symm⟩)
  | success out =>
    cases hpc : s.pc <;> simp only [step, hpc, reduceCtorEq] at h
    split_ifs at h with hout
    subst hout
    exact .inr (.inr (.inl ⟨_, _, rfl, rfl, (Option.some.inj h).symm⟩))
  | access =>
    simp only [step, Option.map_eq_some_iff] at h
    obtain ⟨pc, -, rfl⟩ := h
    exact .inr (.inr (.inr ⟨rfl, rfl⟩))
  | count | copy | call | noData | lookup | implRead | implReturn =>
    cases hpc : s.pc <;> simp only [step, hpc, reduceCtorEq] at h
    all_goals
      try split_ifs at h
      obtain rfl := Option.some.inj h
      exact .inr (.inr (.inr ⟨rfl, rfl⟩))

end Steps

end CfePsp.Exception
