import CfePsp.Basic
import CfePsp.Lib.Runs

set_option relaxedAutoImplicit false
set_option autoImplicit false

/-!
# Starting and stopping the VxWorks monitor

`vxworks_sysmon_Start` creates a task that samples the load while `should_run` is set, and stores
`is_running` after the task was created. The task stores both flags itself when it cannot set the
auxiliary clock up. Start, Stop and the tasks are taken one assignment at a time.

## Main definitions

* `CfePsp.Sysmon.Vxworks.callerStep`, `CfePsp.Sysmon.Vxworks.taskStep` — Start and Stop, and the
  task.
* `CfePsp.Sysmon.Vxworks.step` — the interleaving of one caller with the tasks it created.
* `CfePsp.Sysmon.Vxworks.ReportsMonitor` — between commands, `is_running` tells whether a task
  samples.

## Main results

* `CfePsp.Sysmon.Vxworks.reportsMonitor_of_timely` — in every run in which no task stores
  `is_running` before Start did, the flag is right.
* `CfePsp.Sysmon.Vxworks.reportsMonitor_fails_of_untimely` — after any other store it is wrong as
  soon as Start returns.

## Design

The `memset` of Start is one step: `is_running` is clear then, and only the caller sets a flag. What
the tasks sample has no influence on the flags and is left out.
-/

namespace CfePsp.Sysmon.Vxworks

/-! ## The program -/

/-- The flags of `vxworks_sysmon_cpuload_state_t`. -/
@[ext]
structure Flags where
  shouldRun : Bool
  isRunning : Bool
  deriving DecidableEq

/-- Where a task is in `vxworks_sysmon_Task`: each name says what comes next. -/
inductive TaskPc
  /-- `spyLibInit` and the `memset` of the samples. -/
  | init
  /-- `spyClkStartCommon`. -/
  | clock
  /-- `should_run = false`, after the clock failed. -/
  | failShouldRun
  /-- `is_running = false`, after the clock failed. -/
  | failIsRunning
  /-- The test of the loop. -/
  | check
  /-- The body of the loop. -/
  | sample
  /-- `spyClkStopCommon`. -/
  | stopClock
  | exited
  | deleted
  deriving DecidableEq

/-- A step of a task; `clockOk` is the outcome of `spyClkStartCommon`. -/
def taskStep (flags : Flags) (clockOk : Bool) : TaskPc → Option (TaskPc × Flags)
  | .init => some (.clock, flags)
  | .clock => some (if clockOk then .check else .failShouldRun, flags)
  | .failShouldRun => some (.failIsRunning, { flags with shouldRun := false })
  | .failIsRunning => some (.check, { flags with isRunning := false })
  | .check => some (if flags.shouldRun then .sample else .stopClock, flags)
  | .sample => some (.check, flags)
  | .stopClock => some (.exited, flags)
  | .exited => none
  | .deleted => none

/-- Where the caller is: between commands, with the last return code, or in front of an assignment
or a call of `vxworks_sysmon_Start` or `vxworks_sysmon_Stop`. -/
inductive CallerPc
  | idle (statusCode : ℤ)
  /-- The `memset` of the state. -/
  | startClear
  /-- `should_run = true`. -/
  | startShouldRun
  /-- `OS_TaskCreate`. -/
  | startCreate
  /-- `should_run = false`, after the creation failed. -/
  | startFailed
  /-- `is_running = true`. -/
  | startIsRunning
  /-- `should_run = false`. -/
  | stopShouldRun
  /-- `is_running = false`. -/
  | stopIsRunning
  /-- `OS_TaskDelete`. -/
  | stopDelete
  /-- `spyClkStopCommon`. -/
  | stopClock
  deriving DecidableEq

/-- The caller, the tasks it created so far, and the state they share. -/
structure State where
  caller : CallerPc
  tasks : List TaskPc
  /-- `task_id`, as the position of the task. -/
  taskId : Option ℕ
  flags : Flags
  deriving DecidableEq

/-- What the caller does next. A call reads `is_running`; `ok` is the outcome of `OS_TaskCreate`. -/
inductive CallerEvent
  | start
  | stop
  | next (ok : Bool)
  deriving DecidableEq

/-- `OS_TaskDelete`: a task that has not exited is deleted, wherever it is. -/
def taskDelete (tasks : List TaskPc) (taskId : Option ℕ) : List TaskPc :=
  match taskId with
  | none => tasks
  | some k =>
      match tasks[k]? with
      | none => tasks
      | some .exited => tasks
      | some _ => tasks.set k .deleted

/-- A step of the caller. -/
def callerStep (s : State) : CallerPc → CallerEvent → Option State
  | .idle _, .start =>
      some { s with caller := if s.flags.isRunning then .idle Status.success else .startClear }
  | .idle _, .stop =>
      some { s with caller := if s.flags.isRunning then .stopShouldRun else .idle Status.success }
  | .startClear, .next _ =>
      some { s with caller := .startShouldRun, taskId := none, flags := ⟨false, false⟩ }
  | .startShouldRun, .next _ =>
      some { s with caller := .startCreate, flags := { s.flags with shouldRun := true } }
  | .startCreate, .next true =>
      some { s with
        caller := .startIsRunning, tasks := s.tasks ++ [.init], taskId := some s.tasks.length }
  | .startCreate, .next false => some { s with caller := .startFailed }
  | .startFailed, .next _ =>
      some { s with caller := .idle Status.error, flags := { s.flags with shouldRun := false } }
  | .startIsRunning, .next _ =>
      some { s with caller := .idle Status.success, flags := { s.flags with isRunning := true } }
  | .stopShouldRun, .next _ =>
      some { s with caller := .stopIsRunning, flags := { s.flags with shouldRun := false } }
  | .stopIsRunning, .next _ =>
      some { s with caller := .stopDelete, flags := { s.flags with isRunning := false } }
  | .stopDelete, .next _ =>
      some { s with caller := .stopClock, tasks := taskDelete s.tasks s.taskId }
  | .stopClock, .next _ => some { s with caller := .idle Status.success }
  | _, _ => none

/-- The events: a step of the caller, or of the `k`-th task. -/
inductive Event
  | caller (e : CallerEvent)
  | task (k : ℕ) (clockOk : Bool)
  deriving DecidableEq

/-- A step of the system. -/
def step (s : State) : Event → Option State
  | .caller e => callerStep s s.caller e
  | .task k clockOk =>
      s.tasks[k]?.bind fun pc =>
        (taskStep s.flags clockOk pc).map fun (pc', flags) =>
          { s with tasks := s.tasks.set k pc', flags := flags }

/-- The state after `vxworks_sysmon_Init`. -/
def init : State := ⟨.idle Status.success, [], none, ⟨false, false⟩⟩

/-! ## What `is_running` is to say -/

/-- The task is in its sampling loop. -/
def TaskPc.InLoop (pc : TaskPc) : Prop := pc = .check ∨ pc = .sample

/-- The task has come to its loop, or has left it, or is gone. -/
def TaskPc.Settled : TaskPc → Prop
  | .check | .sample | .stopClock | .exited | .deleted => True
  | .init | .clock | .failShouldRun | .failIsRunning => False

/-- The caller is between commands and every task has settled. -/
def Quiescent (s : State) : Prop :=
  (∃ statusCode, s.caller = .idle statusCode) ∧ ∀ pc ∈ s.tasks, pc.Settled

/-- Whenever the system is quiescent, `is_running` is set exactly if some task is in its sampling
loop with `should_run` set. -/
def ReportsMonitor (s : State) : Prop :=
  Quiescent s →
    (s.flags.isRunning = true ↔ ∃ pc ∈ s.tasks, pc.InLoop ∧ s.flags.shouldRun = true)

/-- The step is not that of a task, whose clock failed, storing `is_running` between the creation of
a task and the store of Start. -/
def Timely (s : State) : Event → Prop
  | .task k _ => s.tasks[k]? = some .failIsRunning → s.caller ≠ .startIsRunning
  | .caller _ => True

instance (s : State) : (e : Event) → Decidable (Timely s e)
  | .task k _ =>
      inferInstanceAs (Decidable (s.tasks[k]? = some .failIsRunning → s.caller ≠ .startIsRunning))
  | .caller _ => isTrue trivial

/-- Every step of the run from `s` is timely. -/
def TimelyRun : State → List Event → Prop
  | _, [] => True
  | s, e :: tr => Timely s e ∧ ∀ u ∈ step s e, TimelyRun u tr

/-! ## One step of a task -/

section OneTask

variable {flags flags' : Flags} {clockOk : Bool} {pc pc' : TaskPc}

/-- The task that the caller watches is on its way to its loop or in it, with `should_run` set, or
it has cleared that flag and is about to clear the other. -/
def TaskPc.Live : TaskPc → Bool → Prop
  | .init, shouldRun | .clock, shouldRun | .failShouldRun, shouldRun | .check, shouldRun
  | .sample, shouldRun => shouldRun = true
  | .failIsRunning, shouldRun => shouldRun = false
  | .stopClock, _ | .exited, _ | .deleted, _ => False

/-- A task that has settled stays settled and stores no flag. -/
lemma taskStep_of_settled (hpc : pc.Settled) (h : taskStep flags clockOk pc = some (pc', flags')) :
    pc'.Settled ∧ flags' = flags := by
  cases pc with
  | init => exact hpc.elim
  | clock => exact hpc.elim
  | failShouldRun => exact hpc.elim
  | failIsRunning => exact hpc.elim
  | check =>
    cases h
    refine ⟨?_, rfl⟩
    split
    · trivial
    · trivial
  | sample => cases h; exact ⟨trivial, rfl⟩
  | stopClock => cases h; exact ⟨trivial, rfl⟩
  | exited => cases h
  | deleted => cases h

/-- A live task stays live and leaves `is_running` alone, until it is about to clear it. -/
lemma taskStep_of_live (hpc : pc.Live flags.shouldRun) (hne : pc ≠ .failIsRunning)
    (h : taskStep flags clockOk pc = some (pc', flags')) :
    pc'.Live flags'.shouldRun ∧ flags'.isRunning = flags.isRunning := by
  cases pc with
  | init => cases h; exact ⟨hpc, rfl⟩
  | clock =>
    cases h
    refine ⟨?_, rfl⟩
    split
    · exact hpc
    · exact hpc
  | failShouldRun => cases h; exact ⟨rfl, rfl⟩
  | failIsRunning => exact absurd rfl hne
  | check =>
    cases h
    refine ⟨?_, rfl⟩
    split
    next hrun => exact hrun
    next hrun => exact absurd hpc hrun
  | sample => cases h; exact ⟨hpc, rfl⟩
  | stopClock => exact hpc.elim
  | exited => exact hpc.elim
  | deleted => exact hpc.elim

/-- No task sets a flag. -/
lemma taskStep_flags (h : taskStep flags clockOk pc = some (pc', flags')) :
    (flags.shouldRun = false → flags'.shouldRun = false) ∧
      (flags.isRunning = false → flags'.isRunning = false) := by
  cases pc with
  | failShouldRun => cases h; exact ⟨fun _ => rfl, id⟩
  | failIsRunning => cases h; exact ⟨id, fun _ => rfl⟩
  | exited => cases h
  | deleted => cases h
  | _ => cases h; exact ⟨id, id⟩

end OneTask

/-! ## The tasks together -/

section Tasks

variable {tasks : List TaskPc} {k : Option ℕ} {pc : TaskPc} {j : ℕ}

/-- All tasks have settled, but perhaps the task `k`. -/
def SettledExcept (tasks : List TaskPc) (k : Option ℕ) : Prop :=
  ∀ j pc, tasks[j]? = some pc → some j ≠ k → pc.Settled

lemma SettledExcept.set (h : SettledExcept tasks k) (hj : some j = k ∨ pc.Settled) :
    SettledExcept (tasks.set j pc) k := by
  intro i pc' hi hne
  rw [List.getElem?_set] at hi
  split at hi
  next heq =>
    subst heq
    split at hi
    · cases hi
      exact hj.resolve_left hne
    · cases hi
  next => exact h i pc' hi hne

/-- A new task is the only one that has not settled. -/
lemma SettledExcept.append (h : SettledExcept tasks none) :
    SettledExcept (tasks ++ [pc]) (some tasks.length) := by
  intro i pc' hi hne
  rcases Nat.lt_or_ge i tasks.length with hlt | hge
  · rw [List.getElem?_append_left hlt] at hi
    exact h i pc' hi (by simp)
  · rw [List.getElem?_append_right hge] at hi
    have hzero : i - tasks.length = 0 := by
      by_contra hpos
      rw [List.getElem?_singleton, if_neg hpos] at hi
      cases hi
    have heq : i = tasks.length := by omega
    exact absurd (congrArg some heq) hne

/-- When the watched task is deleted, all have settled. -/
lemma SettledExcept.taskDelete (h : SettledExcept tasks k) :
    SettledExcept (taskDelete tasks k) none := by
  unfold Vxworks.taskDelete
  cases k with
  | none => exact h
  | some k =>
    dsimp only
    split
    next hk =>
      intro j pc hj _
      refine h j pc hj fun heq => ?_
      rw [Option.some.inj heq, hk] at hj
      cases hj
    next hk =>
      intro j pc hj _
      by_cases heq : j = k
      · rw [heq, hk] at hj
        cases hj
        trivial
      · exact h j pc hj fun hsome => heq (Option.some.inj hsome)
    next =>
      intro j pc hj _
      rw [List.getElem?_set] at hj
      split at hj
      · split at hj
        · cases hj
          trivial
        · cases hj
      next hne => exact h j pc hj fun hsome => hne (Option.some.inj hsome).symm

end Tasks

/-! ## The invariant -/

section Invariant

variable {s u : State} {e : Event}

/-- The caller watches a live task, and the others have settled. -/
def Monitored (s : State) : Prop :=
  ∃ k pc, s.taskId = some k ∧ s.tasks[k]? = some pc ∧ pc.Live s.flags.shouldRun ∧
    SettledExcept s.tasks (some k)

/-- What holds at each point of the caller. -/
def CallerInv (s : State) : Prop :=
  match s.caller with
  | .idle _ => s.flags.isRunning = true ∧ Monitored s ∨
      s.flags = ⟨false, false⟩ ∧ SettledExcept s.tasks none
  | .startClear | .startShouldRun | .startFailed =>
      s.flags.isRunning = false ∧ SettledExcept s.tasks none
  | .startCreate => s.flags = ⟨true, false⟩ ∧ SettledExcept s.tasks none
  | .startIsRunning => Monitored s
  | .stopShouldRun => SettledExcept s.tasks s.taskId
  | .stopIsRunning => s.flags.shouldRun = false ∧ SettledExcept s.tasks s.taskId
  | .stopDelete => s.flags = ⟨false, false⟩ ∧ SettledExcept s.tasks s.taskId
  | .stopClock => s.flags = ⟨false, false⟩ ∧ SettledExcept s.tasks none

/-- A step of a task, from all the others' point of view. -/
lemma step_task_cases {k : ℕ} {clockOk : Bool} (h : step s (.task k clockOk) = some u) :
    ∃ pc pc' flags, s.tasks[k]? = some pc ∧ taskStep s.flags clockOk pc = some (pc', flags) ∧
      u = { s with tasks := s.tasks.set k pc', flags := flags } := by
  obtain ⟨pc, hk, hmap⟩ := Option.bind_eq_some_iff.1 h
  obtain ⟨⟨pc', flags⟩, htask, rfl⟩ := Option.map_eq_some_iff.1 hmap
  exact ⟨pc, pc', flags, hk, htask, rfl⟩

lemma caller_of_step_task {k : ℕ} {clockOk : Bool} (h : step s (.task k clockOk) = some u) :
    u.caller = s.caller := by
  obtain ⟨pc, pc', flags, -, -, rfl⟩ := step_task_cases h
  rfl

/-- When all tasks have settled, a step of one changes no flag. -/
lemma settled_task_step {k : ℕ} {clockOk : Bool} (hsettled : SettledExcept s.tasks none)
    (h : step s (.task k clockOk) = some u) :
    SettledExcept u.tasks none ∧ u.flags = s.flags := by
  obtain ⟨pc, pc', flags, hk, htask, rfl⟩ := step_task_cases h
  obtain ⟨hpc', hflags⟩ := taskStep_of_settled (hsettled k pc hk (by simp)) htask
  exact ⟨hsettled.set (.inr hpc'), hflags⟩

/-- When all but the watched task have settled, a step of them keeps that, and sets no flag. -/
lemma watched_task_step {k : ℕ} {clockOk : Bool} (hsettled : SettledExcept s.tasks s.taskId)
    (h : step s (.task k clockOk) = some u) :
    SettledExcept u.tasks u.taskId ∧ (s.flags.shouldRun = false → u.flags.shouldRun = false) ∧
      (s.flags.isRunning = false → u.flags.isRunning = false) := by
  obtain ⟨pc, pc', flags, hk, htask, rfl⟩ := step_task_cases h
  refine ⟨?_, (taskStep_flags htask).1, (taskStep_flags htask).2⟩
  by_cases hwatched : some k = s.taskId
  · exact hsettled.set (.inl hwatched)
  · exact hsettled.set (.inr (taskStep_of_settled (hsettled k pc hk hwatched) htask).1)

/-- While a live task is watched, a step of a task keeps it so and leaves `is_running` alone, unless
the watched task stores `is_running` itself: then both flags are clear and all have settled. -/
lemma monitored_task_step {k : ℕ} {clockOk : Bool} (hmonitored : Monitored s)
    (h : step s (.task k clockOk) = some u) :
    (s.tasks[k]? ≠ some .failIsRunning ∧ Monitored u ∧
        u.flags.isRunning = s.flags.isRunning) ∨
      s.tasks[k]? = some .failIsRunning ∧ u.flags = ⟨false, false⟩ ∧
        SettledExcept u.tasks none := by
  obtain ⟨w, wpc, hid, hw, hlive, hothers⟩ := hmonitored
  obtain ⟨pc, pc', flags, hk, htask, rfl⟩ := step_task_cases h
  by_cases hwatched : k = w
  · subst hwatched
    obtain rfl : pc = wpc := Option.some.inj (hk.symm.trans hw)
    have hlen : k < s.tasks.length := (List.getElem?_eq_some_iff.1 hk).1
    by_cases hfail : pc = .failIsRunning
    · subst hfail
      refine .inr ⟨hk, ?_, ?_⟩
      · cases htask
        exact Flags.ext hlive rfl
      · intro j pc hj _
        by_cases heq : j = k
        · cases htask
          rw [heq, List.getElem?_set_self hlen] at hj
          cases hj
          trivial
        · rw [List.getElem?_set_ne (Ne.symm heq)] at hj
          exact hothers j pc hj fun hsome => heq (Option.some.inj hsome)
    · obtain ⟨hlive', hrunning⟩ := taskStep_of_live hlive hfail htask
      refine .inl ⟨fun h => hfail (Option.some.inj (hk.symm.trans h)), ?_, hrunning⟩
      exact ⟨k, pc', hid, List.getElem?_set_self hlen, hlive', hothers.set (.inl rfl)⟩
  · have hne : some k ≠ some w := fun heq => hwatched (Option.some.inj heq)
    have hsettled := hothers k pc hk hne
    obtain ⟨hpc', rfl⟩ := taskStep_of_settled hsettled htask
    refine .inl ⟨fun h => ?_, ⟨w, wpc, hid, ?_, hlive, hothers.set (.inr hpc')⟩, rfl⟩
    · obtain rfl : pc = .failIsRunning := Option.some.inj (hk.symm.trans h)
      exact hsettled
    · rw [List.getElem?_set_ne hwatched]
      exact hw

/-- A timely step of a task keeps the invariant. -/
lemma CallerInv.task_step {k : ℕ} {clockOk : Bool} (h : CallerInv s)
    (htimely : Timely s (.task k clockOk)) (hs : step s (.task k clockOk) = some u) :
    CallerInv u := by
  have hcaller := caller_of_step_task hs
  unfold CallerInv at h ⊢
  rw [hcaller]
  cases hc : s.caller with
  | idle statusCode =>
    rw [hc] at h
    rcases h with ⟨hrunning, hmonitored⟩ | ⟨hflags, hsettled⟩
    · rcases monitored_task_step hmonitored hs with ⟨-, hu, hsame⟩ | ⟨-, hflags, hsettled⟩
      · exact .inl ⟨hsame.trans hrunning, hu⟩
      · exact .inr ⟨hflags, hsettled⟩
    · obtain ⟨hu, hsame⟩ := settled_task_step hsettled hs
      exact .inr ⟨hsame.trans hflags, hu⟩
  | startIsRunning =>
    rw [hc] at h
    rcases monitored_task_step h hs with ⟨-, hu, -⟩ | ⟨hfail, -⟩
    · exact hu
    · exact absurd hc (htimely hfail)
  | startCreate =>
    rw [hc] at h
    obtain ⟨hu, hsame⟩ := settled_task_step h.2 hs
    exact ⟨hsame.trans h.1, hu⟩
  | stopClock =>
    rw [hc] at h
    obtain ⟨hu, hsame⟩ := settled_task_step h.2 hs
    exact ⟨hsame.trans h.1, hu⟩
  | stopShouldRun =>
    rw [hc] at h
    exact (watched_task_step h hs).1
  | stopIsRunning =>
    rw [hc] at h
    obtain ⟨hu, hshould, -⟩ := watched_task_step h.2 hs
    exact ⟨hshould h.1, hu⟩
  | stopDelete =>
    rw [hc] at h
    obtain ⟨hu, hshould, hrunning⟩ := watched_task_step h.2 hs
    refine ⟨Flags.ext (hshould ?_) (hrunning ?_), hu⟩
    · rw [h.1]
    · rw [h.1]
  | _ =>
    -- the other points of Start: the flag is clear, and no task sets one
    rw [hc] at h
    obtain ⟨hu, hsame⟩ := settled_task_step h.2 hs
    exact ⟨(congrArg Flags.isRunning hsame).trans h.1, hu⟩

/-- A step of the caller keeps the invariant. -/
lemma CallerInv.caller_step {e : CallerEvent} (h : CallerInv s)
    (hs : step s (.caller e) = some u) : CallerInv u := by
  unfold CallerInv at h
  simp only [step] at hs
  cases hc : s.caller with
  | idle statusCode =>
    rw [hc] at h hs
    cases e with
    | start =>
      obtain rfl := Option.some.inj hs
      rcases h with ⟨hrunning, hmonitored⟩ | ⟨hflags, hsettled⟩
      · rw [if_pos hrunning]
        exact .inl ⟨hrunning, hmonitored⟩
      · have hrunning : s.flags.isRunning = false := by rw [hflags]
        rw [if_neg (by simp [hrunning])]
        exact ⟨hrunning, hsettled⟩
    | stop =>
      obtain rfl := Option.some.inj hs
      rcases h with ⟨hrunning, k, pc, hid, -, -, hothers⟩ | ⟨hflags, hsettled⟩
      · rw [if_pos hrunning]
        show SettledExcept s.tasks s.taskId
        rw [hid]
        exact hothers
      · have hrunning : s.flags.isRunning = false := by rw [hflags]
        rw [if_neg (by simp [hrunning])]
        exact .inr ⟨hflags, hsettled⟩
    | next ok => cases hs
  | startClear =>
    rw [hc] at h hs
    cases e with
    | next ok => cases hs; exact ⟨rfl, h.2⟩
    | _ => cases hs
  | startShouldRun =>
    rw [hc] at h hs
    cases e with
    | next ok => cases hs; exact ⟨Flags.ext rfl h.1, h.2⟩
    | _ => cases hs
  | startCreate =>
    rw [hc] at h hs
    cases e with
    | next ok =>
      cases ok with
      | true =>
        -- the new task is watched, and all the older ones have settled
        cases hs
        refine ⟨s.tasks.length, .init, rfl, ?_, ?_, h.2.append⟩
        · exact List.getElem?_concat_length
        · exact congrArg Flags.shouldRun h.1
      | false => cases hs; exact ⟨congrArg Flags.isRunning h.1, h.2⟩
    | _ => cases hs
  | startFailed =>
    rw [hc] at h hs
    cases e with
    | next ok => cases hs; exact .inr ⟨Flags.ext rfl h.1, h.2⟩
    | _ => cases hs
  | startIsRunning =>
    rw [hc] at h hs
    cases e with
    | next ok => cases hs; exact .inl ⟨rfl, h⟩
    | _ => cases hs
  | stopShouldRun =>
    rw [hc] at h hs
    cases e with
    | next ok => cases hs; exact ⟨rfl, h⟩
    | _ => cases hs
  | stopIsRunning =>
    rw [hc] at h hs
    cases e with
    | next ok => cases hs; exact ⟨Flags.ext h.1 rfl, h.2⟩
    | _ => cases hs
  | stopDelete =>
    rw [hc] at h hs
    cases e with
    | next ok => cases hs; exact ⟨h.1, h.2.taskDelete⟩
    | _ => cases hs
  | stopClock =>
    rw [hc] at h hs
    cases e with
    | next ok => cases hs; exact .inr ⟨h.1, h.2⟩
    | _ => cases hs

/-- The flag is right wherever the invariant holds. -/
lemma CallerInv.reportsMonitor (h : CallerInv s) : ReportsMonitor s := by
  rintro ⟨⟨statusCode, hc⟩, hquiet⟩
  unfold CallerInv at h
  rw [hc] at h
  rcases h with ⟨hrunning, k, pc, -, hk, hlive, -⟩ | ⟨hflags, -⟩
  · refine iff_of_true hrunning ⟨pc, List.mem_of_getElem? hk, ?_⟩
    have hsettled := hquiet pc (List.mem_of_getElem? hk)
    -- a live task that has settled is in its loop
    cases pc with
    | check => exact ⟨.inl rfl, hlive⟩
    | sample => exact ⟨.inr rfl, hlive⟩
    | init => exact hsettled.elim
    | clock => exact hsettled.elim
    | failShouldRun => exact hsettled.elim
    | failIsRunning => exact hsettled.elim
    | stopClock => exact hlive.elim
    | exited => exact hlive.elim
    | deleted => exact hlive.elim
  · rw [hflags]
    simp

end Invariant

/-! ## Main results -/

section Main

variable {s u : State} {tr : List Event}

/-- A run of timely steps keeps the invariant. -/
lemma CallerInv.run (h : CallerInv s) (htimely : TimelyRun s tr)
    (hrun : Transition.run step s tr = some u) : CallerInv u := by
  induction tr generalizing s with
  | nil =>
    obtain rfl : s = u := by simpa using hrun
    exact h
  | cons e tr ih =>
    obtain ⟨v, hv, hrest⟩ := Transition.run_cons.1 hrun
    refine ih ?_ (htimely.2 v hv) hrest
    cases e with
    | caller e => exact h.caller_step hv
    | task k clockOk => exact h.task_step htimely.1 hv

lemma callerInv_init : CallerInv init :=
  .inr ⟨rfl, fun j pc hj => by simp [init] at hj⟩

/-- **The monitor of VxWorks.** In every run in which no task stores `is_running` between its
creation and the store of Start, between commands the flag tells whether a task samples. -/
theorem reportsMonitor_of_timely (htimely : TimelyRun init tr)
    (hrun : Transition.run step init tr = some s) : ReportsMonitor s :=
  (callerInv_init.run htimely hrun).reportsMonitor

/-- After the first step that is not timely the flag is wrong as soon as Start returns: it is set
and no task samples. -/
theorem reportsMonitor_fails_of_untimely (htimely : TimelyRun init tr)
    (hrun : Transition.run step init tr = some s) {k : ℕ} {clockOk : Bool}
    (hcaller : s.caller = .startIsRunning) (hfail : s.tasks[k]? = some .failIsRunning) :
    ∃ u, Transition.run step s [.task k clockOk, .caller (.next true)] = some u ∧
      ¬ReportsMonitor u := by
  have hinv := callerInv_init.run htimely hrun
  unfold CallerInv at hinv
  rw [hcaller] at hinv
  have hstep : step s (.task k clockOk) = some { s with
      tasks := s.tasks.set k .check, flags := { s.flags with isRunning := false } } := by
    simp [step, hfail, taskStep]
  rcases monitored_task_step hinv hstep with ⟨hne, -⟩ | ⟨-, hflags, hsettled⟩
  · exact absurd hfail hne
  · set v : State := { s with
      tasks := s.tasks.set k .check, flags := { s.flags with isRunning := false } } with hv
    have hvcaller : v.caller = .startIsRunning := hcaller
    have hnext : step v (.caller (.next true)) = some { v with
        caller := .idle Status.success, flags := { v.flags with isRunning := true } } := by
      simp only [step, hvcaller]
      rfl
    refine ⟨_, Transition.run_cons.2 ⟨v, hstep, Transition.run_cons.2 ⟨_, hnext, rfl⟩⟩, ?_⟩
    intro hreports
    have hquiet : Quiescent { v with
        caller := .idle Status.success, flags := { v.flags with isRunning := true } } := by
      refine ⟨⟨_, rfl⟩, fun pc hpc => ?_⟩
      obtain ⟨j, hj⟩ := List.getElem?_of_mem hpc
      exact hsettled j pc hj (by simp)
    obtain ⟨pc, -, -, hshould⟩ := (hreports hquiet).1 rfl
    have hclear : v.flags.shouldRun = false := by rw [hflags]
    exact Bool.false_ne_true (hclear.symm.trans hshould)

end Main

/-- Start creates a task that comes to its loop. -/
def goodStart : List Event :=
  [.caller .start, .caller (.next true), .caller (.next true), .caller (.next true), .task 0 true,
    .caller (.next true), .task 0 true]

/-- After a start with a working clock the flag is right. -/
theorem reportsMonitor_of_goodStart :
    ∃ s, Transition.run step init goodStart = some s ∧ s.flags.isRunning = true ∧
      ReportsMonitor s := by
  have hrun : Transition.run step init goodStart = some _ := rfl
  refine ⟨_, hrun, rfl, reportsMonitor_of_timely ?_ hrun⟩
  simp [goodStart, TimelyRun, Timely, step, callerStep, taskStep, init]

/-- Start creates a task whose clock fails before Start stores `is_running`. -/
def failedStart : List Event :=
  [.caller .start, .caller (.next true), .caller (.next true), .caller (.next true), .task 0 false,
    .task 0 false, .task 0 false, .task 0 false, .caller (.next true)]

/-- Then the flag is set for good, and no task samples. -/
theorem reportsMonitor_fails :
    ∃ s, Transition.run step init failedStart = some s ∧ ¬ReportsMonitor s := by
  refine ⟨_, rfl, fun h => ?_⟩
  have hquiet : Quiescent ⟨.idle Status.success, [.check], some 0, ⟨false, true⟩⟩ :=
    ⟨⟨_, rfl⟩, by simp [TaskPc.Settled]⟩
  obtain ⟨pc, -, -, hshould⟩ := (h hquiet).1 rfl
  cases hshould

end CfePsp.Sysmon.Vxworks
