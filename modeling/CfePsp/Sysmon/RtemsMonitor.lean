import CfePsp.Basic
import CfePsp.Lib.Runs

set_option relaxedAutoImplicit false
set_option autoImplicit false

/-!
# Starting and stopping the RTEMS monitor

`rtems_sysmon_Start` clears the state, creates a task and starts it; the task samples the load while
`should_run` is set, and then deletes itself. `rtems_sysmon_Stop` clears the flag and deletes the
task by its id. A sample visits the threads of the system, and `num_cpus` says how many of them were
idle threads so far: it is the index into `per_core`, with no check of its own.

## Main definitions

* `CfePsp.Sysmon.Rtems.Monitor.callerStep`, `CfePsp.Sysmon.Rtems.Monitor.taskStep` — Start and Stop,
  and the task.
* `CfePsp.Sysmon.Rtems.Monitor.step` — the interleaving of one client with the tasks it created.
* `CfePsp.Sysmon.Rtems.Monitor.Inv` — the one task that uses the state.

## Main results

* `CfePsp.Sysmon.Rtems.Monitor.exclusive_of_run` — there is never more than one task, and none while
  Start clears the state.
* `CfePsp.Sysmon.Rtems.Monitor.inTable_of_run` — a sample stays inside `per_core`.

## Design

A task has been created, is running or is deleted; the caller deletes it wherever it is. The id of a
task that has deleted itself is not given to another before Stop has come to its deletion. What is
stored in `per_core` is in `CfePsp.Sysmon.RtemsSampling`.
-/

namespace CfePsp.Sysmon.Rtems.Monitor

open Transition

/-! ## The program -/

/-- Where a task is in `rtems_sysmon_Task`: each name says what comes next. -/
inductive TaskPc
  /-- The task is not started yet. -/
  | created
  /-- `rtems_cpu_usage_reset` and the initialisation of `per_core`. -/
  | init
  /-- The test of the loop. -/
  | check
  /-- `OS_TaskDelay`. -/
  | delay
  /-- `num_cpus = 0`. -/
  | clearCount
  /-- `rtems_task_iterate` looks for the next thread. -/
  | iterate
  /-- In `rtems_cpu_usage_vistor`, with a pointer to the core of this index. -/
  | visit (core : ℕ) (isIdle : Bool)
  /-- `num_cpus++`. -/
  | count
  /-- The test whether all idle threads were found. -/
  | found
  /-- `rtems_task_delete(RTEMS_SELF)`. -/
  | deleteSelf
  | deleted
  deriving DecidableEq

/-- The functions that `CFE_PSP_IODriver_SET_RUNNING` calls. -/
inductive Function
  | start
  | stop
  deriving DecidableEq

/-- Where the client is: between commands, with the function that returned last and its status, or
in front of an assignment or a call of `rtems_sysmon_Start` or `rtems_sysmon_Stop`. -/
inductive CallerPc
  | idle (returned : Option Function) (statusCode : ℤ)
  /-- The `memset` of the state. -/
  | startClear
  /-- `should_run = true`. -/
  | startShouldRun
  /-- `rtems_task_create`. -/
  | startCreate
  /-- `rtems_task_start`. -/
  | startTask
  /-- `rtems_task_delete`, after the start failed. -/
  | startDelete
  /-- `should_run = false`, after the creation or the start failed. -/
  | startFailed
  /-- `is_running = true`. -/
  | startIsRunning
  /-- `should_run = false`. -/
  | stopShouldRun
  /-- `is_running = false`. -/
  | stopIsRunning
  /-- `rtems_task_delete`. -/
  | stopDelete
  deriving DecidableEq

/-- The client, the tasks it created so far, and the state they share. -/
structure State where
  caller : CallerPc
  tasks : List TaskPc
  /-- `task_id`, as the position of the task. -/
  taskId : Option ℕ
  shouldRun : Bool
  isRunning : Bool
  numCpus : BitVec 8
  deriving DecidableEq

/-- What the client does next: a command, or the next assignment or call; `ok` is the outcome of
`rtems_task_create` or `rtems_task_start`. -/
inductive CallerEvent
  | setRunning (arg : Uint32)
  | next (ok : Bool)
  deriving DecidableEq

/-- `rtems_task_delete` of another task. -/
def taskDelete (tasks : List TaskPc) (taskId : Option ℕ) : List TaskPc :=
  match taskId with
  | some k => tasks.set k .deleted
  | none => tasks

/-- A step of the client. -/
def callerStep (s : State) : CallerPc → CallerEvent → Option State
  | .idle _ _, .setRunning arg =>
      if arg ≠ 0 then
        some { s with
          caller := if s.isRunning then .idle (some .start) Status.success else .startClear }
      else
        some { s with
          caller := if s.isRunning then .stopShouldRun else .idle (some .stop) Status.success }
  | .startClear, .next _ =>
      some { s with caller := .startShouldRun, taskId := none, shouldRun := false
                    isRunning := false, numCpus := 0 }
  | .startShouldRun, .next _ => some { s with caller := .startCreate, shouldRun := true }
  | .startCreate, .next true =>
      some { s with
        caller := .startTask, tasks := s.tasks ++ [.created], taskId := some s.tasks.length }
  | .startCreate, .next false => some { s with caller := .startFailed }
  | .startTask, .next true =>
      some { s with
        caller := .startIsRunning
        tasks := match s.taskId with
          | some k => s.tasks.set k .init
          | none => s.tasks }
  | .startTask, .next false => some { s with caller := .startDelete }
  | .startDelete, .next _ =>
      some { s with caller := .startFailed, tasks := taskDelete s.tasks s.taskId }
  | .startFailed, .next _ =>
      some { s with caller := .idle (some .start) Status.error, shouldRun := false }
  | .startIsRunning, .next _ =>
      some { s with caller := .idle (some .start) Status.success, isRunning := true }
  | .stopShouldRun, .next _ => some { s with caller := .stopIsRunning, shouldRun := false }
  | .stopIsRunning, .next _ => some { s with caller := .stopDelete, isRunning := false }
  | .stopDelete, .next _ =>
      some { s with
        caller := .idle (some .stop) Status.success, tasks := taskDelete s.tasks s.taskId }
  | _, _ => none

/-- A step of a task, and what it stores to `num_cpus`; `thread` is the next thread of the iteration
and whether it is an idle thread. -/
def taskStep (maxCpus : ℕ) (shouldRun : Bool) (numCpus : BitVec 8) (thread : Option Bool) :
    TaskPc → Option (TaskPc × BitVec 8)
  | .created => none
  | .init => some (.check, numCpus)
  | .check => some (if shouldRun then .delay else .deleteSelf, numCpus)
  | .delay => some (.clearCount, numCpus)
  | .clearCount => some (.iterate, 0)
  | .iterate =>
      match thread with
      | some isIdle => some (.visit numCpus.toNat isIdle, numCpus)
      | none => some (.check, numCpus)
  | .visit _ isIdle => some (if isIdle then .count else .iterate, numCpus)
  | .count => some (.found, numCpus + 1)
  | .found => some (if maxCpus ≤ numCpus.toNat then .check else .iterate, numCpus)
  | .deleteSelf => some (.deleted, numCpus)
  | .deleted => none

/-- The events: a step of the client, or of the `k`-th task. -/
inductive Event
  | caller (e : CallerEvent)
  | task (k : ℕ) (thread : Option Bool)
  deriving DecidableEq

/-- A step of the system. -/
def step (maxCpus : ℕ) (s : State) : Event → Option State
  | .caller e => callerStep s s.caller e
  | .task k thread =>
      s.tasks[k]?.bind fun pc =>
        (taskStep maxCpus s.shouldRun s.numCpus thread pc).map fun (pc', numCpus) =>
          { s with tasks := s.tasks.set k pc', numCpus := numCpus }

/-- The state after `rtems_sysmon_Init`. -/
def init : State := ⟨.idle none Status.success, [], none, false, false, 0⟩

/-! ## One task -/

/-- What `num_cpus` is while a task is where it is. -/
def TaskPc.Counts (maxCpus : ℕ) (numCpus : BitVec 8) : TaskPc → Prop
  | .iterate | .count => numCpus.toNat < maxCpus
  | .visit core _ => core = numCpus.toNat ∧ numCpus.toNat < maxCpus
  | _ => True

/-- The task is on its way to its loop or in it. -/
def TaskPc.Samples : TaskPc → Prop
  | .created | .deleteSelf | .deleted => False
  | _ => True

section OneTask

variable {maxCpus : ℕ} {shouldRun : Bool} {numCpus numCpus' : BitVec 8} {thread : Option Bool}
  {pc pc' : TaskPc}

/-- A task that has the state to itself keeps count. -/
lemma TaskPc.Counts.step (hpos : 0 < maxCpus) (h : pc.Counts maxCpus numCpus)
    (hs : taskStep maxCpus shouldRun numCpus thread pc = some (pc', numCpus')) :
    pc'.Counts maxCpus numCpus' := by
  cases pc with
  | created | deleted => simp [taskStep] at hs
  | init | delay | deleteSelf =>
    obtain ⟨rfl, rfl⟩ := Prod.mk.inj (Option.some.inj hs)
    trivial
  | check =>
    obtain ⟨rfl, rfl⟩ := Prod.mk.inj (Option.some.inj hs)
    split_ifs <;> trivial
  | clearCount =>
    obtain ⟨rfl, rfl⟩ := Prod.mk.inj (Option.some.inj hs)
    simpa [Counts] using hpos
  | iterate =>
    cases thread with
    | none =>
      obtain ⟨rfl, rfl⟩ := Prod.mk.inj (Option.some.inj hs)
      trivial
    | some isIdle =>
      obtain ⟨rfl, rfl⟩ := Prod.mk.inj (Option.some.inj hs)
      exact ⟨rfl, h⟩
  | visit core isIdle =>
    obtain ⟨rfl, rfl⟩ := Prod.mk.inj (Option.some.inj hs)
    split_ifs
    · exact h.2
    · exact h.2
  | count =>
    obtain ⟨rfl, rfl⟩ := Prod.mk.inj (Option.some.inj hs)
    trivial
  | found =>
    obtain ⟨rfl, rfl⟩ := Prod.mk.inj (Option.some.inj hs)
    split_ifs with hall
    · trivial
    · exact Nat.lt_of_not_le hall

/-- A task that samples goes on as long as `should_run` is set. -/
lemma TaskPc.Samples.step (h : pc.Samples)
    (hs : taskStep maxCpus true numCpus thread pc = some (pc', numCpus')) : pc'.Samples := by
  cases pc with
  | created | deleteSelf | deleted => exact h.elim
  | iterate =>
    cases thread with
    | none =>
      obtain ⟨rfl, rfl⟩ := Prod.mk.inj (Option.some.inj hs)
      trivial
    | some isIdle =>
      obtain ⟨rfl, rfl⟩ := Prod.mk.inj (Option.some.inj hs)
      trivial
  | visit core isIdle =>
    obtain ⟨rfl, rfl⟩ := Prod.mk.inj (Option.some.inj hs)
    split_ifs <;> trivial
  | found =>
    obtain ⟨rfl, rfl⟩ := Prod.mk.inj (Option.some.inj hs)
    split_ifs <;> trivial
  | _ =>
    obtain ⟨rfl, rfl⟩ := Prod.mk.inj (Option.some.inj hs)
    trivial

end OneTask

/-! ## The tasks together -/

section Tasks

variable {tasks : List TaskPc} {k : ℕ} {pc : TaskPc}

/-- Every task is deleted. -/
def NoTask (tasks : List TaskPc) : Prop := ∀ pc ∈ tasks, pc = .deleted

/-- Every task but the task `k` is deleted. -/
def OnlyTask (tasks : List TaskPc) (k : ℕ) : Prop :=
  ∀ j pc, tasks[j]? = some pc → pc ≠ .deleted → j = k

lemma NoTask.append (h : NoTask tasks) (pc : TaskPc) : OnlyTask (tasks ++ [pc]) tasks.length := by
  intro j pc' hj hlive
  rcases Nat.lt_or_ge j tasks.length with hlt | hge
  · rw [List.getElem?_append_left hlt] at hj
    exact absurd (h pc' (List.mem_of_getElem? hj)) hlive
  · have hj' := (List.getElem?_eq_some_iff.1 hj).1
    rw [List.length_append, List.length_singleton] at hj'
    omega

lemma OnlyTask.set (h : OnlyTask tasks k) (pc : TaskPc) : OnlyTask (tasks.set k pc) k := by
  intro j pc' hj hlive
  by_contra hne
  rw [List.getElem?_set_ne (Ne.symm hne)] at hj
  exact hne (h j pc' hj hlive)

/-- When the only task is deleted, none is left. -/
lemma OnlyTask.taskDelete (h : OnlyTask tasks k) : NoTask (taskDelete tasks (some k)) := by
  intro pc hpc
  obtain ⟨j, hj⟩ := List.mem_iff_getElem?.1 hpc
  by_contra hlive
  obtain rfl := h.set .deleted j pc hj hlive
  rw [Monitor.taskDelete, List.getElem?_set_self'] at hj
  obtain ⟨pc', -, heq⟩ := Option.map_eq_some_iff.1 hj
  exact hlive heq.symm

end Tasks

/-- The only task is the one of `task_id`, and samples. -/
def Monitored (s : State) : Prop :=
  s.shouldRun = true ∧ ∃ k pc, s.taskId = some k ∧ s.tasks[k]? = some pc ∧ pc.Samples ∧
    OnlyTask s.tasks k

/-- **The invariant**: the tasks there may be, by what the client is about to do. -/
def Inv (s : State) : Prop :=
  match s.caller with
  | .idle _ _ =>
      (s.isRunning = true → Monitored s) ∧ (s.isRunning = false → NoTask s.tasks)
  | .startClear | .startShouldRun | .startFailed => s.isRunning = false ∧ NoTask s.tasks
  | .startCreate => s.isRunning = false ∧ s.shouldRun = true ∧ NoTask s.tasks
  | .startTask | .startDelete =>
      s.isRunning = false ∧ s.shouldRun = true ∧
        ∃ k, s.taskId = some k ∧ s.tasks[k]? = some .created ∧ OnlyTask s.tasks k
  | .startIsRunning | .stopShouldRun => Monitored s
  | .stopIsRunning => ∃ k, s.taskId = some k ∧ OnlyTask s.tasks k
  | .stopDelete => s.isRunning = false ∧ ∃ k, s.taskId = some k ∧ OnlyTask s.tasks k

section Runs

variable {maxCpus : ℕ} {s t : State} {e : Event} {tr : List Event}

/-- There is at most one task. -/
lemma Inv.onlyTask (h : Inv s) : ∃ k, OnlyTask s.tasks k := by
  have hnone : NoTask s.tasks → ∃ k, OnlyTask s.tasks k := fun hno =>
    ⟨0, fun j pc hj hlive => absurd (hno pc (List.mem_of_getElem? hj)) hlive⟩
  unfold Inv at h
  split at h
  · cases hrun : s.isRunning with
    | true =>
      obtain ⟨-, k, -, -, -, -, honly⟩ := h.1 hrun
      exact ⟨k, honly⟩
    | false => exact hnone (h.2 hrun)
  · exact hnone h.2
  · exact hnone h.2
  · exact hnone h.2
  · exact hnone h.2.2
  · obtain ⟨-, -, k, -, -, honly⟩ := h
    exact ⟨k, honly⟩
  · obtain ⟨-, -, k, -, -, honly⟩ := h
    exact ⟨k, honly⟩
  · obtain ⟨-, k, -, -, -, -, honly⟩ := h
    exact ⟨k, honly⟩
  · obtain ⟨-, k, -, -, -, -, honly⟩ := h
    exact ⟨k, honly⟩
  · obtain ⟨k, -, honly⟩ := h
    exact ⟨k, honly⟩
  · obtain ⟨-, k, -, honly⟩ := h
    exact ⟨k, honly⟩

/-- What a step of a task is: it exists, it is started, and only it and `num_cpus` change. -/
lemma step_task_cases {k : ℕ} {thread : Option Bool}
    (hs : step maxCpus s (.task k thread) = some t) : ∃ pc pc' numCpus,
      s.tasks[k]? = some pc ∧
      taskStep maxCpus s.shouldRun s.numCpus thread pc = some (pc', numCpus) ∧
      pc ≠ .created ∧ pc ≠ .deleted ∧
      t = { s with tasks := s.tasks.set k pc', numCpus := numCpus } := by
  obtain ⟨pc, hpc, hs⟩ := Option.bind_eq_some_iff.1 hs
  obtain ⟨⟨pc', numCpus⟩, htask, rfl⟩ := Option.map_eq_some_iff.1 hs
  refine ⟨pc, pc', numCpus, hpc, htask, ?_, ?_, rfl⟩
  all_goals
    rintro rfl
    simp [taskStep] at htask

/-- A task that samples keeps the monitor there while `should_run` is set. -/
lemma Monitored.task_step (h : Monitored s) {k : ℕ} {thread : Option Bool}
    (hs : step maxCpus s (.task k thread) = some t) : Monitored t := by
  obtain ⟨hrun, m, pc, hid, hm, hsamples, honly⟩ := h
  obtain ⟨pc', next, numCpus, hk, htask, -, hlive, rfl⟩ := step_task_cases hs
  obtain rfl := honly k pc' hk hlive
  obtain rfl : pc = pc' := Option.some.inj (hm.symm.trans hk)
  rw [hrun] at htask
  refine ⟨hrun, k, next, hid, ?_, hsamples.step htask, honly.set next⟩
  simp [(List.getElem?_eq_some_iff.1 hm).1]

/-- A step of a task keeps the invariant. -/
lemma Inv.task_step (h : Inv s) {k : ℕ} {thread : Option Bool}
    (hs : step maxCpus s (.task k thread) = some t) : Inv t := by
  obtain ⟨pc, next, numCpus, hk, htask, hcreated, hlive, ht⟩ := step_task_cases hs
  have hcaller : t.caller = s.caller := by rw [ht]
  have hno : ¬NoTask s.tasks := fun hno => hlive (hno pc (List.mem_of_getElem? hk))
  have honly : ∀ m, OnlyTask s.tasks m → OnlyTask t.tasks m := by
    intro m honly
    obtain rfl := honly k pc hk hlive
    rw [ht]
    exact honly.set next
  unfold Inv at h ⊢
  rw [hcaller]
  cases hpc : s.caller <;> simp only [hpc] at h ⊢
  case idle =>
    refine ⟨fun hrun => ?_, fun hrun => ?_⟩
    · exact (h.1 (by simpa [ht] using hrun)).task_step hs
    · exact absurd (h.2 (by simpa [ht] using hrun)) hno
  case startClear | startShouldRun | startFailed => exact absurd h.2 hno
  case startCreate => exact absurd h.2.2 hno
  case startTask | startDelete =>
    obtain ⟨-, -, m, -, hm, honlym⟩ := h
    obtain rfl := honlym k pc hk hlive
    exact absurd (Option.some.inj (hk.symm.trans hm)) hcreated
  case startIsRunning | stopShouldRun => exact h.task_step hs
  case stopIsRunning =>
    obtain ⟨m, hid, honlym⟩ := h
    exact ⟨m, by simpa [ht] using hid, honly m honlym⟩
  case stopDelete =>
    obtain ⟨hrun, m, hid, honlym⟩ := h
    exact ⟨by simpa [ht] using hrun, m, by simpa [ht] using hid, honly m honlym⟩

/-- A step of the client keeps the invariant. -/
lemma Inv.caller_step (h : Inv s) {e : CallerEvent}
    (hs : step maxCpus s (.caller e) = some t) : Inv t := by
  replace hs : callerStep s s.caller e = some t := hs
  unfold Inv at h
  cases hpc : s.caller <;> simp only [hpc] at h hs <;> cases e
  case idle.setRunning returned statusCode arg =>
    cases hrun : s.isRunning with
    | false =>
      have hno := h.2 hrun
      simp only [callerStep, hrun, Bool.false_eq_true, if_false] at hs
      split_ifs at hs
      · obtain rfl := Option.some.inj hs
        exact ⟨rfl, hno⟩
      · obtain rfl := Option.some.inj hs
        exact ⟨nofun, fun _ => hno⟩
    | true =>
      have hmon := h.1 hrun
      simp only [callerStep, hrun, if_true] at hs
      split_ifs at hs
      · obtain rfl := Option.some.inj hs
        exact ⟨fun _ => hmon, nofun⟩
      · obtain rfl := Option.some.inj hs
        exact hmon
  case startClear.next ok =>
    obtain rfl := Option.some.inj hs
    exact ⟨rfl, h.2⟩
  case startShouldRun.next ok =>
    obtain rfl := Option.some.inj hs
    exact ⟨h.1, rfl, h.2⟩
  case startCreate.next ok =>
    cases ok
    · obtain rfl := Option.some.inj hs
      exact ⟨h.1, h.2.2⟩
    · obtain rfl := Option.some.inj hs
      refine ⟨h.1, h.2.1, s.tasks.length, rfl, by simp, h.2.2.append _⟩
  case startTask.next ok =>
    obtain ⟨hrun, hshould, k, hid, hk, honly⟩ := h
    cases ok
    · obtain rfl := Option.some.inj hs
      exact ⟨hrun, hshould, k, hid, hk, honly⟩
    · obtain rfl := Option.some.inj hs
      refine ⟨hshould, k, .init, hid, ?_, trivial, ?_⟩
      · simp [hid, (List.getElem?_eq_some_iff.1 hk).1]
      · simpa only [hid] using honly.set .init
  case startDelete.next ok =>
    obtain ⟨hrun, -, k, hid, -, honly⟩ := h
    obtain rfl := Option.some.inj hs
    exact ⟨hrun, by simpa only [hid] using honly.taskDelete⟩
  case startFailed.next ok =>
    obtain rfl := Option.some.inj hs
    exact ⟨fun htrue => absurd (h.1.symm.trans htrue) nofun, fun _ => h.2⟩
  case startIsRunning.next ok =>
    obtain rfl := Option.some.inj hs
    exact ⟨fun _ => h, fun hfalse => absurd hfalse nofun⟩
  case stopShouldRun.next ok =>
    obtain ⟨-, k, -, hid, -, -, honly⟩ := h
    obtain rfl := Option.some.inj hs
    exact ⟨k, hid, honly⟩
  case stopIsRunning.next ok =>
    obtain rfl := Option.some.inj hs
    exact ⟨rfl, h⟩
  case stopDelete.next ok =>
    obtain ⟨hrun, k, hid, honly⟩ := h
    obtain rfl := Option.some.inj hs
    refine ⟨fun htrue => absurd (hrun.symm.trans htrue) nofun, fun _ => ?_⟩
    simpa only [hid] using honly.taskDelete
  all_goals exact absurd hs nofun

lemma inv_init : Inv init := by
  simp [Inv, init, NoTask]

/-- The invariant holds in every run. -/
lemma inv_of_run (h : run (step maxCpus) init tr = some s) : Inv s := by
  refine run_invariant (P := fun _ s => Inv s) inv_init ?_ h
  intro _ s e t hinv hs
  cases e with
  | caller e => exact hinv.caller_step hs
  | task k thread => exact hinv.task_step hs

/-- **There is one monitor at most.** In every interleaving of the commands of one client, whatever
becomes of the calls to create and to start tasks, with the steps of the tasks:

* two tasks that exist are the same;
* none exists while Start clears the state that the tasks use;
* between commands, `is_running` is set exactly when a task exists, and that task samples.

**Proof sketch.** The invariant: Start finds `is_running` clear only when no task exists, since Stop
returns after it has deleted the task. -/
theorem exclusive_of_run (h : run (step maxCpus) init tr = some s) :
    (∀ (j k : ℕ) pc pc', s.tasks[j]? = some pc → s.tasks[k]? = some pc' → pc ≠ .deleted →
      pc' ≠ .deleted → j = k) ∧
    (s.caller = .startClear → ∀ pc ∈ s.tasks, pc = .deleted) ∧
    ∀ returned statusCode, s.caller = .idle returned statusCode →
      (s.isRunning = true ↔ ∃ pc ∈ s.tasks, pc ≠ .deleted) ∧
        ∀ pc ∈ s.tasks, pc ≠ .deleted → pc.Samples := by
  have hinv := inv_of_run h
  obtain ⟨m, honly⟩ := hinv.onlyTask
  refine ⟨fun j k pc pc' hj hk hpc hpc' => ?_, fun hclear => ?_, fun returned status hidle => ?_⟩
  · rw [honly j pc hj hpc, honly k pc' hk hpc']
  · rw [Inv, hclear] at hinv
    exact hinv.2
  · rw [Inv, hidle] at hinv
    cases hrun : s.isRunning with
    | false =>
      have hno := hinv.2 hrun
      refine ⟨iff_of_false nofun fun ⟨pc, hpc, hlive⟩ => hlive (hno pc hpc), ?_⟩
      intro pc hpc hlive
      exact absurd (hno pc hpc) hlive
    | true =>
      obtain ⟨-, k, pc, -, hk, hsamples, honlyk⟩ := hinv.1 hrun
      refine ⟨iff_of_true rfl ⟨pc, List.mem_of_getElem? hk, ?_⟩, fun pc' hpc' hlive => ?_⟩
      · rintro rfl
        exact hsamples
      · obtain ⟨j, hj⟩ := List.mem_iff_getElem?.1 hpc'
        obtain rfl := honlyk j pc' hj hlive
        obtain rfl := Option.some.inj (hk.symm.trans hj)
        exact hsamples

/-- A client that starts the monitor, stops it, and is about to start it again. -/
def startStopStart : List Event :=
  [.caller (.setRunning 1), .caller (.next true), .caller (.next true), .caller (.next true),
    .caller (.next true), .caller (.next true), .task 0 none, .task 0 none,
    .caller (.setRunning 0), .caller (.next true), .caller (.next true), .task 0 none,
    .caller (.next true), .caller (.setRunning 1)]

/-- The first task is gone then. -/
theorem exclusive_of_run_restarted :
    ∃ s, run (step 4) init startStopStart = some s ∧ ∀ pc ∈ s.tasks, pc = .deleted :=
  ⟨_, rfl, (@exclusive_of_run 4 _ startStopStart rfl).2.1 rfl⟩

/-- Every task knows how far `num_cpus` has come. -/
def CountsAll (maxCpus : ℕ) (s : State) : Prop := ∀ pc ∈ s.tasks, pc.Counts maxCpus s.numCpus

/-- A step of the client does not disturb the count. -/
lemma CountsAll.caller_step (h : CountsAll maxCpus s) (hinv : Inv s) {e : CallerEvent}
    (hs : step maxCpus s (.caller e) = some t) : CountsAll maxCpus t := by
  replace hs : callerStep s s.caller e = some t := hs
  have hdelete : ∀ taskId, ∀ pc ∈ taskDelete s.tasks taskId, pc.Counts maxCpus s.numCpus := by
    intro taskId pc hpc
    cases taskId with
    | none => exact h pc hpc
    | some k =>
      rcases List.mem_or_eq_of_mem_set hpc with hmem | rfl
      · exact h pc hmem
      · trivial
  cases hpc : s.caller <;> rw [hpc] at hs <;> cases e
  case idle.setRunning =>
    simp only [callerStep] at hs
    split_ifs at hs <;>
      (obtain rfl := Option.some.inj hs; exact h)
  case startClear.next =>
    rw [Inv, hpc] at hinv
    obtain rfl := Option.some.inj hs
    intro pc hmem
    rw [hinv.2 pc hmem]
    trivial
  case startCreate.next ok =>
    cases ok
    · obtain rfl := Option.some.inj hs
      exact h
    · obtain rfl := Option.some.inj hs
      intro pc hmem
      rcases List.mem_append.1 hmem with hmem | hmem
      · exact h pc hmem
      · rw [List.mem_singleton.1 hmem]
        trivial
  case startTask.next ok =>
    cases ok
    · obtain rfl := Option.some.inj hs
      exact h
    · obtain rfl := Option.some.inj hs
      intro pc hmem
      dsimp only at hmem
      split at hmem
      · rcases List.mem_or_eq_of_mem_set hmem with hmem | rfl
        · exact h pc hmem
        · trivial
      · exact h pc hmem
  case startDelete.next | stopDelete.next =>
    obtain rfl := Option.some.inj hs
    exact hdelete s.taskId
  case startShouldRun.next | startFailed.next | startIsRunning.next | stopShouldRun.next |
      stopIsRunning.next =>
    obtain rfl := Option.some.inj hs
    exact h
  all_goals exact absurd hs nofun

/-- A step of a task does not disturb the count: the others are deleted. -/
lemma CountsAll.task_step (hpos : 0 < maxCpus) (h : CountsAll maxCpus s) (hinv : Inv s) {k : ℕ}
    {thread : Option Bool} (hs : step maxCpus s (.task k thread) = some t) :
    CountsAll maxCpus t := by
  obtain ⟨m, honly⟩ := hinv.onlyTask
  obtain ⟨pc, next, numCpus, hk, htask, -, hlive, rfl⟩ := step_task_cases hs
  obtain rfl := honly k pc hk hlive
  intro pc' hmem
  obtain ⟨j, hj⟩ := List.mem_iff_getElem?.1 hmem
  by_cases hdeleted : pc' = .deleted
  · rw [hdeleted]
    trivial
  · obtain rfl := honly.set next j pc' hj hdeleted
    rw [List.getElem?_set_self'] at hj
    obtain ⟨pc'', -, rfl⟩ := Option.map_eq_some_iff.1 hj
    exact (h pc (List.mem_of_getElem? hk)).step hpos htask

/-- **A sample stays inside the table.** In every such interleaving, for a `per_core` of any size
but zero, every visit of a thread gets a pointer to a core of the table, whether the thread is an
idle thread or not, and however many there are.

**Proof sketch.** The one task there is starts a sample with `num_cpus` zero, and goes to the next
thread only while it is less than the size; nobody else stores to it meanwhile. -/
theorem inTable_of_run (hpos : 0 < maxCpus) (h : run (step maxCpus) init tr = some s) {core : ℕ}
    {isIdle : Bool} (hvisit : .visit core isIdle ∈ s.tasks) : core < maxCpus := by
  have hall : Inv s ∧ CountsAll maxCpus s := by
    refine run_invariant (P := fun _ s => Inv s ∧ CountsAll maxCpus s) ⟨inv_init, ?_⟩ ?_ h
    · exact fun pc hpc => absurd hpc List.not_mem_nil
    · rintro _ s e t ⟨hinv, hcounts⟩ hs
      cases e with
      | caller e => exact ⟨hinv.caller_step hs, hcounts.caller_step hinv hs⟩
      | task k thread => exact ⟨hinv.task_step hs, hcounts.task_step hpos hinv hs⟩
  obtain ⟨rfl, hlt⟩ := hall.2 _ hvisit
  exact hlt

/-- A sample that has found one idle thread visits another. -/
def secondIdleThread : List Event :=
  startStopStart.take 6 ++ [.task 0 none, .task 0 none, .task 0 none, .task 0 none,
    .task 0 (some true), .task 0 none, .task 0 none, .task 0 none, .task 0 (some true)]

theorem inTable_of_run_second :
    ∃ s, run (step 2) init secondIdleThread = some s ∧ .visit 1 true ∈ s.tasks ∧ 1 < 2 := by
  obtain ⟨s, hs, hvisit⟩ : ∃ s, run (step 2) init secondIdleThread = some s ∧
      .visit 1 true ∈ s.tasks := ⟨_, rfl, by decide⟩
  exact ⟨s, hs, hvisit, inTable_of_run (by decide) hs hvisit⟩

end Runs

end CfePsp.Sysmon.Rtems.Monitor
