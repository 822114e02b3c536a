import CfePsp.Basic
import CfePsp.Lib.Ledger
import CfePsp.Lib.Runs

set_option relaxedAutoImplicit false
set_option autoImplicit false

/-!
# Starting and stopping the Linux monitor

`linux_sysmon_Start` opens `/proc/schedstat`, creates a worker thread and waits until the worker has
published the number of processors; `linux_sysmon_Stop` cancels and joins the worker and closes the
file. Start has four exits, which differ in what is left to clean up.

## Main definitions

* `CfePsp.Sysmon.LinuxMonitor.start`, `CfePsp.Sysmon.LinuxMonitor.stop` — the two functions.
* `CfePsp.Sysmon.LinuxMonitor.CallOk` — a call leaves what it owes: a worker and a descriptor when
  the monitor runs, and nothing otherwise.
* `CfePsp.Sysmon.LinuxMonitor.Creates` — the `pthread_create` of a call, if there is one, succeeds.

## Main results

* `CfePsp.Sysmon.LinuxMonitor.callOk_iff_creates` — in every sequence of calls, the calls leave what
  they owe exactly when each `pthread_create` succeeds.

## Design

A call is taken as a whole: the worker stores `num_cpus` and the loads, and no flag. What the driver
acquires and gives back is kept as a ledger. A worker is named by the number of its creation; the
handle is a copy of that name, and `none` when it is zeroed.
-/

namespace CfePsp.Sysmon.LinuxMonitor

/-! ## The functions -/

/-- What the driver acquires: worker threads and file descriptors. -/
inductive Resource
  | worker (taskId : Option ℕ)
  | descriptor (fd : ℤ)
  deriving DecidableEq

/-- `linux_sysmon_cpuload_state_t`, up to what the worker samples, with the number of workers that
were created so far and the ledger. -/
structure State where
  isRunning : Bool
  shouldRun : Bool
  numCpus : UInt8
  /-- `task_id`. -/
  taskId : Option ℕ
  devFd : ℤ
  created : ℕ
  ops : List (Ledger.Op Resource)
  deriving DecidableEq

/-- The outcomes of the external calls in a call of `linux_sysmon_Start`. -/
structure Outcome where
  /-- The result of `open`: a descriptor, or `-1`. -/
  openRet : ℤ
  /-- The result of `pthread_create`: zero, or a positive error number. -/
  createRet : ℤ
  /-- What the worker, if there is one, has published in `num_cpus` when the wait ends. -/
  published : UInt8
  openRet_spec : openRet = -1 ∨ 0 ≤ openRet
  createRet_spec : 0 ≤ createRet

/-- The calls of the driver. -/
inductive Call
  | start (o : Outcome)
  | stop

/-- An entry in the ledger. -/
def State.record (s : State) (op : Ledger.Op Resource) : State := { s with ops := s.ops ++ [op] }

/-- `memset` of the state. -/
def State.clear (s : State) : State :=
  { s with isRunning := false, shouldRun := false, numCpus := 0, taskId := none, devFd := 0 }

/-- `pthread_create`: when it succeeds there is a new worker, and `task_id` is its handle. -/
def State.pthreadCreate (s : State) (o : Outcome) : State :=
  if o.createRet = 0 then
    { s.record (.acquire (.worker (some s.created))) with
      taskId := some s.created, created := s.created + 1 }
  else s

/-- The wait for `num_cpus`: only a worker makes it nonzero. -/
def State.wait (s : State) (o : Outcome) : State :=
  { s with numCpus := if o.createRet = 0 then o.published else s.numCpus }

/-- `pthread_cancel(state->task_id)`. -/
def State.pthreadCancel (s : State) : State := s.record (.use (.worker s.taskId))

/-- `pthread_join(state->task_id, NULL)`. -/
def State.pthreadJoin (s : State) : State := s.record (.release (.worker s.taskId))

/-- `close(state->dev_fd)`. -/
def State.close (s : State) : State := s.record (.release (.descriptor s.devFd))

/-- `linux_sysmon_Start`: status and state. -/
def start (s : State) (o : Outcome) : ℤ × State :=
  if s.isRunning then (Status.success, s)
  else
    let s := { s.clear with devFd := o.openRet }
    if o.openRet < 0 then (Status.error, s)
    else
      let s := s.record (.acquire (.descriptor o.openRet))
      let s := { s with shouldRun := true }
      let s := s.pthreadCreate o
      if o.createRet < 0 then (Status.error, { s with shouldRun := false }.close)
      else
        let s := s.wait o
        if s.numCpus = 0 then
          (Status.error, { s with shouldRun := false }.pthreadCancel.pthreadJoin.close)
        else (Status.success, { s with isRunning := true })

/-- `linux_sysmon_Stop`: status and state. -/
def stop (s : State) : ℤ × State :=
  if s.isRunning then
    (Status.success,
      { s with shouldRun := false, isRunning := false }.pthreadCancel.pthreadJoin.close)
  else (Status.success, s)

/-- A call: status and state. -/
def exec (s : State) : Call → ℤ × State
  | .start o => start s o
  | .stop => stop s

/-- A call as a step of the driver. -/
def step (s : State) (call : Call) : Option State := some (exec s call).2

/-- The state after `linux_sysmon_Init`. -/
def init : State := ⟨false, false, 0, none, 0, 0, []⟩

/-! ## What a call owes -/

/-- The resource is a worker. -/
def Resource.isWorker : Resource → Bool
  | .worker _ => true
  | .descriptor _ => false

/-- **The resources are in order**: the number of workers that were created and not joined is one if
the monitor runs and zero otherwise; every descriptor was closed as often as it was opened, but the
one of the running session; cancelling and joining was done to workers that were created and not
joined. -/
structure Disciplined (s : State) : Prop where
  workers : ∃ l, Ledger.held s.ops = some l ∧
    l.countP Resource.isWorker = if s.isRunning then 1 else 0
  closed : ∀ fd, s.ops.count (.acquire (.descriptor fd)) =
    s.ops.count (.release (.descriptor fd)) + if s.isRunning ∧ fd = s.devFd then 1 else 0
  applied : ∀ before taskId after,
    s.ops = before ++ .use (.worker taskId) :: after ∨
      s.ops = before ++ .release (.worker taskId) :: after →
    ∃ l, Ledger.held before = some l ∧ .worker taskId ∈ l

/-- The call leaves the resources in order, and Start returns success exactly if the monitor runs
then. -/
def CallOk (s : State) (call : Call) : Prop :=
  Disciplined (exec s call).2 ∧
    ∀ o, call = .start o →
      ((exec s call).1 = Status.success ↔ (exec s call).2.isRunning = true)

/-- If the call gets as far as `pthread_create`, that succeeds. -/
def Creates (s : State) : Call → Prop
  | .start o => s.isRunning = false → 0 ≤ o.openRet → o.createRet = 0
  | .stop => True

/-! ## What is held between calls -/

/-- What a running session holds. -/
def State.session (s : State) : List Resource :=
  if s.isRunning then [.worker s.taskId, .descriptor s.devFd] else []

/-- The ledger is legal, and what is held is what the session needs. -/
def Inv (s : State) : Prop := Ledger.held s.ops = some s.session

section Calls

variable {s : State} {o : Outcome} {call : Call} {l : List Resource}

/-- A driver that does not run holds nothing. -/
lemma inv_iff_of_stopped (hrun : s.isRunning = false) : Inv s ↔ Ledger.held s.ops = some [] := by
  rw [Inv, State.session, hrun]
  exact Iff.rfl

/-- The resources are in order when what is held is what the session needs. -/
lemma Inv.disciplined (h : Inv s) : Disciplined s := by
  refine ⟨⟨s.session, h, ?_⟩, fun fd => ?_, fun before taskId after hops => ?_⟩
  · unfold State.session
    split
    · rfl
    · rfl
  · rw [Ledger.count_acquire h]
    congr 1
    unfold State.session
    by_cases hrun : s.isRunning = true
    · by_cases hfd : fd = s.devFd
      · simp [hrun, hfd]
      · simp [hrun, hfd, Ne.symm hfd]
    · simp [hrun]
  · unfold Inv at h
    rcases hops with hops | hops
    · rw [hops] at h
      exact Ledger.exists_held_of_use h
    · rw [hops] at h
      exact Ledger.exists_held_of_release h

/-- Cancelling, joining and closing gives a session back. -/
lemma inv_cleanUp (hrun : s.isRunning = false)
    (h : Ledger.held s.ops = some [.worker s.taskId, .descriptor s.devFd]) :
    Inv s.pthreadCancel.pthreadJoin.close := by
  have hcancel : Ledger.held s.pthreadCancel.ops =
      some [.worker s.taskId, .descriptor s.devFd] :=
    Ledger.held_use h List.mem_cons_self
  have hjoin : Ledger.held s.pthreadCancel.pthreadJoin.ops = some [.descriptor s.devFd] := by
    have hrelease := Ledger.held_release hcancel (r := .worker s.taskId) List.mem_cons_self
    rwa [List.erase_cons_head] at hrelease
  have hclose := Ledger.held_release hjoin (r := .descriptor s.devFd) List.mem_cons_self
  rw [List.erase_cons_head] at hclose
  exact (inv_iff_of_stopped (s := s.pthreadCancel.pthreadJoin.close) hrun).2 hclose

/-- Stop leaves nothing behind. -/
lemma Inv.stop (h : Inv s) : Inv (stop s).2 := by
  unfold LinuxMonitor.stop
  unfold Inv State.session at h
  split
  next hrun =>
    rw [if_pos hrun] at h
    exact inv_cleanUp (s := { s with shouldRun := false, isRunning := false }) rfl h
  next hrun =>
    rw [if_neg hrun] at h
    rwa [Inv, State.session, if_neg hrun]

/-- The driver in front of `pthread_create`. -/
def State.opened (s : State) (o : Outcome) : State :=
  { { s.clear with devFd := o.openRet }.record (.acquire (.descriptor o.openRet)) with
    shouldRun := true }

/-- Start, by its exits. -/
lemma start_eq (hrun : s.isRunning = false) (hopen : 0 ≤ o.openRet) :
    start s o =
      if ((s.opened o).pthreadCreate o |>.wait o).numCpus = 0 then
        (Status.error, { (s.opened o).pthreadCreate o |>.wait o with
          shouldRun := false }.pthreadCancel.pthreadJoin.close)
      else (Status.success, { (s.opened o).pthreadCreate o |>.wait o with isRunning := true }) := by
  have hclosed : ¬o.openRet < 0 := by omega
  have hcreate := o.createRet_spec
  have hcreate' : ¬o.createRet < 0 := by omega
  simp only [start, hrun, Bool.false_eq_true, if_false, if_neg hclosed, if_neg hcreate']
  rfl

/-- `is_running` is clear until the end of Start. -/
lemma isRunning_pthreadCreate : ((s.opened o).pthreadCreate o).isRunning = false := by
  unfold State.pthreadCreate
  split <;> rfl

/-- The driver past `pthread_create`, if that succeeded. -/
lemma held_created (h : Ledger.held s.ops = some []) (hcreate : o.createRet = 0) :
    Ledger.held ((s.opened o).pthreadCreate o).ops =
      some [.worker ((s.opened o).pthreadCreate o).taskId,
        .descriptor ((s.opened o).pthreadCreate o).devFd] := by
  simp only [State.pthreadCreate, if_pos hcreate]
  refine Ledger.held_acquire (Ledger.held_acquire h List.not_mem_nil) ?_
  simp

/-- Start leaves what a running session needs, or nothing, if `pthread_create` succeeds. -/
lemma Inv.start (h : Inv s) (hcreates : Creates s (.start o)) : Inv (start s o).2 := by
  by_cases hrun : s.isRunning = true
  · have hsame : (LinuxMonitor.start s o).2 = s := by simp [LinuxMonitor.start, hrun]
    rwa [hsame]
  · rw [Bool.not_eq_true] at hrun
    have hnone : Ledger.held s.ops = some [] := (inv_iff_of_stopped hrun).1 h
    by_cases hopen : 0 ≤ o.openRet
    · have hheld := held_created hnone (hcreates hrun hopen)
      rw [start_eq hrun hopen]
      split
      · exact inv_cleanUp (s := { (s.opened o).pthreadCreate o |>.wait o with
          shouldRun := false }) isRunning_pthreadCreate hheld
      · exact hheld
    · have hfail : LinuxMonitor.start s o =
          (Status.error, { s.clear with devFd := o.openRet }) := by
        have hneg : o.openRet < 0 := by omega
        simp [LinuxMonitor.start, hrun, hneg]
      rw [hfail]
      exact hnone

/-- Start returns success exactly if the monitor runs then. -/
lemma start_success_iff (s : State) (o : Outcome) :
    (start s o).1 = Status.success ↔ (start s o).2.isRunning = true := by
  have herror : Status.error ≠ Status.success := by decide
  have hcreate := o.createRet_spec
  by_cases hrun : s.isRunning = true
  · simp [start, hrun]
  · rw [Bool.not_eq_true] at hrun
    by_cases hopen : 0 ≤ o.openRet
    · rw [start_eq hrun hopen]
      split
      · refine iff_of_false herror fun hset => ?_
        exact Bool.false_ne_true (isRunning_pthreadCreate.symm.trans hset)
      · exact iff_of_true rfl rfl
    · have hneg : o.openRet < 0 := by omega
      simp only [start, hrun, hneg, Bool.false_eq_true, if_false, if_true]
      exact iff_of_false herror nofun

/-- **A `pthread_create` that fails** is taken for a success: Start then cancels a worker that was
never created. -/
lemma not_disciplined_start (h : Inv s) (hrun : s.isRunning = false) (hopen : 0 ≤ o.openRet)
    (hfail : o.createRet ≠ 0) : ¬Disciplined (start s o).2 := by
  intro hd
  have hnone : Ledger.held s.ops = some [] := (inv_iff_of_stopped hrun).1 h
  have hopened : Ledger.held (s.opened o).ops = some [.descriptor o.openRet] :=
    Ledger.held_acquire hnone List.not_mem_nil
  have hstart : (start s o).2.ops = (s.opened o).ops ++ .use (.worker none) ::
      [.release (.worker none), .release (.descriptor o.openRet)] := by
    rw [start_eq hrun hopen]
    simp [State.pthreadCreate, hfail, State.wait, State.opened, State.clear, State.record,
      State.pthreadCancel, State.pthreadJoin, State.close]
  obtain ⟨l, hl, hmem⟩ := hd.applied _ _ _ (.inl hstart)
  rw [hopened] at hl
  obtain rfl := Option.some.inj hl
  simp at hmem

/-- A call leaves what it owes exactly if its `pthread_create` succeeds. -/
lemma Inv.callOk_iff (h : Inv s) (call : Call) : CallOk s call ↔ Creates s call := by
  cases call with
  | stop => exact iff_of_true ⟨h.stop.disciplined, nofun⟩ trivial
  | start o =>
    constructor
    · intro hok hrun hopen
      by_contra hfail
      exact not_disciplined_start h hrun hopen hfail hok.1
    · intro hcreates
      refine ⟨(h.start hcreates).disciplined, ?_⟩
      rintro _ ⟨⟩
      exact start_success_iff s o

end Calls

/-! ## Main result -/

/-- **The monitor of Linux.** In every sequence of calls from the initial state, with every outcome
of the external calls, each call leaves the workers and descriptors in order and Start returns
success exactly if the monitor runs, if and only if each `pthread_create` succeeds.

**Proof sketch.** Between calls the driver holds what its session needs, as long as every
`pthread_create` succeeded; Start takes a failed one for a success, as its error numbers are
positive. -/
theorem callOk_iff_creates (calls : List Call) :
    Transition.Always step CallOk init calls ↔ Transition.Always step Creates init calls := by
  refine Transition.always_iff (I := Inv) rfl ?_ fun s call h => h.callOk_iff call
  intro s call s' h hcreates hs
  obtain rfl := Option.some.inj hs
  cases call with
  | start o => exact h.start hcreates
  | stop => exact h.stop

/-- A start in which the system has no more threads: `pthread_create` returns `EAGAIN`. -/
def noThreads : Outcome := ⟨3, 11, 0, .inr (by decide), by decide⟩

/-- Then Start cancels and joins a worker that was never created. -/
theorem not_callOk_noThreads : ¬Transition.Always step CallOk init [.start noThreads] := by
  rintro ⟨hok, -⟩
  exact not_disciplined_start (s := init) rfl rfl (by decide) (by decide) hok.1

end CfePsp.Sysmon.LinuxMonitor
