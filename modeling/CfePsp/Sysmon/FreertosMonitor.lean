import CfePsp.Basic
import CfePsp.Lib.Ledger
import CfePsp.Lib.Runs

set_option relaxedAutoImplicit false
set_option autoImplicit false

/-!
# Starting and stopping the FreeRTOS monitor

`freertos_sysmon_Start` creates a task that samples the load while `should_run` is set and then
deletes itself; `freertos_sysmon_Stop` clears the flag and deletes the task by its handle. Start,
Stop and the tasks are taken one assignment at a time.

## Main definitions

* `CfePsp.Sysmon.Freertos.callerStep`, `CfePsp.Sysmon.Freertos.taskStep` — Start and Stop, and the
  task.
* `CfePsp.Sysmon.Freertos.step` — the interleaving of one client with the tasks it created.
* `CfePsp.Sysmon.Freertos.DeletesOnce` — every task is deleted once, by a handle that is not stale,
  and none is left when Stop returns.

## Main results

* `CfePsp.Sysmon.Freertos.deletesOnce_of_waiting` — that holds in every run in which no task gets to
  its own `vTaskDelete` while Stop is on its way to the other one.
* `CfePsp.Sysmon.Freertos.not_deletesOnce_of_race` — if a task does, it fails as soon as Stop gets
  there.

## Design

The creations and deletions of tasks are kept as a ledger; a task exists as long as the ledger holds
it. What the tasks sample has no influence on the flags and is left out, as are the other fields of
the state that the `memset` of Start clears.
-/

namespace CfePsp.Sysmon.Freertos

/-! ## The program -/

/-- Where a task is in `freertos_sysmon_Task`: each name says what comes next. -/
inductive TaskPc
  /-- The test of the loop. -/
  | check
  /-- `OS_TaskDelay`. -/
  | delay
  /-- `freertos_sysmon_update_state`. -/
  | update
  /-- `vTaskDelete(NULL)`. -/
  | deleteSelf
  | deleted
  deriving DecidableEq

/-- The functions that `CFE_PSP_IODriver_SET_RUNNING` calls. -/
inductive Function
  | start
  | stop
  deriving DecidableEq

/-- The choice of the function by the argument of `CFE_PSP_IODriver_SET_RUNNING`. -/
def setRunning (arg : Uint32) : Function := if arg ≠ 0 then .start else .stop

/-- Where the client is: between commands, with the function that returned last and its status, or
in front of an assignment or a call of `freertos_sysmon_Start` or `freertos_sysmon_Stop`. -/
inductive CallerPc
  | idle (returned : Option Function) (statusCode : ℤ)
  /-- The `memset` of the state. -/
  | startClear
  /-- `should_run = true`. -/
  | startShouldRun
  /-- `xTaskCreate`. -/
  | startCreate
  /-- `should_run = true`, after the creation. -/
  | startShouldRunAgain
  /-- `is_running = true`. -/
  | startIsRunning
  /-- `is_running = false`, after the creation failed. -/
  | failIsRunning
  /-- `should_run = false`, after the creation failed. -/
  | failShouldRun
  /-- `should_run = false`. -/
  | stopShouldRun
  /-- `is_running = false`. -/
  | stopIsRunning
  /-- `vTaskDelete(state->task_id)`. -/
  | stopDelete
  /-- The client deleted itself, with a null handle. -/
  | deleted
  deriving DecidableEq

/-- The client, the tasks it created so far, and the state they share. -/
structure State where
  caller : CallerPc
  tasks : List TaskPc
  /-- `task_id`, as the position of the task. -/
  taskId : Option ℕ
  shouldRun : Bool
  isRunning : Bool
  /-- The creations and deletions of tasks so far. -/
  ops : List (Ledger.Op ℕ)
  deriving DecidableEq

/-- What the client does next: a command, or the next assignment or call; `created` is the outcome
of `xTaskCreate`. -/
inductive CallerEvent
  | command (arg : Uint32)
  | next (created : Bool)
  deriving DecidableEq

/-- `vTaskDelete` of the task `k`, whether it still exists or not. -/
def vTaskDelete (s : State) (k : ℕ) : State :=
  { s with tasks := s.tasks.set k .deleted, ops := s.ops ++ [.release k] }

/-- `xTaskCreate`: a new task, whose handle is stored in `task_id`. -/
def xTaskCreate (s : State) : State :=
  { s with
    tasks := s.tasks ++ [.check], taskId := some s.tasks.length
    ops := s.ops ++ [.acquire s.tasks.length] }

/-- A step of the client. -/
def callerStep (s : State) : CallerPc → CallerEvent → Option State
  | .idle _ _, .command arg =>
      match setRunning arg with
      | .start =>
          some { s with
            caller := if s.isRunning then .idle (some .start) Status.success else .startClear }
      | .stop =>
          some { s with
            caller := if s.isRunning then .stopShouldRun else .idle (some .stop) Status.success }
  | .startClear, .next _ =>
      some { s with caller := .startShouldRun, taskId := none, shouldRun := false
                    isRunning := false }
  | .startShouldRun, .next _ => some { s with caller := .startCreate, shouldRun := true }
  | .startCreate, .next true => some { xTaskCreate s with caller := .startShouldRunAgain }
  | .startCreate, .next false => some { s with caller := .failIsRunning }
  | .startShouldRunAgain, .next _ => some { s with caller := .startIsRunning, shouldRun := true }
  | .startIsRunning, .next _ =>
      some { s with caller := .idle (some .start) Status.success, isRunning := true }
  | .failIsRunning, .next _ => some { s with caller := .failShouldRun, isRunning := false }
  | .failShouldRun, .next _ =>
      some { s with caller := .idle (some .start) Status.error, shouldRun := false }
  | .stopShouldRun, .next _ => some { s with caller := .stopIsRunning, shouldRun := false }
  | .stopIsRunning, .next _ => some { s with caller := .stopDelete, isRunning := false }
  | .stopDelete, .next _ =>
      match s.taskId with
      | some k => some { vTaskDelete s k with caller := .idle (some .stop) Status.success }
      | none => some { s with caller := .deleted }
  | _, _ => none

/-- A step of the task `k`, which is at `pc`. -/
def taskStep (s : State) (k : ℕ) : TaskPc → Option State
  | .check => some { s with tasks := s.tasks.set k (if s.shouldRun then .delay else .deleteSelf) }
  | .delay => some { s with tasks := s.tasks.set k .update }
  | .update => some { s with tasks := s.tasks.set k .check }
  | .deleteSelf => some (vTaskDelete s k)
  | .deleted => none

/-- The events: a step of the client, or of the `k`-th task. -/
inductive Event
  | caller (e : CallerEvent)
  | task (k : ℕ)
  deriving DecidableEq

/-- A step of the system. -/
def step (s : State) : Event → Option State
  | .caller e => callerStep s s.caller e
  | .task k => s.tasks[k]?.bind (taskStep s k)

/-- The state after `freertos_sysmon_Init`. -/
def init : State := ⟨.idle none Status.success, [], none, false, false, []⟩

/-! ## What is to hold -/

/-- **The deletions are right**: each task is deleted at most once; whoever deletes a task, it
exists at that time; and no task is left when Stop returns. -/
structure DeletesOnce (s : State) : Prop where
  once : ∀ k, s.ops.count (.release k) ≤ 1
  existed : ∀ before k after, s.ops = before ++ .release k :: after →
    ∃ l, Ledger.held before = some l ∧ k ∈ l
  none_left : ∀ statusCode, s.caller = .idle (some .stop) statusCode →
    ∀ pc ∈ s.tasks, pc = .deleted

/-- The step is not that of a task executing its own `vTaskDelete` while Stop is between its store
to `should_run` and its `vTaskDelete`. -/
def Waiting (s : State) : Event → Prop
  | .task k => s.tasks[k]? = some .deleteSelf → s.caller ≠ .stopIsRunning ∧ s.caller ≠ .stopDelete
  | .caller _ => True

instance (s : State) : (e : Event) → Decidable (Waiting s e)
  | .task k => inferInstanceAs (Decidable (s.tasks[k]? = some .deleteSelf → _ ∧ _))
  | .caller _ => isTrue trivial

/-! ## The tasks that exist -/

/-- The task `k` was created and is not deleted. -/
def State.Exists (s : State) (k : ℕ) : Prop := ∃ pc, s.tasks[k]? = some pc ∧ pc ≠ .deleted

/-- The ledger of the creations and deletions is legal and holds the tasks that exist; no task was
created twice. -/
structure Ledgered (s : State) : Prop where
  legal : ∃ l, Ledger.held s.ops = some l ∧ ∀ k, k ∈ l ↔ s.Exists k
  acquired : ∀ k, s.ops.count (.acquire k) ≤ 1
  fresh : ∀ k, s.tasks.length ≤ k → s.ops.count (.acquire k) = 0

section Ledgered

variable {s u : State} {k : ℕ} {pc : TaskPc}

lemma State.Exists.lt (h : s.Exists k) : k < s.tasks.length := by
  obtain ⟨pc, hk, -⟩ := h
  exact (List.getElem?_eq_some_iff.1 hk).1

/-- A task that moves on, or comes to its end, is the only one for which anything changes. -/
lemma exists_set (hk : k < s.tasks.length) {j : ℕ} (ops : List (Ledger.Op ℕ)) :
    State.Exists { s with tasks := s.tasks.set k pc, ops := ops } j ↔
      if j = k then pc ≠ .deleted else s.Exists j := by
  unfold State.Exists
  split_ifs with hj
  · subst hj
    rw [List.getElem?_set_self hk]
    constructor
    · rintro ⟨pc', hpc', hne⟩
      rwa [Option.some.inj hpc']
    · intro hne
      exact ⟨pc, rfl, hne⟩
  · rw [List.getElem?_set_ne (Ne.symm hj)]

/-- The ledger concerns the tasks and what was done to them. -/
lemma Ledgered.congr (h : Ledgered s) (htasks : u.tasks = s.tasks) (hops : u.ops = s.ops) :
    Ledgered u := by
  have hexists : ∀ k, u.Exists k ↔ s.Exists k := by
    intro k
    rw [State.Exists, State.Exists, htasks]
  obtain ⟨l, hl, hmem⟩ := h.legal
  refine ⟨⟨l, by rw [hops, hl], fun k => ?_⟩, fun k => ?_, fun k hk => ?_⟩
  · rw [hmem, hexists]
  · rw [hops]
    exact h.acquired k
  · rw [hops]
    exact h.fresh k (by rwa [htasks] at hk)

/-- Moving a task that exists keeps the ledger. -/
lemma Ledgered.move (h : Ledgered s) (hk : s.Exists k) (hpc : pc ≠ .deleted) :
    Ledgered { s with tasks := s.tasks.set k pc } := by
  obtain ⟨l, hl, hmem⟩ := h.legal
  refine ⟨⟨l, hl, fun j => ?_⟩, h.acquired, fun j hj => h.fresh j ?_⟩
  · rw [hmem, exists_set hk.lt]
    split_ifs with hj
    · subst hj
      exact iff_of_true hk hpc
    · exact Iff.rfl
  · rwa [List.length_set] at hj

/-- `vTaskDelete` of a task that exists keeps the ledger. -/
lemma Ledgered.delete (h : Ledgered s) (hk : s.Exists k) : Ledgered (vTaskDelete s k) := by
  obtain ⟨l, hl, hmem⟩ := h.legal
  refine ⟨⟨l.erase k, Ledger.held_release hl ((hmem k).2 hk), fun j => ?_⟩, fun j => ?_,
    fun j hj => ?_⟩
  · rw [vTaskDelete, exists_set hk.lt]
    split_ifs with hj
    · subst hj
      refine iff_of_false (fun hj => ?_) (not_not_intro rfl)
      exact (Ledger.nodup_of_held hl).not_mem_erase hj
    · rw [List.mem_erase_of_ne hj, hmem]
  · rw [vTaskDelete, List.count_append]
    simpa using h.acquired j
  · rw [vTaskDelete, List.length_set] at hj
    rw [vTaskDelete, List.count_append]
    simpa using h.fresh j hj

/-- The tasks after `vTaskDelete`. -/
lemma exists_vTaskDelete (hk : s.Exists k) {j : ℕ} :
    (vTaskDelete s k).Exists j ↔ j ≠ k ∧ s.Exists j := by
  rw [vTaskDelete, exists_set hk.lt]
  split_ifs with hj
  · exact iff_of_false (not_not_intro rfl) fun h => h.1 hj
  · exact (and_iff_right hj).symm

/-- The tasks after `xTaskCreate`. -/
lemma exists_xTaskCreate {j : ℕ} :
    (xTaskCreate s).Exists j ↔ j = s.tasks.length ∨ s.Exists j := by
  unfold State.Exists xTaskCreate
  rcases Nat.lt_trichotomy j s.tasks.length with hlt | heq | hgt
  · rw [List.getElem?_append_left hlt]
    exact ⟨.inr, fun h => h.resolve_left hlt.ne⟩
  · subst heq
    rw [List.getElem?_concat_length]
    exact iff_of_true ⟨.check, rfl, nofun⟩ (.inl rfl)
  · have hold : s.tasks[j]? = none := List.getElem?_eq_none hgt.le
    have hnew : (s.tasks ++ [TaskPc.check])[j]? = none := by
      refine List.getElem?_eq_none ?_
      rw [List.length_append, List.length_singleton]
      exact hgt
    rw [hold, hnew]
    simp [hgt.ne']

/-- `xTaskCreate` keeps the ledger. -/
lemma Ledgered.create (h : Ledgered s) : Ledgered (xTaskCreate s) := by
  obtain ⟨l, hl, hmem⟩ := h.legal
  have hnew : s.tasks.length ∉ l := fun hin => Nat.lt_irrefl _ ((hmem _).1 hin).lt
  refine ⟨⟨_, Ledger.held_acquire hl hnew, fun j => ?_⟩, fun j => ?_, fun j hj => ?_⟩
  · rw [List.mem_cons, exists_xTaskCreate, hmem]
  · rw [xTaskCreate, List.count_append]
    by_cases hj : s.tasks.length = j
    · subst hj
      simp [h.fresh s.tasks.length le_rfl]
    · simpa [hj] using h.acquired j
  · rw [xTaskCreate, List.length_append, List.length_singleton] at hj
    rw [xTaskCreate, List.count_append, h.fresh j (by omega)]
    have hne : s.tasks.length ≠ j := by omega
    simp [hne]

/-- With a legal ledger each task was deleted once at most, and existed then. -/
lemma Ledgered.once (h : Ledgered s) (k : ℕ) : s.ops.count (.release k) ≤ 1 := by
  obtain ⟨l, hl, -⟩ := h.legal
  have hcount := Ledger.count_acquire hl k
  have hacquired := h.acquired k
  omega

end Ledgered

/-! ## The invariant -/

/-- No task exists. -/
def NoTask (s : State) : Prop := ∀ k, ¬s.Exists k

/-- The task behind the handle is the only one that exists, and does not leave its loop while
`should_run` is set. -/
def Watched (s : State) : Prop :=
  ∃ k, s.taskId = some k ∧ s.Exists k ∧ (∀ j, s.Exists j → j = k) ∧
    (s.shouldRun = true → s.tasks[k]? ≠ some .deleteSelf)

/-- What holds at each point of the client. -/
def CallerInv (s : State) : Prop :=
  match s.caller with
  | .idle returned _ =>
      s.isRunning = true ∧ s.shouldRun = true ∧ returned ≠ some .stop ∧ Watched s ∨
        s.isRunning = false ∧ NoTask s
  | .startClear | .startShouldRun | .failIsRunning => NoTask s
  | .startCreate => s.shouldRun = true ∧ NoTask s
  | .startShouldRunAgain | .startIsRunning | .stopShouldRun => s.shouldRun = true ∧ Watched s
  | .failShouldRun => s.isRunning = false ∧ NoTask s
  | .stopIsRunning => s.shouldRun = false ∧ Watched s
  | .stopDelete => s.shouldRun = false ∧ s.isRunning = false ∧ Watched s
  | .deleted => False

section Invariant

variable {s u : State} {k : ℕ}

/-- A step of a task: it deletes itself, or moves on and gets to that only when `should_run` is
clear. -/
lemma step_task_cases (h : step s (.task k) = some u) :
    s.Exists k ∧ (s.tasks[k]? = some .deleteSelf ∧ u = vTaskDelete s k ∨
      s.tasks[k]? ≠ some .deleteSelf ∧ ∃ pc, pc ≠ .deleted ∧
        (s.shouldRun = true → pc ≠ .deleteSelf) ∧ u = { s with tasks := s.tasks.set k pc }) := by
  obtain ⟨pc, hk, htask⟩ := Option.bind_eq_some_iff.1 h
  cases pc with
  | check =>
    cases htask
    refine ⟨⟨.check, hk, nofun⟩, .inr ⟨by rw [hk]; nofun, _, ?_, fun hrun => ?_, rfl⟩⟩
    · split <;> nofun
    · rw [if_pos hrun]
      nofun
  | delay =>
    cases htask
    exact ⟨⟨.delay, hk, nofun⟩, .inr ⟨by rw [hk]; nofun, .update, nofun, nofun, rfl⟩⟩
  | update =>
    cases htask
    exact ⟨⟨.update, hk, nofun⟩, .inr ⟨by rw [hk]; nofun, .check, nofun, nofun, rfl⟩⟩
  | deleteSelf =>
    cases htask
    exact ⟨⟨.deleteSelf, hk, nofun⟩, .inl ⟨hk, rfl⟩⟩
  | deleted => cases htask

/-- A step of a task leaves the client and the flags alone. -/
lemma frame_of_step_task (h : step s (.task k) = some u) :
    u.caller = s.caller ∧ u.shouldRun = s.shouldRun ∧ u.isRunning = s.isRunning := by
  rcases (step_task_cases h).2 with ⟨-, rfl⟩ | ⟨-, pc, -, -, rfl⟩
  · exact ⟨rfl, rfl, rfl⟩
  · exact ⟨rfl, rfl, rfl⟩

/-- A step of a task keeps the ledger. -/
lemma Ledgered.task_step (h : Ledgered s) (hs : step s (.task k) = some u) : Ledgered u := by
  obtain ⟨hk, ⟨-, rfl⟩ | ⟨-, pc, hpc, -, rfl⟩⟩ := step_task_cases hs
  · exact h.delete hk
  · exact h.move hk hpc

/-- The watched task stays watched when it takes a step other than its own deletion. -/
lemma Watched.task_step (h : Watched s) (hne : s.tasks[k]? ≠ some .deleteSelf)
    (hs : step s (.task k) = some u) : Watched u := by
  obtain ⟨w, hid, hw, honly, hloop⟩ := h
  obtain ⟨hk, ⟨heq, -⟩ | ⟨-, pc, hpc, hrun, rfl⟩⟩ := step_task_cases hs
  · exact absurd heq hne
  · obtain rfl : k = w := honly k hk
    refine ⟨k, hid, ?_, fun j hj => ?_, fun hshould => ?_⟩
    · exact (exists_set hk.lt s.ops).2 (by rw [if_pos rfl]; exact hpc)
    · by_contra hne
      have hj' := (exists_set hk.lt s.ops).1 hj
      rw [if_neg hne] at hj'
      exact hne (honly j hj')
    · show (s.tasks.set k pc)[k]? ≠ some .deleteSelf
      rw [List.getElem?_set_self hk.lt]
      exact fun heq => hrun hshould (Option.some.inj heq)

/-- While `should_run` is set the watched task does not delete itself. -/
lemma Watched.ne_deleteSelf (h : Watched s) (hrun : s.shouldRun = true)
    (hs : step s (.task k) = some u) : s.tasks[k]? ≠ some .deleteSelf := by
  obtain ⟨w, -, -, honly, hloop⟩ := h
  obtain rfl : k = w := honly k (step_task_cases hs).1
  exact hloop hrun

/-- A step of a task keeps the invariant, if it is one with `Waiting`. -/
lemma CallerInv.task_step (h : CallerInv s) (hwait : Waiting s (.task k))
    (hs : step s (.task k) = some u) : CallerInv u := by
  obtain ⟨hcaller, hshould, hrunning⟩ := frame_of_step_task hs
  have hk := (step_task_cases hs).1
  unfold CallerInv at h ⊢
  rw [hcaller]
  cases hc : s.caller with
  | idle returned statusCode =>
    rw [hc] at h
    rcases h with ⟨hrun, hsh, hret, hw⟩ | ⟨-, hnone⟩
    · refine .inl ⟨hrunning.trans hrun, hshould.trans hsh, hret, ?_⟩
      exact hw.task_step (hw.ne_deleteSelf hsh hs) hs
    · exact absurd hk (hnone k)
  | startShouldRunAgain | startIsRunning | stopShouldRun =>
    rw [hc] at h
    exact ⟨hshould.trans h.1, h.2.task_step (h.2.ne_deleteSelf h.1 hs) hs⟩
  | stopIsRunning =>
    rw [hc] at h
    refine ⟨hshould.trans h.1, h.2.task_step (fun heq => ?_) hs⟩
    exact (hwait heq).1 hc
  | stopDelete =>
    rw [hc] at h
    refine ⟨hshould.trans h.1, hrunning.trans h.2.1, h.2.2.task_step (fun heq => ?_) hs⟩
    exact (hwait heq).2 hc
  | startClear | startShouldRun | failIsRunning =>
    rw [hc] at h
    exact absurd hk (h k)
  | startCreate | failShouldRun =>
    rw [hc] at h
    exact absurd hk (h.2 k)
  | deleted =>
    rw [hc] at h
    exact h.elim

/-- A new task is watched, if there was none. -/
lemma watched_xTaskCreate (h : NoTask s) : Watched (xTaskCreate s) := by
  refine ⟨s.tasks.length, rfl, exists_xTaskCreate.2 (.inl rfl), fun j hj => ?_, fun _ => ?_⟩
  · exact (exists_xTaskCreate.1 hj).resolve_right (h j)
  · show (s.tasks ++ [TaskPc.check])[s.tasks.length]? ≠ some .deleteSelf
    rw [List.getElem?_concat_length]
    nofun

/-- When the watched task is deleted, none is left. -/
lemma noTask_vTaskDelete (hk : s.Exists k) (honly : ∀ j, s.Exists j → j = k) :
    NoTask (vTaskDelete s k) := by
  intro j hj
  obtain ⟨hne, hj'⟩ := (exists_vTaskDelete hk).1 hj
  exact hne (honly j hj')

/-- **A step of the client** keeps the ledger and the invariant. -/
lemma CallerInv.caller_step {e : CallerEvent} (hl : Ledgered s) (h : CallerInv s)
    (hs : step s (.caller e) = some u) : Ledgered u ∧ CallerInv u := by
  unfold CallerInv at h
  simp only [step] at hs
  cases hc : s.caller with
  | idle returned statusCode =>
    rw [hc] at h hs
    cases e with
    | command arg =>
      simp only [callerStep] at hs
      split at hs
      · obtain rfl := Option.some.inj hs
        refine ⟨hl.congr rfl rfl, ?_⟩
        rcases h with ⟨hrun, hsh, -, hw⟩ | ⟨hrun, hnone⟩
        · rw [if_pos hrun]
          exact .inl ⟨hrun, hsh, by decide, hw⟩
        · rw [if_neg (by simp [hrun])]
          exact hnone
      · obtain rfl := Option.some.inj hs
        refine ⟨hl.congr rfl rfl, ?_⟩
        rcases h with ⟨hrun, hsh, -, hw⟩ | ⟨hrun, hnone⟩
        · rw [if_pos hrun]
          exact ⟨hsh, hw⟩
        · rw [if_neg (by simp [hrun])]
          exact .inr ⟨hrun, hnone⟩
    | next created => cases hs
  | startClear =>
    rw [hc] at h hs
    cases e with
    | next created => cases hs; exact ⟨hl.congr rfl rfl, h⟩
    | command arg => cases hs
  | startShouldRun =>
    rw [hc] at h hs
    cases e with
    | next created => cases hs; exact ⟨hl.congr rfl rfl, rfl, h⟩
    | command arg => cases hs
  | startCreate =>
    rw [hc] at h hs
    cases e with
    | next created =>
      cases created with
      | true =>
        cases hs
        have hcreate := hl.create
        exact ⟨hcreate.congr rfl rfl, h.1, watched_xTaskCreate h.2⟩
      | false => cases hs; exact ⟨hl.congr rfl rfl, h.2⟩
    | command arg => cases hs
  | startShouldRunAgain =>
    rw [hc] at h hs
    cases e with
    | next created =>
      cases hs
      obtain ⟨hsh, k, hid, hk, honly, hloop⟩ := h
      exact ⟨hl.congr rfl rfl, rfl, k, hid, hk, honly, fun _ => hloop hsh⟩
    | command arg => cases hs
  | startIsRunning =>
    rw [hc] at h hs
    cases e with
    | next created =>
      cases hs
      exact ⟨hl.congr rfl rfl, .inl ⟨rfl, h.1, nofun, h.2⟩⟩
    | command arg => cases hs
  | failIsRunning =>
    rw [hc] at h hs
    cases e with
    | next created => cases hs; exact ⟨hl.congr rfl rfl, rfl, h⟩
    | command arg => cases hs
  | failShouldRun =>
    rw [hc] at h hs
    cases e with
    | next created => cases hs; exact ⟨hl.congr rfl rfl, .inr h⟩
    | command arg => cases hs
  | stopShouldRun =>
    rw [hc] at h hs
    cases e with
    | next created =>
      cases hs
      obtain ⟨-, k, hid, hk, honly, -⟩ := h
      exact ⟨hl.congr rfl rfl, rfl, k, hid, hk, honly, nofun⟩
    | command arg => cases hs
  | stopIsRunning =>
    rw [hc] at h hs
    cases e with
    | next created => cases hs; exact ⟨hl.congr rfl rfl, h.1, rfl, h.2⟩
    | command arg => cases hs
  | stopDelete =>
    rw [hc] at h hs
    cases e with
    | next created =>
      obtain ⟨-, hrun, k, hid, hk, honly, -⟩ := h
      simp only [callerStep, hid] at hs
      obtain rfl := Option.some.inj hs
      have hdelete := hl.delete hk
      refine ⟨hdelete.congr rfl rfl, .inr ⟨hrun, ?_⟩⟩
      exact noTask_vTaskDelete hk honly
    | command arg => cases hs
  | deleted =>
    rw [hc] at h
    exact h.elim

end Invariant

/-! ## Main results -/

section Main

variable {s u : State} {tr : List Event} {k : ℕ}

lemma ledgered_init : Ledgered init := by
  refine ⟨⟨[], rfl, fun k => ?_⟩, fun k => ?_, fun k _ => ?_⟩
  · simp [State.Exists, init]
  · simp [init]
  · simp [init]

lemma callerInv_init : CallerInv init := by
  refine .inr ⟨rfl, fun k hk => ?_⟩
  simp [State.Exists, init] at hk

/-- A run of steps with `Waiting` keeps the ledger and the invariant. -/
lemma inv_of_waiting (hwait : Transition.Always step Waiting init tr)
    (hrun : Transition.run step init tr = some s) : Ledgered s ∧ CallerInv s := by
  refine Transition.run_of_always (I := fun s => Ledgered s ∧ CallerInv s)
    ⟨ledgered_init, callerInv_init⟩ ?_ hwait hrun
  rintro s e u ⟨hl, h⟩ hwait hs
  cases e with
  | caller e => exact h.caller_step hl hs
  | task k => exact ⟨hl.task_step hs, h.task_step hwait hs⟩

/-- The deletions are right wherever the ledger and the invariant hold. -/
lemma DeletesOnce.of_inv (hl : Ledgered s) (h : CallerInv s) : DeletesOnce s := by
  refine ⟨hl.once, fun before k after hops => ?_, fun statusCode hc pc hpc => ?_⟩
  · obtain ⟨l, hlegal, -⟩ := hl.legal
    rw [hops] at hlegal
    exact Ledger.exists_held_of_release hlegal
  · unfold CallerInv at h
    rw [hc] at h
    rcases h with ⟨-, -, hret, -⟩ | ⟨-, hnone⟩
    · exact absurd rfl hret
    · obtain ⟨k, hk⟩ := List.getElem?_of_mem hpc
      by_contra hne
      exact hnone k ⟨pc, hk, hne⟩

/-- **The monitor of FreeRTOS.** In every run in which no task executes its own `vTaskDelete` while
Stop is between its store to `should_run` and its `vTaskDelete`, every task is deleted at most once
and while it exists, and none is left when Stop returns.

**Proof sketch.** At each point of the client the task behind the handle is the only one that
exists, or there is none; the ledger of creations and deletions holds the tasks that exist. -/
theorem deletesOnce_of_waiting (hwait : Transition.Always step Waiting init tr)
    (hrun : Transition.run step init tr = some s) : DeletesOnce s := by
  obtain ⟨hl, h⟩ := inv_of_waiting hwait hrun
  exact DeletesOnce.of_inv hl h

/-- Two deletions of a task are one too many. -/
lemma not_deletesOnce_of_two {ops : List (Ledger.Op ℕ)}
    (h : s.ops = ops ++ [.release k, .release k]) : ¬DeletesOnce s := by
  intro honce
  have htwo := honce.once k
  rw [h, List.count_append] at htwo
  simp at htwo

/-- After the first step without `Waiting` Stop deletes the task a second time. -/
theorem not_deletesOnce_of_race (hwait : Transition.Always step Waiting init tr)
    (hrun : Transition.run step init tr = some s) (hself : s.tasks[k]? = some .deleteSelf)
    (hcaller : s.caller = .stopIsRunning ∨ s.caller = .stopDelete) :
    ∃ tr' u, Transition.run step s (.task k :: tr') = some u ∧ ¬DeletesOnce u := by
  have hinv := (inv_of_waiting hwait hrun).2
  have hk : s.Exists k := ⟨.deleteSelf, hself, nofun⟩
  have htask : step s (.task k) = some (vTaskDelete s k) := by simp [step, hself, taskStep]
  have hid : s.taskId = some k := by
    unfold CallerInv at hinv
    rcases hcaller with hc | hc
    · rw [hc] at hinv
      obtain ⟨-, w, hid, -, honly, -⟩ := hinv
      rw [hid, honly k hk]
    · rw [hc] at hinv
      obtain ⟨-, -, w, hid, -, honly, -⟩ := hinv
      rw [hid, honly k hk]
  -- the last assignments of Stop
  have hdelete : ∀ v : State, v.caller = .stopDelete → v.taskId = some k →
      step v (.caller (.next true)) =
        some { vTaskDelete v k with caller := .idle (some .stop) Status.success } := by
    intro v hc hv
    simp only [step, hc, callerStep, hv]
  rcases hcaller with hc | hc
  · have hnext : step (vTaskDelete s k) (.caller (.next true)) =
        some { vTaskDelete s k with caller := .stopDelete, isRunning := false } := by
      have hc' : (vTaskDelete s k).caller = .stopIsRunning := hc
      simp only [step, hc', callerStep]
    have hlast := hdelete { vTaskDelete s k with caller := .stopDelete, isRunning := false } rfl hid
    refine ⟨[.caller (.next true), .caller (.next true)], _, Transition.run_cons.2 ⟨_, htask,
      Transition.run_cons.2 ⟨_, hnext, Transition.run_cons.2 ⟨_, hlast, rfl⟩⟩⟩, ?_⟩
    exact not_deletesOnce_of_two (List.append_assoc s.ops [.release k] [.release k])
  · refine ⟨[.caller (.next true)], _, Transition.run_cons.2 ⟨_, htask, Transition.run_cons.2
      ⟨_, hdelete _ hc hid, rfl⟩⟩, ?_⟩
    exact not_deletesOnce_of_two (List.append_assoc s.ops [.release k] [.release k])

end Main

/-- A start, two rounds of the task, and a stop, with the task in its delay. -/
def cleanStop : List Event :=
  .caller (.command 1) :: List.replicate 5 (.caller (.next true)) ++
    [.task 0, .task 0, .task 0, .task 0, .caller (.command 0), .caller (.next true),
      .caller (.next true), .caller (.next true)]

/-- Then the task is deleted once. -/
theorem deletesOnce_of_cleanStop :
    ∃ s, Transition.run step init cleanStop = some s ∧ s.ops = [.acquire 0, .release 0] ∧
      DeletesOnce s := by
  have hrun : Transition.run step init cleanStop = some _ := rfl
  exact ⟨_, hrun, rfl, deletesOnce_of_waiting (by decide) hrun⟩

/-- A start and a stop, with the task at the test of its loop when `should_run` is cleared. -/
def racingStop : List Event :=
  .caller (.command 1) :: List.replicate 5 (.caller (.next true)) ++
    [.caller (.command 0), .caller (.next true), .task 0, .task 0, .caller (.next true),
      .caller (.next true)]

/-- Then the task deletes itself, and Stop deletes it again. -/
theorem not_deletesOnce_of_racingStop :
    ∃ s, Transition.run step init racingStop = some s ∧
      s.ops = [.acquire 0, .release 0, .release 0] ∧ ¬DeletesOnce s := by
  refine ⟨_, rfl, rfl, fun h => ?_⟩
  have honce := h.once 0
  revert honce
  decide

end CfePsp.Sysmon.Freertos
