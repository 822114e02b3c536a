import CfePsp.Exception.Context
import CfePsp.PcLinux.Boot

set_option relaxedAutoImplicit false
set_option autoImplicit false

/-!
# The exception log of the Linux port

The exception log lies in the shared memory of the reset area, which outlives the process. A handler
that logs an exception is taken store by store, on any thread, and the process may end between any
two of the stores.

## Main definitions

* `CfePsp.PcLinux.ExceptionLog.StorageLayout` — the reserved memory, with the bytes of
  `CFE_PSP_ExceptionStorage_t`.
* `CfePsp.PcLinux.ExceptionLog.step` — the boot cycle together with the exception log.
* `CfePsp.PcLinux.ExceptionLog.Event.Alone` — no handler starts while another thread is in one.
* `CfePsp.PcLinux.ExceptionLog.History` — what was logged since the last power-on reset.
* `CfePsp.PcLinux.ExceptionLog.LogInv` — the storage agrees with the history.
* `CfePsp.PcLinux.ExceptionLog.ActiveInv` — what the handler at the log relies on.

## Main results

* `CfePsp.PcLinux.ExceptionLog.run_handler` — the steps of a handler that nothing disturbs are
  `CfePsp.Exception.exceptionHandler`.
* `CfePsp.PcLinux.ExceptionLog.LogInv.countWritten` — the first store of `WriteComplete` commits the
  capture in the buffer.
* `CfePsp.PcLinux.ExceptionLog.LogInv.pending` — what a `GetSummary` finds.

## Design

The storage is the structure of `CfePsp.Exception.Storage`, and the stores that clear it byte by
byte act on it through the layout; the bytes of the boot cycle's own copy of the area stay unused.
In the middle of a `memset`, and of the stores to the fields of a buffer, the buffer may hold
anything. `GetSummary` is one step; `CfePsp.Exception.Interleaving` takes it apart.

A handler that interrupts another one on its thread is that of a synchronous signal, and never
returns to it (see `CfePsp.PcLinux.SignalHandlers`); the interrupted one is left where it is. Two
threads that are in the handler at once get the same buffer, which the comment in the handler leaves
unhandled: these runs are in the model, but the results are about the others.
-/

namespace CfePsp.PcLinux.ExceptionLog

open Transition
open CfePsp.Exception (Capture Config LogData Storage SummaryArgs SummaryExternals SummaryOut
  seqBuffer)

/-- The layout of the reserved memory, with what clearing a byte of
`CFE_PSP_ExceptionStorage_t` does to the structure: cleared from its first byte to its last, it is
zero. -/
structure StorageLayout (c : Config) (τ : Type) [Zero τ] extends Layout where
  clearByte : Storage c τ → ℕ → Storage c τ
  clear_all : ∀ s, (List.range exceptionSize).foldl clearByte s = 0

variable {c : Config} {τ ι : Type}

/-! ## The steps -/

/-- How far the handler on a thread has come, from the test of
`CFE_PSP_Exception_GetNextContextBuffer` to the end of `CFE_PSP_Exception_WriteComplete`. -/
inductive Activation (c : Config)
  /-- In the `memset` of its buffer, with the `NextWrite` that it loaded. -/
  | clearing (buffer : Fin c.maxEntries) (nextWrite : Uint32)
  /-- The buffer has its id. -/
  | filling (buffer : Fin c.maxEntries)
  /-- Between the two stores of `CFE_PSP_Exception_WriteComplete`. -/
  | expiring

section System

variable (c τ ι)

/-- The boot cycle and the exception log; `ι` are the threads of a session. -/
structure Sys where
  boot : PcLinux.Sys
  storage : Storage c τ
  /-- `CFE_PSP_AttachExceptions` has attached the handlers. -/
  handlers : Bool
  /-- The `NumWritten` that `CFE_PSP_Exception_Reset` has loaded and not yet stored. -/
  loaded : Option Uint32
  /-- `CFE_PSP_AttachExceptions` has returned. -/
  attached : Bool
  /-- The latest handler on each thread, while it is at the log. -/
  active : ι → Option (Activation c)

/-- The steps of the boot cycle and of the exception log. -/
inductive Event
  | boot (e : PcLinux.Event)
  /-- `CFE_PSP_AttachExceptions` attaches the handlers. -/
  | attachSigHandler
  /-- `CFE_PSP_Exception_Reset` loads `NumWritten`. -/
  | loadNumWritten
  /-- `CFE_PSP_Exception_Reset` stores to `NumRead`. -/
  | storeNumRead
  /-- A handler on the thread `t` finds room in `CFE_PSP_Exception_GetNextContextBuffer`, or
  not. -/
  | getNextContextBuffer (t : ι) (stored : Bool)
  /-- `memset` stores to the buffer. -/
  | memset (t : ι) (d : LogData c τ)
  /-- `memset` is done, and the id is stored. -/
  | storeContextId (t : ι)
  /-- The handler stores to the other fields of its buffer. -/
  | fill (t : ι) (d : LogData c τ)
  /-- `CFE_PSP_Exception_WriteComplete` stores to `NumWritten`; the buffer holds `f`. -/
  | countWritten (t : ι) (f : Capture c τ)
  /-- `CFE_PSP_Exception_WriteComplete` stores to the id of the next entry. -/
  | expireNext (t : ι)
  /-- `CFE_PSP_Exception_GetSummary`, with what the calls out of it return for an entry, its return
  code and its outputs. -/
  | getSummary (a : SummaryArgs) (x : LogData c τ → SummaryExternals) (ret : ℤ) (out : SummaryOut)

end System

/-- The byte of the exception log that the store clears. -/
def exceptionByte? : Store → Option ℕ
  | .clearArea .exception i => some i
  | _ => none

/-- The session is running. -/
def isRunning : Phase → Bool
  | .running _ => true
  | _ => false

/-- The process ends. -/
def endsProcess : PcLinux.Event → Bool
  | .restart _ | .crash => true
  | _ => false

/-- The application stores to the exception log itself, which only the functions of the log do. -/
def storesLog : PcLinux.Event → Bool
  | .storeArea .exception _ _ => true
  | _ => false

/-- The first store of `CFE_PSP_Exception_WriteComplete`. -/
def countWritten (s : Storage c τ) : Storage c τ := { s with numWritten := s.numWritten + 1 }

/-- The second store of `CFE_PSP_Exception_WriteComplete`. -/
def expireNext (s : Storage c τ) : Storage c τ :=
  let buffer := Exception.getBuffer c s.numWritten
  s.setEntry buffer { s.entries buffer with contextId := 0 }

/-- The two stores are `CFE_PSP_Exception_WriteComplete`. -/
lemma expireNext_countWritten (s : Storage c τ) :
    expireNext (countWritten s) = Exception.writeComplete s := rfl

section Steps

variable [Zero τ]

/-- What a step of the boot cycle does to the exception log: the initialisation may clear a byte of
it, and a restart with a power-on reset removes the segment it is in. -/
def storageAfter (l : StorageLayout c τ) (s : Sys c τ ι) : PcLinux.Event → Storage c τ
  | .store =>
      match s.boot.phase with
      | .initialising _ _ (st :: _) => (exceptionByte? st).elim s.storage (l.clearByte s.storage)
      | _ => s.storage
  | .restart t => if t = rstTypePoweron then 0 else s.storage
  | _ => s.storage

/-- What a step of the boot cycle does to the system: the end of the process is the end of its
handlers. -/
def bootStep (l : StorageLayout c τ) (s : Sys c τ ι) (e : PcLinux.Event) (boot : PcLinux.Sys) :
    Sys c τ ι where
  boot := boot
  storage := storageAfter l s e
  handlers := s.handlers && !endsProcess e
  loaded := if endsProcess e then none else s.loaded
  attached := s.attached && !endsProcess e
  active := if endsProcess e then fun _ => none else s.active

variable [DecidableEq τ] [DecidableEq ι]

/-- One step. -/
def step (l : StorageLayout c τ) (s : Sys c τ ι) : Event c τ ι → Option (Sys c τ ι)
  | .boot e =>
      if storesLog e then none else (PcLinux.step l.toLayout s.boot e).map (bootStep l s e)
  | .attachSigHandler =>
      if isRunning s.boot.phase then some { s with handlers := true } else none
  | .loadNumWritten =>
      if s.handlers then some { s with loaded := some s.storage.numWritten, attached := false }
      else none
  | .storeNumRead =>
      match s.loaded with
      | some numWritten =>
          some { s with
            storage := { s.storage with numRead := numWritten }
            loaded := none
            attached := true }
      | none => none
  | .getNextContextBuffer t stored =>
      let buffer := (Exception.getNextContextBuffer s.storage).1
      if s.handlers = true ∧ buffer.isSome = stored then
        some { s with
          active := Function.update s.active t
            (buffer.map (Activation.clearing · s.storage.numWritten)) }
      else none
  | .memset t d =>
      match s.active t with
      | some (.clearing b _) => some { s with storage := s.storage.setEntry b d }
      | _ => none
  | .storeContextId t =>
      match s.active t with
      | some (.clearing b nextWrite) =>
          some { s with
            storage := s.storage.setEntry b
              { (0 : LogData c τ) with contextId := c.entryId nextWrite }
            active := Function.update s.active t (some (.filling b)) }
      | _ => none
  | .fill t d =>
      match s.active t with
      | some (.filling b) =>
          if d.contextId = (s.storage.entries b).contextId then
            some { s with storage := s.storage.setEntry b d }
          else none
      | _ => none
  | .countWritten t f =>
      match s.active t with
      | some (.filling b) =>
          if (s.storage.entries b).Holds f then
            some { s with
              storage := countWritten s.storage
              active := Function.update s.active t (some .expiring) }
          else none
      | _ => none
  | .expireNext t =>
      match s.active t with
      | some .expiring =>
          some { s with
            storage := expireNext s.storage
            active := Function.update s.active t none }
      | _ => none
  | .getSummary a x ret out =>
      -- the main task, which resets the log, has not started the other threads yet
      if isRunning s.boot.phase = true ∧ s.loaded = none then
        let result := Exception.getSummary a
          (x (s.storage.entries (Exception.getBuffer c s.storage.numRead))) s.storage
        if result.1 = ret ∧ result.2.1 = out then some { s with storage := result.2.2 } else none
      else none

end Steps

/-- No handler gets a buffer while another thread is in a handler. -/
def Event.Alone (s : Sys c τ ι) : Event c τ ι → Prop
  | .getNextContextBuffer t true => ∀ u, u ≠ t → s.active u = none
  | _ => True

instance [Fintype ι] [DecidableEq ι] (s : Sys c τ ι) : (e : Event c τ ι) → Decidable (e.Alone s)
  | .getNextContextBuffer t true => inferInstanceAs (Decidable (∀ u, u ≠ t → s.active u = none))
  | .getNextContextBuffer _ false | .boot _ | .attachSigHandler | .loadNumWritten | .storeNumRead
  | .memset .. | .storeContextId _ | .fill .. | .countWritten .. | .expireNext _
  | .getSummary .. => isTrue trivial

/-- The event is not a boot with a command line option. -/
def Event.NoOption : Event c τ ι → Prop
  | .boot e => e.NoOption
  | _ => True

section Handler

variable [Zero τ] [DecidableEq τ] [DecidableEq ι] {l : StorageLayout c τ} {s : Sys c τ ι}

/-- **A handler that nothing disturbs.** When there is room, its steps in a row are a complete
activation of the handler. -/
theorem run_handler (hhandlers : s.handlers = true) (t : ι) (f : Capture c τ)
    (hroom : ¬BitVec.ofNat 32 c.maxEntries ≤ Exception.getCount s.storage) :
    run (step l) s [.getNextContextBuffer t true, .memset t 0, .storeContextId t,
        .fill t (f.toLogData (c.entryId s.storage.numWritten)), .countWritten t f, .expireNext t] =
      some { s with
        storage := Exception.exceptionHandler f s.storage
        active := Function.update s.active t none } := by
  have hnext : (Exception.getNextContextBuffer s.storage).1 =
      some (Exception.getBuffer c s.storage.numWritten) :=
    congrArg Prod.fst (if_neg hroom)
  have hid : (f.toLogData (c.entryId s.storage.numWritten)).contextId =
      c.entryId s.storage.numWritten := rfl
  have hheld : (f.toLogData (c.entryId s.storage.numWritten)).Holds f := ⟨rfl, rfl, rfl⟩
  have hset : ∀ (b : Fin c.maxEntries) (d d' : LogData c τ),
      (s.storage.setEntry b d).setEntry b d' = s.storage.setEntry b d' := fun b d d' => by
    simp [Storage.setEntry]
  rw [Exception.exceptionHandler_of_room f hroom, ← expireNext_countWritten]
  simp only [run, List.foldlM_cons, List.foldlM_nil, step, hhandlers, hnext, Option.isSome_some,
    and_self, if_true, Option.map_some, Option.bind_eq_bind, Option.bind_some,
    Function.update_self, Function.update_idem, hset, Exception.setEntry_entries_self, hid,
    if_pos hheld, Option.pure_def]

end Handler

/-! ## The history -/

variable (c τ) in
/-- A call of `CFE_PSP_Exception_GetSummary` that succeeded. -/
structure Summary where
  args : SummaryArgs
  externals : LogData c τ → SummaryExternals
  out : SummaryOut

/-- The outputs of a `CFE_PSP_Exception_GetSummary` that finds the entry `d`. -/
def summaryOut (a : SummaryArgs) (x : LogData c τ → SummaryExternals) (d : LogData c τ) :
    SummaryOut where
  contextLogId := if a.contextLogId then some d.contextId else none
  taskId := if a.taskId then some ((x d).foundTask.getD osObjectIdUndefined) else none
  reason := if a.reasonBuf && decide (0 < a.reasonSize) then some ((x d).summary.getD "") else none

variable (c τ) in
/-- What was logged since the last power-on reset. -/
structure History where
  /-- The captures that were committed before the last session discarded what was pending, oldest
  first. -/
  earlier : List (Capture c τ)
  /-- The captures that were committed after that. -/
  current : List (Capture c τ)
  /-- The successful calls of `GetSummary` after that. -/
  summaries : List (Summary c τ)
  /-- How many of all captures have been reported or discarded. -/
  consumed : ℕ

/-- The history after a power-on reset. -/
instance : Zero (History c τ) := ⟨⟨[], [], [], 0⟩⟩

/-- The captures of all sessions. -/
def History.log (h : History c τ) : List (Capture c τ) := h.earlier ++ h.current

/-- What comes next belongs to a new session. -/
def History.divide (h : History c τ) : History c τ :=
  { h with earlier := h.log, current := [], summaries := [] }

/-- The history after one more event. -/
def History.step (h : History c τ) : Event c τ ι → History c τ
  | .boot (.boot _ t) => if t = rstTypePoweron then 0 else h.divide
  | .loadNumWritten => h.divide
  | .storeNumRead => { h with consumed := h.earlier.length }
  | .countWritten _ f => { h with current := h.current ++ [f] }
  | .getSummary a x ret out =>
      if ret = Status.success then
        { h with consumed := h.consumed + 1, summaries := h.summaries ++ [⟨a, x, out⟩] }
      else h
  | .boot _ | .attachSigHandler | .getNextContextBuffer .. | .memset .. | .storeContextId _
  | .fill .. | .expireNext _ => h

/-- The history of a run. -/
def history (tr : List (Event c τ ι)) : History c τ := tr.foldl History.step 0

lemma history_concat (tr : List (Event c τ ι)) (e : Event c τ ι) :
    history (tr ++ [e]) = (history tr).step e := by
  simp [history]

/-- A commit appends to the captures. -/
@[simp] lemma History.log_countWritten (h : History c τ) (t : ι) (f : Capture c τ) :
    (h.step (.countWritten t f)).log = h.log ++ [f] :=
  (List.append_assoc _ _ _).symm

/-- A new session starts with the captures of the last. -/
@[simp] lemma History.log_divide (h : History c τ) : h.divide.log = h.log :=
  List.append_nil _

lemma History.length_log (h : History c τ) : h.log.length = h.earlier.length + h.current.length :=
  List.length_append

/-- The call reported the exception `k` of the session: its outputs are those for an entry with what
was captured, and with the id of the exception. The id may be zero if a full ring of exceptions
followed before the call. -/
def Summary.Reports (call : Summary c τ) (h : History c τ) (k : ℕ) : Prop :=
  ∃ f id, h.current[k]? = some f ∧
    (id = c.entryId (BitVec.ofNat 32 (h.earlier.length + k)) ∨
      id = 0 ∧ k + c.maxEntries ≤ h.current.length) ∧
    call.out = summaryOut call.args call.externals (f.toLogData id)

/-- More exceptions change nothing about a call. -/
lemma Summary.Reports.countWritten {call : Summary c τ} {h : History c τ} {k : ℕ}
    (hcall : call.Reports h k) (t : ι) (f : Capture c τ) :
    call.Reports (h.step (.countWritten t f)) k := by
  obtain ⟨g, id, hg, hid, hout⟩ := hcall
  have hlength : (h.current ++ [f]).length = h.current.length + 1 := by simp
  refine ⟨g, id, ?_, hid.imp_right fun ⟨hzero, hfull⟩ => ⟨hzero, ?_⟩, hout⟩
  · exact (List.getElem?_append_left (List.getElem?_eq_some_iff.1 hg).1).trans hg
  · exact hfull.trans (by rw [History.step, hlength]; exact Nat.le_succ _)

/-! ## The log invariant -/

/-- **The log invariant**: the storage holds the captures `log`, of which `consumed` are
reported or discarded. An entry keeps what was captured until its slot is filled in again, and its
id until the slot is the one written next; then it may have been expired. -/
structure LogInv (log : List (Capture c τ)) (consumed : ℕ) (s : Storage c τ) : Prop where
  numWritten : s.numWritten = BitVec.ofNat 32 log.length
  numRead : s.numRead = BitVec.ofNat 32 consumed
  consumed_le : consumed ≤ log.length
  room : log.length ≤ consumed + c.maxEntries
  held : ∀ i f, log[i]? = some f → log.length < i + c.maxEntries ∨ consumed ≤ i →
    (s.entries (seqBuffer c i)).Holds f
  live : ∀ i, i < log.length → log.length < i + c.maxEntries →
    (s.entries (seqBuffer c i)).contextId = c.entryId (BitVec.ofNat 32 i)
  oldest : log.length = consumed + c.maxEntries →
    (s.entries (seqBuffer c consumed)).contextId = c.entryId (BitVec.ofNat 32 consumed) ∨
      (s.entries (seqBuffer c consumed)).contextId = 0

section Log

variable {log : List (Capture c τ)} {consumed n : ℕ} {s : Storage c τ}

/-- Zeroed storage has an empty history. -/
lemma LogInv.zero [Zero τ] : LogInv [] 0 (0 : Storage c τ) where
  numWritten := rfl
  numRead := rfl
  consumed_le := le_rfl
  room := Nat.zero_le _
  held := fun i f hi => absurd hi (by simp)
  live := fun i hi => absurd hi (Nat.not_lt_zero i)
  oldest := fun _ => .inr rfl

/-- `GetCount` is the number of captures not consumed. -/
lemma LogInv.getCount_toNat (hs : LogInv log consumed s) :
    (Exception.getCount s).toNat = log.length - consumed := by
  have hcap := c.maxEntries_le
  have hroom := hs.room
  have hdone := hs.consumed_le
  rw [Exception.getCount, hs.numWritten, hs.numRead, Window.toNat_ofNat_sub_ofNat hdone (by omega)]

/-- `GetSummary` finds the log empty exactly when everything is consumed. -/
lemma LogInv.getCount_eq_zero (hs : LogInv log consumed s) :
    Exception.getCount s = 0 ↔ consumed = log.length := by
  have hdone := hs.consumed_le
  have hzero : (0 : Uint32).toNat = 0 := rfl
  rw [← BitVec.toNat_inj, hs.getCount_toNat, hzero]
  omega

/-- A handler that gets a buffer gets the next one, and finds room for an entry. -/
lemma LogInv.getNextContextBuffer [Zero τ] (hs : LogInv log consumed s) {b : Fin c.maxEntries}
    (hb : (Exception.getNextContextBuffer s).1 = some b) :
    b = seqBuffer c log.length ∧ log.length < consumed + c.maxEntries := by
  have hcap := c.maxEntries_le
  have hroom := hs.room
  have hdone := hs.consumed_le
  have hfree : ¬BitVec.ofNat 32 c.maxEntries ≤ Exception.getCount s := by
    rw [← Exception.getNextContextBuffer_eq_none, hb]
    exact Option.some_ne_none b
  have hnext : (Exception.getNextContextBuffer s).1 = some (Exception.getBuffer c s.numWritten) :=
    congrArg Prod.fst (if_neg hfree)
  constructor
  · rw [seqBuffer, ← hs.numWritten]
    exact Option.some.inj (hb.symm.trans hnext)
  · rw [BitVec.le_def, hs.getCount_toNat, BitVec.toNat_ofNat, Nat.mod_eq_of_lt (by omega)] at hfree
    omega

/-- A slot that an entry of the last ring occupies is not the one written next. -/
lemma LogInv.seqBuffer_ne_next {i : ℕ} (hi : i < log.length)
    (hroom : log.length < consumed + c.maxEntries)
    (hwin : log.length < i + c.maxEntries ∨ consumed ≤ i) :
    seqBuffer c i ≠ seqBuffer c log.length :=
  Exception.seqBuffer_ne hi (by omega)

/-- What is stored to the slot written next changes nothing, as long as there is room. -/
lemma LogInv.setEntry (hs : LogInv log consumed s) (hroom : log.length < consumed + c.maxEntries)
    (d : LogData c τ) : LogInv log consumed (s.setEntry (seqBuffer c log.length) d) where
  numWritten := hs.numWritten
  numRead := hs.numRead
  consumed_le := hs.consumed_le
  room := hs.room
  held := by
    intro i f hi hwin
    have hlt : i < log.length := (List.getElem?_eq_some_iff.1 hi).1
    rw [Exception.setEntry_entries_of_ne _ _ (seqBuffer_ne_next hlt hroom hwin)]
    exact hs.held i f hi hwin
  live := by
    intro i hi hwin
    rw [Exception.setEntry_entries_of_ne _ _ (seqBuffer_ne_next hi hroom (.inl hwin))]
    exact hs.live i hi hwin
  oldest := fun hfull => absurd hfull hroom.ne

/-- The store to `NumWritten` commits the capture in the buffer. -/
lemma LogInv.countWritten (hs : LogInv log consumed s)
    (hroom : log.length < consumed + c.maxEntries) {f : Capture c τ}
    (hf : (s.entries (seqBuffer c log.length)).Holds f)
    (hid : (s.entries (seqBuffer c log.length)).contextId =
      c.entryId (BitVec.ofNat 32 log.length)) :
    LogInv (log ++ [f]) consumed (countWritten s) := by
  have hdone := hs.consumed_le
  have hlen : (log ++ [f]).length = log.length + 1 := by simp
  have hlive : ∀ i, i < log.length + 1 → log.length < i + c.maxEntries →
      (s.entries (seqBuffer c i)).contextId = c.entryId (BitVec.ofNat 32 i) := by
    intro i hi hwin
    rcases Nat.lt_or_ge i log.length with hlt | hge
    · exact hs.live i hlt hwin
    · obtain rfl : i = log.length := by omega
      exact hid
  refine ⟨?_, hs.numRead, ?_, ?_, ?_, ?_, ?_⟩
  · rw [hlen, BitVec.ofNat_add log.length 1, ← hs.numWritten]
    rfl
  · omega
  · omega
  · intro i g hi hwin
    rw [hlen] at hwin
    rcases Nat.lt_or_ge i log.length with hlt | hge
    · have hi' : log[i]? = some g := by
        simpa [List.getElem?_append_left hlt] using hi
      exact hs.held i g hi' (hwin.imp (fun hwin => by omega) id)
    · have hlt : i < (log ++ [f]).length := (List.getElem?_eq_some_iff.1 hi).1
      obtain rfl : i = log.length := by omega
      obtain rfl : f = g := by simpa using hi
      exact hf
  · intro i hi hwin
    exact hlive i (by omega) (by omega)
  · intro hfull
    exact .inl (hlive consumed (by omega) (by omega))

/-- The store to the id of the next slot takes an id away only from an entry a full ring old. -/
lemma LogInv.expireNext (hs : LogInv log consumed s) :
    LogInv log consumed (expireNext s) := by
  have hslot : Exception.getBuffer c s.numWritten = seqBuffer c log.length := by
    rw [hs.numWritten, seqBuffer]
  have hafter : ∀ b, b ≠ seqBuffer c log.length →
      (ExceptionLog.expireNext s).entries b = s.entries b := fun b hb =>
    Exception.setEntry_entries_of_ne _ _ (hslot ▸ hb)
  have hnext : (ExceptionLog.expireNext s).entries (seqBuffer c log.length) =
      { s.entries (seqBuffer c log.length) with contextId := 0 } := by
    rw [← hslot]
    exact Exception.setEntry_entries_self _ _ _
  refine ⟨hs.numWritten, hs.numRead, hs.consumed_le, hs.room, ?_, ?_, ?_⟩
  · intro i f hi hwin
    have hheld := hs.held i f hi hwin
    by_cases hb : seqBuffer c i = seqBuffer c log.length
    · rw [hb] at hheld ⊢
      rw [hnext]
      exact hheld
    · rwa [hafter _ hb]
  · intro i hi hwin
    rw [hafter _ (Exception.seqBuffer_ne hi hwin)]
    exact hs.live i hi hwin
  · intro hfull
    by_cases hb : seqBuffer c consumed = seqBuffer c log.length
    · rw [hb, hnext]
      exact .inr rfl
    · rw [hafter _ hb]
      exact hs.oldest hfull

/-- More entries are reported or discarded. -/
lemma LogInv.consume (hs : LogInv log consumed s) (hn : consumed ≤ n) (hle : n ≤ log.length) :
    LogInv log n { s with numRead := BitVec.ofNat 32 n } where
  numWritten := hs.numWritten
  numRead := rfl
  consumed_le := hle
  room := hs.room.trans (Nat.add_le_add_right hn _)
  held := fun i f hi hwin => hs.held i f hi (hwin.imp_right hn.trans)
  live := hs.live
  oldest := fun hfull => by
    have hroom := hs.room
    obtain rfl : consumed = n := by omega
    exact hs.oldest hfull

/-- What a `GetSummary` finds when something is pending: the oldest entry, with its id or, when the
ring is full, with an id of zero. -/
lemma LogInv.pending (hs : LogInv log consumed s) (hlt : consumed < log.length) :
    ∃ f id, log[consumed]? = some f ∧
      (id = c.entryId (BitVec.ofNat 32 consumed) ∨
        id = 0 ∧ log.length = consumed + c.maxEntries) ∧
      s.entries (Exception.getBuffer c s.numRead) = f.toLogData id := by
  have hslot : Exception.getBuffer c s.numRead = seqBuffer c consumed := by
    rw [hs.numRead, seqBuffer]
  obtain ⟨f, hf⟩ : ∃ f, log[consumed]? = some f := ⟨_, List.getElem?_eq_getElem hlt⟩
  obtain ⟨hsize, htask, hinfo⟩ := hs.held _ f hf (.inr le_rfl)
  refine ⟨f, (s.entries (seqBuffer c consumed)).contextId, hf, ?_, ?_⟩
  · rcases Nat.lt_or_ge log.length (consumed + c.maxEntries) with hroom | hfull
    · exact .inl (hs.live consumed hlt hroom)
    · have hfull' : log.length = consumed + c.maxEntries := le_antisymm hs.room hfull
      exact (hs.oldest hfull').imp_right fun hzero => ⟨hzero, hfull'⟩
  · rw [hslot, Capture.toLogData, ← hsize, ← htask, ← hinfo]

/-- `CFE_PSP_Exception_GetSummary` with nothing pending, and with something. -/
lemma LogInv.getSummary (hs : LogInv log consumed s) (a : SummaryArgs)
    (x : LogData c τ → SummaryExternals) {d : LogData c τ}
    (hd : s.entries (Exception.getBuffer c s.numRead) = d) :
    (Exception.getSummary a (x d) s).1 ≠ Status.success ∧
        (Exception.getSummary a (x d) s).2.2 = s ∨
      consumed < log.length ∧ (Exception.getSummary a (x d) s).1 = Status.success ∧
        (Exception.getSummary a (x d) s).2.1 = summaryOut a x d ∧
        (Exception.getSummary a (x d) s).2.2 =
          { s with numRead := BitVec.ofNat 32 (consumed + 1) } := by
  by_cases hcount : Exception.getCount s = 0
  · rw [Exception.getSummary_of_empty a (x d) hcount]
    refine .inl ⟨?_, rfl⟩
    show Status.noExceptionData ≠ Status.success
    decide
  · obtain ⟨hret, -, hafter⟩ := Exception.getSummary_of_pending a (x d) hcount
    have hlt : consumed < log.length :=
      lt_of_le_of_ne hs.consumed_le (hs.getCount_eq_zero.not.1 hcount)
    have hread : s.numRead + 1 = BitVec.ofNat 32 (consumed + 1) := by
      rw [hs.numRead, BitVec.ofNat_add consumed 1]
      rfl
    refine .inr ⟨hlt, hret, ?_, ?_⟩
    · simp only [Exception.getSummary, if_neg hcount, hd, summaryOut]
    · rw [hafter, hread]

end Log

/-! ## The handlers -/

/-- What an activation relies on: it has the slot written next, and there is room for its entry. -/
def Activation.Fits (log : List (Capture c τ)) (consumed : ℕ) (s : Storage c τ) :
    Activation c → Prop
  | .clearing b nextWrite => b = seqBuffer c log.length ∧ log.length < consumed + c.maxEntries ∧
      nextWrite = BitVec.ofNat 32 log.length
  | .filling b => b = seqBuffer c log.length ∧ log.length < consumed + c.maxEntries ∧
      (s.entries b).contextId = c.entryId (BitVec.ofNat 32 log.length)
  | .expiring => True

/-- **The invariant of the handlers**: one thread at most is in a handler. -/
structure ActiveInv (log : List (Capture c τ)) (consumed : ℕ) (active : ι → Option (Activation c))
    (s : Storage c τ) : Prop where
  alone : ∀ t u, active t ≠ none → active u ≠ none → t = u
  fits : ∀ t a, active t = some a → a.Fits log consumed s

section Active

variable {log log' : List (Capture c τ)} {consumed n : ℕ} {s s' : Storage c τ}
  {active : ι → Option (Activation c)} {t : ι} {a : Activation c}

lemma ActiveInv.none : ActiveInv log consumed (fun _ : ι => none) s :=
  ⟨fun _ _ ht => absurd rfl ht, fun _ _ ha => absurd ha (Option.some_ne_none _).symm⟩

/-- While a thread is in a handler, no other one is. -/
lemma ActiveInv.idle (h : ActiveInv log consumed active s) (ht : active t = some a) (u : ι)
    (hu : u ≠ t) : active u = Option.none := by
  by_contra hactive
  exact hu (h.alone u t hactive (ht ▸ Option.some_ne_none a))

/-- More entries are reported or discarded. -/
lemma ActiveInv.consume (h : ActiveInv log consumed active s) (hn : consumed ≤ n)
    (hentries : s'.entries = s.entries) : ActiveInv log n active s' := by
  refine ⟨h.alone, fun t a ha => ?_⟩
  have hfits := h.fits t a ha
  cases a with
  | clearing b nextWrite =>
    exact ⟨hfits.1, hfits.2.1.trans_le (Nat.add_le_add_right hn _), hfits.2.2⟩
  | filling b =>
    exact ⟨hfits.1, hfits.2.1.trans_le (Nat.add_le_add_right hn _), hentries ▸ hfits.2.2⟩
  | expiring => trivial

/-- A step of the only thread that is in a handler. -/
lemma ActiveInv.update [DecidableEq ι] (hidle : ∀ u, u ≠ t → active u = Option.none)
    {o : Option (Activation c)} (ho : ∀ a, o = some a → a.Fits log consumed s) :
    ActiveInv log consumed (Function.update active t o) s := by
  have hother : ∀ u, Function.update active t o u ≠ Option.none → u = t := by
    intro u hu
    by_contra hne
    exact hu ((Function.update_of_ne hne o active).trans (hidle u hne))
  refine ⟨fun u v hu hv => (hother u hu).trans (hother v hv).symm, fun u a hu => ?_⟩
  obtain rfl := hother u (hu ▸ Option.some_ne_none a)
  exact ho a ((Function.update_self u o active).symm.trans hu)

/-- A thread leaves the handler, or starts one that does not get a buffer. -/
lemma ActiveInv.remove [DecidableEq ι] (h : ActiveInv log consumed active s) (t : ι) :
    ActiveInv log consumed (Function.update active t Option.none) s := by
  have hsame : ∀ u, Function.update active t Option.none u ≠ Option.none →
      Function.update active t Option.none u = active u := by
    intro u hu
    refine Function.update_of_ne ?_ _ _
    rintro rfl
    exact hu (Function.update_self u Option.none active)
  refine ⟨fun u v hu hv => h.alone u v (hsame u hu ▸ hu) (hsame v hv ▸ hv), fun u a ha => ?_⟩
  exact h.fits u a ((hsame u (ha ▸ Option.some_ne_none a)).symm.trans ha)

/-- The same for a step after which it is where it was. -/
lemma ActiveInv.stay [DecidableEq ι] (h : ActiveInv log consumed active s)
    (ht : active t = some a) (ha : a.Fits log' n s') : ActiveInv log' n active s' := by
  have hupdate : Function.update active t (some a) = active := by
    rw [← ht]
    exact Function.update_eq_self t active
  rw [← hupdate]
  refine ActiveInv.update (h.idle ht) fun a' ha' => ?_
  obtain rfl := Option.some.inj ha'
  exact ha

end Active

end CfePsp.PcLinux.ExceptionLog
