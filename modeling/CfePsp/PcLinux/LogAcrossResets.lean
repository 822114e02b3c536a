import CfePsp.PcLinux.ExceptionLog

set_option relaxedAutoImplicit false
set_option autoImplicit false

/-!
# The exception log across resets of the Linux port

A processor reset finds what the session before it logged. `CFE_PSP_AttachExceptions` discards what
is still pending then, but the contexts stay where they are, and the ids of the earlier session go
on fetching them.

## Main definitions

* `CfePsp.PcLinux.ExceptionLog.SessionInv` — the storage agrees with the history while a session
  runs.
* `CfePsp.PcLinux.ExceptionLog.Inv` — the same over the phases of the boot cycle.

## Main results

* `CfePsp.PcLinux.ExceptionLog.inv_of_run` — the storage of a running session agrees with the
  history of all sessions since the last power-on reset.
* `CfePsp.PcLinux.ExceptionLog.contexts_survive_resets` — the contexts of the last entries can be
  fetched in every later session up to the next power-on reset.
* `CfePsp.PcLinux.ExceptionLog.summaries_of_session` — the summaries of a session are those of its
  own exceptions, in order.
-/

namespace CfePsp.PcLinux.ExceptionLog

open Transition
open CfePsp.Exception (Capture Config LogData Storage SummaryArgs SummaryExternals seqBuffer)

variable {c : Config} {τ ι : Type}

/-! ## The initialisation -/

/-- A processor reset clears no byte of the exception log. -/
lemma exceptionByte?_processor {l : Layout} {st : Store} (h : st ∈ initStores l rstTypeProcessor) :
    exceptionByte? st = none := by
  rw [initStores_processor] at h
  simp only [List.mem_cons, List.not_mem_nil, or_false] at h
  rcases h with rfl | rfl
  all_goals rfl

/-- A power-on reset clears every byte of the exception log, from the first to the last. -/
lemma exceptionBytes_poweron (l : Layout) :
    (initStores l rstTypePoweron).filterMap exceptionByte? = List.range l.exceptionSize := by
  have hnone : ∀ (clear : ℕ → Store) (n : ℕ), (∀ i, exceptionByte? (clear i) = none) →
      (clearStores clear n).filterMap exceptionByte? = [] := by
    intro clear n hclear
    simp [clearStores, hclear]
  have hsome : (clearStores (.clearArea .exception) l.exceptionSize).filterMap exceptionByte? =
      List.range l.exceptionSize := by
    rw [clearStores, List.filterMap_map]
    exact List.filterMap_some
  have hwords : ∀ (clear : Fin 4 → Store), (∀ i, exceptionByte? (clear i) = none) →
      (l.byteOrder.map clear).filterMap exceptionByte? = [] := by
    intro clear hclear
    simp [hclear]
  simp only [initStores, if_pos, List.filterMap_append, hnone .clearCds _ fun _ => rfl,
    hnone (.clearArea .reset) _ fun _ => rfl, hnone (.clearArea .userReserved) _ fun _ => rfl,
    hwords .clearFlag fun _ => rfl, hwords .clearType fun _ => rfl, hsome, List.nil_append]
  simp [exceptionByte?]

/-! ## The invariant of a session -/

section Session

variable {s : Sys c τ ι} {h : History c τ}

/-- The session has no handlers, and has not attached any. -/
structure Sys.NoHandlers (s : Sys c τ ι) : Prop where
  handlers : s.handlers = false
  loaded : s.loaded = none
  attached : s.attached = false
  active : s.active = fun _ => none

/-- The invariant of a running session. What it has reported since it discarded the exceptions of
earlier sessions are its own, in order. -/
structure SessionInv (h : History c τ) (s : Sys c τ ι) : Prop where
  log : LogInv h.log h.consumed s.storage
  active : ActiveInv h.log h.consumed s.active s.storage
  loaded : ∀ v, s.loaded = some v →
    v = BitVec.ofNat 32 h.earlier.length ∧ h.consumed ≤ h.earlier.length ∧ h.summaries = []
  consumed : s.attached = true → h.consumed = h.earlier.length + h.summaries.length
  reports : s.attached = true →
    ∀ k (call : Summary c τ), h.summaries[k]? = some call → call.Reports h k

/-- A session starts without handlers. -/
lemma SessionInv.start (hs : s.NoHandlers) (hlog : LogInv h.log h.consumed s.storage) :
    SessionInv h s where
  log := hlog
  active := hs.active ▸ ActiveInv.none
  loaded := fun _ hv => absurd (hs.loaded.symm.trans hv) (Option.some_ne_none _).symm
  consumed := fun ha => absurd (hs.attached.symm.trans ha) Bool.false_ne_true
  reports := fun ha => absurd (hs.attached.symm.trans ha) Bool.false_ne_true

/-- The steps of a handler change the storage and the handlers only. -/
lemma SessionInv.handler (hs : SessionInv h s) {storage : Storage c τ}
    {active : ι → Option (Activation c)} (hlog : LogInv h.log h.consumed storage)
    (hactive : ActiveInv h.log h.consumed active storage) :
    SessionInv h { s with storage := storage, active := active } :=
  ⟨hlog, hactive, hs.loaded, hs.consumed, hs.reports⟩

/-- `CFE_PSP_Exception_Reset` loads `NumWritten`: what was logged so far will be discarded. -/
lemma SessionInv.loadNumWritten (hs : SessionInv h s) :
    SessionInv h.divide { s with loaded := some s.storage.numWritten, attached := false } where
  log := by
    rw [History.log_divide]
    exact hs.log
  active := by
    rw [History.log_divide]
    exact hs.active
  loaded := fun v hv => by
    obtain rfl := Option.some.inj hv
    exact ⟨hs.log.numWritten, hs.log.consumed_le, rfl⟩
  consumed := fun ha => absurd ha Bool.false_ne_true
  reports := fun ha => absurd ha Bool.false_ne_true

/-- It stores the value that it loaded. -/
lemma SessionInv.storeNumRead (hs : SessionInv h s) {v : Uint32} (hv : s.loaded = some v) :
    SessionInv (h.step (.storeNumRead : Event c τ ι))
      { s with storage := { s.storage with numRead := v }, loaded := none, attached := true } := by
  obtain ⟨rfl, hle, hempty⟩ := hs.loaded v hv
  have hearlier : h.earlier.length ≤ h.log.length := by
    rw [h.length_log]
    exact Nat.le_add_right _ _
  exact
    { log := hs.log.consume hle hearlier
      active := hs.active.consume hle rfl
      loaded := fun _ hv => absurd hv (Option.some_ne_none _).symm
      consumed := fun _ => by simp [History.step, hempty]
      reports := fun _ k call hk => absurd hk (by simp [History.step, hempty]) }

/-- A handler that gets a buffer is the only one. -/
lemma SessionInv.getNextContextBuffer [Zero τ] [DecidableEq ι] (hs : SessionInv h s) {t : ι}
    {stored : Bool}
    (hsome : (Exception.getNextContextBuffer s.storage).1.isSome = stored)
    (halone : (.getNextContextBuffer t stored : Event c τ ι).Alone s) :
    SessionInv h { s with
      active := Function.update s.active t ((Exception.getNextContextBuffer s.storage).1.map
        (Activation.clearing · s.storage.numWritten)) } := by
  refine hs.handler hs.log ?_
  cases hb : (Exception.getNextContextBuffer s.storage).1 with
  | none => exact hs.active.remove t
  | some b =>
    obtain rfl : true = stored := by rw [← hsome, hb, Option.isSome_some]
    obtain ⟨hslot, hroom⟩ := hs.log.getNextContextBuffer hb
    refine ActiveInv.update halone fun a ha => ?_
    obtain rfl := Option.some.inj ha
    exact ⟨hslot, hroom, hs.log.numWritten⟩

/-- The store to `NumWritten`. -/
lemma SessionInv.countWritten [DecidableEq ι] (hs : SessionInv h s) {t : ι} {b : Fin c.maxEntries}
    (hb : s.active t = some (.filling b)) {f : Capture c τ} (hf : (s.storage.entries b).Holds f) :
    SessionInv (h.step (.countWritten t f))
      { s with
        storage := countWritten s.storage
        active := Function.update s.active t (some .expiring) } := by
  obtain ⟨rfl, hroom, hid⟩ := hs.active.fits t _ hb
  refine ⟨?_, ?_, hs.loaded, hs.consumed, fun ha k call hk => ?_⟩
  · rw [History.log_countWritten]
    exact hs.log.countWritten hroom hf hid
  · refine ActiveInv.update (hs.active.idle hb) fun a ha => ?_
    obtain rfl := Option.some.inj ha
    trivial
  · exact (hs.reports ha k call hk).countWritten t f

/-- `CFE_PSP_Exception_GetSummary`. -/
lemma SessionInv.getSummary (hs : SessionInv h s) (hloaded : s.loaded = none) (a : SummaryArgs)
    (x : LogData c τ → SummaryExternals) {d : LogData c τ}
    (hd : s.storage.entries (Exception.getBuffer c s.storage.numRead) = d) :
    SessionInv
      (h.step (.getSummary a x (Exception.getSummary a (x d) s.storage).1
        (Exception.getSummary a (x d) s.storage).2.1 : Event c τ ι))
      { s with storage := (Exception.getSummary a (x d) s.storage).2.2 } := by
  rcases hs.log.getSummary a x hd with ⟨hret, hafter⟩ | ⟨hlt, hret, hout, hafter⟩
  · rw [History.step, if_neg hret, hafter]
    exact hs
  · rw [History.step, if_pos hret, hafter, hout]
    refine ⟨hs.log.consume (Nat.le_succ _) hlt, hs.active.consume (Nat.le_succ _) rfl, ?_,
      fun ha => ?_, fun ha k call hk => ?_⟩
    · exact fun v hv => absurd (hloaded.symm.trans hv) (Option.some_ne_none v).symm
    · have hconsumed := hs.consumed ha
      simp only [List.length_append, List.length_singleton]
      omega
    · have hconsumed := hs.consumed ha
      rcases Nat.lt_or_ge k h.summaries.length with hold | hnew
      · exact hs.reports ha k call ((List.getElem?_append_left hold).symm.trans hk)
      · -- the new call, which reports the oldest entry that is pending
        have hlast := (List.getElem?_eq_some_iff.1 hk).1
        rw [List.length_append, List.length_singleton] at hlast
        obtain rfl : k = h.summaries.length := by omega
        obtain rfl : (⟨a, x, summaryOut a x d⟩ : Summary c τ) = call := by simpa using hk
        obtain ⟨f, id, hf, hid, hentry⟩ := hs.log.pending hlt
        have hlength := h.length_log
        refine ⟨f, id, ?_, ?_, ?_⟩
        · rw [History.log, List.getElem?_append_right (by omega)] at hf
          rw [← hf]
          congr 1
          omega
        · rw [hconsumed] at hid
          rcases hid with hid | ⟨hzero, hfull⟩
          · exact .inl hid
          · refine .inr ⟨hzero, ?_⟩
            show h.summaries.length + c.maxEntries ≤ h.current.length
            omega
        · rw [← hentry, hd]

end Session

/-! ## The invariant of the system -/

section Runs

variable [Zero τ] {l : StorageLayout c τ} {s u : Sys c τ ι} {h : History c τ}

/-- The log invariant holds while a session runs, and between sessions if the next boot is to be a
processor reset; during a power-on reset the rest of the initialisation will clear the log. -/
def Inv (l : StorageLayout c τ) (h : History c τ) (s : Sys c τ ι) : Prop :=
  match s.boot.phase with
  | .off last => s.NoHandlers ∧
      (last.nextResetType = rstTypeProcessor → LogInv h.log h.consumed s.storage)
  | .initialising t _ rest => s.NoHandlers ∧
      (t = rstTypeProcessor → LogInv h.log h.consumed s.storage) ∧
      (t = rstTypePoweron →
        h = 0 ∧ (rest.filterMap exceptionByte?).foldl l.clearByte s.storage = 0)
  | .running _ => SessionInv h s

/-- A step of the boot cycle that does not end the process changes nothing about the handlers. -/
lemma Sys.NoHandlers.bootStep (hs : s.NoHandlers) (e : PcLinux.Event) (b : PcLinux.Sys) :
    (bootStep l s e b).NoHandlers := by
  obtain ⟨hhandlers, hloaded, hattached, hactive⟩ := hs
  constructor
  · rw [ExceptionLog.bootStep, hhandlers, Bool.false_and]
  · rw [ExceptionLog.bootStep, hloaded, ite_self]
  · rw [ExceptionLog.bootStep, hattached, Bool.false_and]
  · rw [ExceptionLog.bootStep, hactive, ite_self]

/-- The end of the process is the end of its handlers. -/
lemma noHandlers_of_end {e : PcLinux.Event} (he : endsProcess e = true) (b : PcLinux.Sys) :
    (bootStep l s e b).NoHandlers := by
  constructor
  · simp [bootStep, he]
  · simp [bootStep, he]
  · simp [bootStep, he]
  · simp [bootStep, he]

/-- **A step of the boot cycle keeps the invariant.**

**Proof sketch.** One case for each rule. By the phase invariant the boot chooses the reset type
that the end of the last session calls for, and the stores of a processor reset leave the log
alone. -/
lemma Inv.boot (hphase : PhaseInv l.toLayout s.boot) (hs : Inv l h s) {e : PcLinux.Event}
    (he : e.NoOption) {b : PcLinux.Sys} (hstep : PcLinux.step l.toLayout s.boot e = some b) :
    Inv l (h.step (.boot e : Event c τ ι)) (bootStep l s e b) := by
  obtain ⟨boot, storage, handlers, loaded, attached, active⟩ := s
  cases step_iff.1 hstep with
  | @boot m last option t hchoice =>
    obtain rfl : option = none := he
    obtain ⟨hnone, hlog⟩ := hs
    have hnext : last.nextResetType = t := hphase.symm.trans hchoice
    refine ⟨hnone.bootStep _ _, ?_, ?_⟩
    · rintro rfl
      have hlog' := hlog hnext
      rwa [← History.log_divide] at hlog'
    · rintro rfl
      exact ⟨rfl, (exceptionBytes_poweron _).symm ▸ l.clear_all _⟩
  | @store m t done st rest =>
    obtain ⟨hnone, hproc, hpower⟩ := hs
    refine ⟨hnone.bootStep _ _, ?_, ?_⟩
    · rintro rfl
      have hbyte : exceptionByte? st = none := exceptionByte?_processor (l := l.toLayout) (by
        rw [← hphase.1]
        simp)
      simpa only [History.step, bootStep, storageAfter, hbyte, Option.elim_none] using hproc rfl
    · rintro rfl
      obtain ⟨hzero, hrest⟩ := hpower rfl
      refine ⟨hzero, ?_⟩
      cases hbyte : exceptionByte? st with
      | none =>
        simpa only [bootStep, storageAfter, hbyte, List.filterMap_cons_none hbyte,
          Option.elim_none] using hrest
      | some i =>
        simpa only [bootStep, storageAfter, hbyte, List.filterMap_cons_some hbyte, List.foldl_cons,
          Option.elim_some] using hrest
  | @enter m t done =>
    obtain ⟨hnone, hproc, hpower⟩ := hs
    obtain ⟨-, m', hm', -⟩ := hphase
    have hstart := hnone.bootStep (l := l) .enter ⟨m, .running t⟩
    refine SessionInv.start hstart ?_
    rcases startupResetType_cases none m' with ht | ht
    · exact hproc (hm'.symm.trans ht)
    · obtain ⟨rfl, hzero⟩ := hpower (hm'.symm.trans ht)
      obtain rfl : storage = 0 := hzero
      exact LogInv.zero
  | storeArea | writeToCDS | readFromCDS =>
    obtain ⟨hlog, hactive, hloaded, hconsumed, hreports⟩ := hs
    exact ⟨hlog, hactive, hloaded, fun ha => hconsumed (by simpa [bootStep, endsProcess] using ha),
      fun ha => hreports (by simpa [bootStep, endsProcess] using ha)⟩
  | @restart m t next =>
    refine ⟨noHandlers_of_end rfl _, fun hnext => ?_⟩
    have hne : next ≠ rstTypePoweron := by
      rintro rfl
      exact absurd hnext (by decide)
    simp only [bootStep, storageAfter, if_neg hne]
    exact hs.log
  | @crashInit m t done rest =>
    obtain ⟨-, hproc, hpower⟩ := hs
    obtain ⟨-, m', hm', -⟩ := hphase
    refine ⟨noHandlers_of_end rfl _, fun hnext => ?_⟩
    rcases startupResetType_cases none m' with ht | ht
    · exact hproc (hm'.symm.trans ht)
    · obtain rfl : rstTypePoweron = t := ht.symm.trans hm'
      obtain ⟨rfl, hzero⟩ := hpower rfl
      -- a power-on reset is followed by a processor reset only when it was complete
      have hrest : rest = [] := by
        by_contra hne
        rw [Ending.nextResetType, if_neg (by decide), if_neg hne] at hnext
        exact absurd hnext (by decide)
      subst hrest
      obtain rfl : storage = 0 := hzero
      exact LogInv.zero
  | crashRunning => exact ⟨noHandlers_of_end rfl _, fun _ => hs.log⟩

/-- An event that needs a running session finds its invariant. -/
lemma Inv.session (hs : Inv l h s) (hrun : isRunning s.boot.phase = true) : SessionInv h s := by
  obtain ⟨⟨m, phase⟩, storage, handlers, loaded, attached, active⟩ := s
  cases phase with
  | running t => exact hs
  | off last | initialising t done rest => exact absurd hrun Bool.false_ne_true

/-- An event that leaves the phase alone keeps the invariant if it keeps that of the session. -/
lemma Inv.of_session (hrun : isRunning s.boot.phase = true) (hs : SessionInv h s) : Inv l h s := by
  obtain ⟨⟨m, phase⟩, storage, handlers, loaded, attached, active⟩ := s
  cases phase with
  | running t => exact hs
  | off last | initialising t done rest => exact absurd hrun Bool.false_ne_true

/-- There are handlers in a running session only. -/
lemma Inv.running (hs : Inv l h s) (hthere : ¬s.NoHandlers) :
    isRunning s.boot.phase = true := by
  obtain ⟨⟨m, phase⟩, storage, handlers, loaded, attached, active⟩ := s
  cases phase with
  | running t => rfl
  | off last | initialising t done rest => exact absurd hs.1 hthere

variable [DecidableEq τ] [DecidableEq ι]

/-- **Every step keeps the invariant**, as long as no boot is given a reset type and one thread at
most is in a handler. -/
lemma Inv.step (hphase : PhaseInv l.toLayout s.boot) (hs : Inv l h s) {e : Event c τ ι}
    (he : e.NoOption) (halone : e.Alone s) (hstep : ExceptionLog.step l s e = some u) :
    PhaseInv l.toLayout u.boot ∧ Inv l (h.step e) u := by
  have hrunning : s.handlers = true ∨ s.loaded ≠ none ∨ s.active ≠ (fun _ => none) →
      isRunning s.boot.phase = true := by
    intro hthere
    refine hs.running fun hnone => ?_
    rcases hthere with hhandlers | hloaded | hactive
    · exact Bool.noConfusion (hnone.handlers.symm.trans hhandlers)
    · exact hloaded hnone.loaded
    · exact hactive hnone.active
  have hbusy : ∀ {t : ι} {a : Activation c}, s.active t = some a →
      isRunning s.boot.phase = true := fun ht =>
    hrunning (.inr (.inr fun hnone => Option.some_ne_none _ (ht.symm.trans (congrFun hnone _))))
  cases e with
  | boot e =>
    have hstore : ¬storesLog e = true := fun hstore => by
      simp only [ExceptionLog.step, if_pos hstore, reduceCtorEq] at hstep
    rw [ExceptionLog.step, if_neg hstore] at hstep
    obtain ⟨b, hb, rfl⟩ := Option.map_eq_some_iff.1 hstep
    exact ⟨hphase.step he hb, hs.boot hphase he hb⟩
  | attachSigHandler =>
    simp only [ExceptionLog.step] at hstep
    split_ifs at hstep with hrun
    obtain rfl := Option.some.inj hstep
    obtain ⟨hlog, hactive, hloaded, hconsumed, hreports⟩ := hs.session hrun
    exact ⟨hphase, Inv.of_session hrun ⟨hlog, hactive, hloaded, hconsumed, hreports⟩⟩
  | loadNumWritten =>
    simp only [ExceptionLog.step] at hstep
    split_ifs at hstep with hhandlers
    obtain rfl := Option.some.inj hstep
    have hrun := hrunning (.inl hhandlers)
    exact ⟨hphase, Inv.of_session hrun (hs.session hrun).loadNumWritten⟩
  | storeNumRead =>
    simp only [ExceptionLog.step] at hstep
    split at hstep
    · next v hv =>
      obtain rfl := Option.some.inj hstep
      have hrun := hrunning (.inr (.inl (hv ▸ Option.some_ne_none v)))
      exact ⟨hphase, Inv.of_session hrun ((hs.session hrun).storeNumRead hv)⟩
    · cases hstep
  | getNextContextBuffer t stored =>
    simp only [ExceptionLog.step] at hstep
    split_ifs at hstep with hcall
    obtain rfl := Option.some.inj hstep
    have hrun := hrunning (.inl hcall.1)
    exact ⟨hphase, Inv.of_session hrun ((hs.session hrun).getNextContextBuffer hcall.2 halone)⟩
  | memset t d =>
    simp only [ExceptionLog.step] at hstep
    split at hstep
    · next b nextWrite ht =>
      obtain rfl := Option.some.inj hstep
      have hrun := hbusy ht
      have hsession := hs.session hrun
      obtain ⟨rfl, hroom, hnext⟩ := hsession.active.fits t _ ht
      exact ⟨hphase, Inv.of_session hrun (hsession.handler (hsession.log.setEntry hroom d)
        (hsession.active.stay ht ⟨rfl, hroom, hnext⟩))⟩
    · cases hstep
  | storeContextId t =>
    simp only [ExceptionLog.step] at hstep
    split at hstep
    · next b nextWrite ht =>
      obtain rfl := Option.some.inj hstep
      have hrun := hbusy ht
      have hsession := hs.session hrun
      obtain ⟨rfl, hroom, rfl⟩ := hsession.active.fits t _ ht
      refine ⟨hphase, Inv.of_session hrun (hsession.handler (hsession.log.setEntry hroom _)
        (ActiveInv.update (hsession.active.idle ht) fun a ha => ?_))⟩
      obtain rfl := Option.some.inj ha
      exact ⟨rfl, hroom, by rw [Exception.setEntry_entries_self]⟩
    · cases hstep
  | fill t d =>
    simp only [ExceptionLog.step] at hstep
    split at hstep
    · next b ht =>
      split_ifs at hstep with hd
      obtain rfl := Option.some.inj hstep
      have hrun := hbusy ht
      have hsession := hs.session hrun
      obtain ⟨rfl, hroom, hid⟩ := hsession.active.fits t _ ht
      refine ⟨hphase, Inv.of_session hrun (hsession.handler (hsession.log.setEntry hroom d)
        (hsession.active.stay ht ⟨rfl, hroom, ?_⟩))⟩
      rw [Exception.setEntry_entries_self, hd, hid]
    · cases hstep
  | countWritten t f =>
    simp only [ExceptionLog.step] at hstep
    split at hstep
    · next b ht =>
      split_ifs at hstep with hf
      obtain rfl := Option.some.inj hstep
      have hrun := hbusy ht
      exact ⟨hphase, Inv.of_session hrun ((hs.session hrun).countWritten ht hf)⟩
    · cases hstep
  | expireNext t =>
    simp only [ExceptionLog.step] at hstep
    split at hstep
    · next ht =>
      obtain rfl := Option.some.inj hstep
      have hrun := hbusy ht
      have hsession := hs.session hrun
      exact ⟨hphase, Inv.of_session hrun (hsession.handler hsession.log.expireNext
        (ActiveInv.update (hsession.active.idle ht) fun a ha =>
          absurd ha (Option.some_ne_none a).symm))⟩
    · cases hstep
  | getSummary a x ret out =>
    simp only [ExceptionLog.step] at hstep
    split_ifs at hstep with hcall hresult
    obtain ⟨hrun, hloaded⟩ := hcall
    obtain ⟨rfl, rfl⟩ := hresult
    obtain rfl := Option.some.inj hstep
    exact ⟨hphase, Inv.of_session hrun ((hs.session hrun).getSummary hloaded a x rfl)⟩

/-- No process, and segments that are new. -/
def fresh : Sys c τ ι := ⟨⟨0, .off .fresh⟩, 0, false, none, false, fun _ => none⟩

/-- **The storage of a running session holds the history of all sessions since the last power-on
reset**, in every run of boots without a command line option, cut anywhere, in which no two threads
are in the handler at once. -/
theorem inv_of_run {tr : List (Event c τ ι)} (hboots : ∀ e ∈ tr, e.NoOption)
    (halone : Always (step l) (fun s e => e.Alone s) fresh tr)
    (h : run (step l) fresh tr = some s) :
    PhaseInv l.toLayout s.boot ∧ Inv l (history tr) s := by
  refine run_invariant_of_always (P := fun tr s => (∀ e ∈ tr, e.NoOption) →
    PhaseInv l.toLayout s.boot ∧ Inv l (history tr) s) ?_ ?_ halone h hboots
  · intro _
    refine ⟨phaseInv_of_run (List.forall_mem_nil _) rfl, ⟨rfl, rfl, rfl, rfl⟩, fun hnext => ?_⟩
    exact absurd hnext (by decide)
  · intro tr s e u hinv hC hs hall
    obtain ⟨hphase, hlog⟩ := hinv fun e he => hall e (List.mem_append_left _ he)
    rw [history_concat]
    exact hlog.step hphase (hall e (List.mem_append_right _ (List.mem_singleton_self e))) hC hs

/-- **Contexts survive processor resets.** In every run from fresh segments of boots without a
command line option, whose sessions end with `CFE_PSP_Restart` or with a crash anywhere, also
between two stores of a handler, and in which no two threads are in the handler at once: a running
session can fetch the context of each of the last `maxEntries - 1` exceptions logged since the last
power-on reset, in whichever session, by the id it was given.

**Proof sketch.** The log invariant: the entry has kept its id and what was captured, and in a ring
of at most `2 ^ 16` entries the id leads to its own slot. -/
theorem contexts_survive_resets (hk : c.logEntries ≤ 16) {tr : List (Event c τ ι)}
    (hboots : ∀ e ∈ tr, e.NoOption) (halone : Always (step l) (fun s e => e.Alone s) fresh tr)
    (h : run (step l) fresh tr = some s) (hrun : isRunning s.boot.phase = true) {i : ℕ}
    {f : Capture c τ} (hi : (history tr).log[i]? = some f)
    (hwin : (history tr).log.length < i + c.maxEntries) (buf : ℕ → UInt8) (size : Uint32) :
    Exception.copyContext s.storage (c.entryId (BitVec.ofNat 32 i)) buf size =
      Exception.handOver f.contextSize f.infoByte buf size := by
  have hlog := ((inv_of_run hboots halone h).2.session hrun).log
  have hlt : i < (history tr).log.length := (List.getElem?_eq_some_iff.1 hi).1
  have hheld := hlog.held i f hi (.inl hwin)
  have hslot : Exception.getBuffer c (c.entryId (BitVec.ofNat 32 i) - c.idBase) =
      seqBuffer c i := by
    rw [Exception.getBuffer_entryId, Exception.seqBuffer_eq_iff]
    exact Nat.mod_mod_of_dvd i (Nat.pow_dvd_pow 2 hk)
  have hsize := f.contextSize_lt
  have hfits : min size.toNat (s.storage.entries (seqBuffer c i)).contextSize.toNat < 2 ^ 31 := by
    rw [hheld.1]
    omega
  rw [Exception.copyContext_found (Exception.entryId_inRange _) (congrArg s.storage.entries hslot)
    (hlog.live i hlt hwin) hfits, hheld.1, hheld.infoByte]

/-- **The summaries of a session are those of its own exceptions.** In every such run, when
`CFE_PSP_AttachExceptions` has returned,

* the calls of `GetSummary` that have succeeded since have reported the first exceptions that were
  logged since it discarded those of earlier sessions, one each and in order: the outputs of a call
  are those for an entry with what was captured;
* `GetCount` is the number of the other exceptions.

**Proof sketch.** `CFE_PSP_AttachExceptions` counts as read what was logged before, so that what is
consumed is always that and one exception for each summary. -/
theorem summaries_of_session {tr : List (Event c τ ι)} (hboots : ∀ e ∈ tr, e.NoOption)
    (halone : Always (step l) (fun s e => e.Alone s) fresh tr)
    (h : run (step l) fresh tr = some s) (hattached : s.attached = true) :
    (∀ k (call : Summary c τ), (history tr).summaries[k]? = some call →
        call.Reports (history tr) k) ∧
      (history tr).summaries.length ≤ (history tr).current.length ∧
      (Exception.getCount s.storage).toNat =
        (history tr).current.length - (history tr).summaries.length := by
  have hinv := (inv_of_run hboots halone h).2
  have hsession := hinv.session (hinv.running fun hnone =>
    Bool.noConfusion (hnone.attached.symm.trans hattached))
  have hconsumed := hsession.consumed hattached
  have hle := hsession.log.consumed_le
  have hlength := (history tr).length_log
  refine ⟨hsession.reports hattached, by omega, ?_⟩
  rw [hsession.log.getCount_toNat]
  omega

end Runs

/-! ## Two sessions -/

/-- A small log that is cleared with its only byte. -/
def oneByteLayout (k : Fin 32) : StorageLayout (Config.small k) ℕ where
  cdsSize := 0
  resetAreaSize := 0
  userReservedSize := 0
  exceptionSize := 1
  bigEndian := false
  clearByte := fun _ _ => 0
  clear_all := fun _ => rfl

/-- A handler on one of two threads up to the store to `NumWritten`, with the id that it gives. -/
def countException {k : Fin 32} (t : Bool) (x : UInt8) (id : Uint32) :
    List (Event (Config.small k) ℕ Bool) :=
  [.getNextContextBuffer t true, .memset t 0, .storeContextId t,
    .fill t ((Capture.ofByte x 1).toLogData id), .countWritten t (Capture.ofByte x 1)]

/-- A session is booted and attaches its handlers. -/
def attachAfter {k : Fin 32} (resetType : Uint32) (stores : ℕ) :
    List (Event (Config.small k) ℕ Bool) :=
  .boot (.boot none resetType) :: List.replicate stores (.boot .store) ++
    [.boot .enter, .attachSigHandler, .loadNumWritten, .storeNumRead]

/-- What `GetSummary` is called with in the run below. -/
def wanted : SummaryArgs := ⟨true, true, false, 0⟩

/-- The OSAL finds the task that the entry names. -/
def findTask {k : Fin 32} (d : LogData (Config.small k) ℕ) : SummaryExternals :=
  ⟨some (BitVec.ofNat 32 d.sysTaskId), none⟩

/-- The first session logs two exceptions and crashes in the `WriteComplete` of the second; the next
one, a processor reset, logs two more and reports one of them. -/
def crashedWhileLogging (k : Fin 32) : List (Event (Config.small k) ℕ Bool) :=
  attachAfter rstTypePoweron 11 ++ countException false 7 0x1110000 ++ [.expireNext false] ++
    countException true 8 0x1110001 ++ [.boot .crash] ++ attachAfter rstTypeProcessor 2 ++
    countException true 9 0x1110002 ++ [.expireNext true] ++ countException false 10 0x1110003 ++
    [.getSummary wanted findTask Status.success
      (summaryOut wanted findTask ((Capture.ofByte (k := k) 9 1).toLogData 0x1110002))]

lemma crashedWhileLogging_noOption (k : Fin 32) : ∀ e ∈ crashedWhileLogging k, e.NoOption := by
  simp [crashedWhileLogging, attachAfter, countException, Event.NoOption, PcLinux.Event.NoOption]

lemma crashedWhileLogging_alone :
    Always (step (oneByteLayout 2)) (fun s e => e.Alone s) fresh (crashedWhileLogging 2) := by
  decide +kernel

lemma crashedWhileLogging_runs : ∃ s,
    run (step (oneByteLayout 2)) fresh (crashedWhileLogging 2) = some s ∧
      isRunning s.boot.phase = true ∧ s.attached = true :=
  ⟨_, rfl, rfl, rfl⟩

/-- The second session fetches the context of the exception that the first one was logging when it
crashed. -/
theorem contexts_survive_resets_of_crash :
    ∃ s, run (step (oneByteLayout 2)) fresh (crashedWhileLogging 2) = some s ∧
      Exception.copyContext s.storage 0x1110001 (fun _ => 0) 1 =
        Exception.handOver 1 (Capture.ofByte (k := 2) 8 1).infoByte (fun _ => 0) 1 := by
  obtain ⟨s, hs, hrun, -⟩ := crashedWhileLogging_runs
  refine ⟨s, hs, ?_⟩
  exact contexts_survive_resets (c := Config.small 2) (by decide)
    (crashedWhileLogging_noOption 2) crashedWhileLogging_alone hs hrun (i := 1)
    (f := Capture.ofByte 8 1) rfl (by decide) (fun _ => 0) 1

/-- Two threads that are in the handler at once have one buffer. -/
def twoInHandler (k : Fin 32) : List (Event (Config.small k) ℕ Bool) :=
  attachAfter rstTypePoweron 11 ++ [.getNextContextBuffer false true] ++
    countException true 8 0x1110000 ++
    [.memset false 0, .storeContextId false, .fill false ((Capture.ofByte 7 1).toLogData 0x1110000),
      .countWritten false (Capture.ofByte 7 1)]

/-- The context of the first exception is that of the second then. -/
theorem contexts_lost_of_twoInHandler :
    ∃ s, run (step (oneByteLayout 2)) fresh (twoInHandler 2) = some s ∧
      (history (twoInHandler 2)).log[0]? = some (Capture.ofByte 8 1) ∧
      Exception.copyContext s.storage 0x1110000 (fun _ => 0) 1 ≠
        Exception.handOver 1 (Capture.ofByte (k := 2) 8 1).infoByte (fun _ => 0) 1 := by
  obtain ⟨s, hs, hbyte⟩ : ∃ s, run (step (oneByteLayout 2)) fresh (twoInHandler 2) = some s ∧
      (Exception.copyContext s.storage 0x1110000 (fun _ => 0) 1).2 0 = 7 := ⟨_, rfl, rfl⟩
  refine ⟨s, hs, rfl, fun h => ?_⟩
  rw [h] at hbyte
  exact absurd hbyte (by decide)

/-- The second session has reported its first exception, and the other one is pending. -/
theorem summaries_of_session_of_crash :
    ∃ s, run (step (oneByteLayout 2)) fresh (crashedWhileLogging 2) = some s ∧
      (Exception.getCount s.storage).toNat = 1 ∧
      ∃ call, (history (crashedWhileLogging 2)).summaries[0]? = some call ∧
        call.Reports (history (crashedWhileLogging 2)) 0 := by
  obtain ⟨s, hs, -, hattached⟩ := crashedWhileLogging_runs
  obtain ⟨hreports, -, hcount⟩ := summaries_of_session (crashedWhileLogging_noOption 2)
    crashedWhileLogging_alone hs hattached
  exact ⟨s, hs, hcount, _, rfl, hreports 0 _ rfl⟩

end CfePsp.PcLinux.ExceptionLog
