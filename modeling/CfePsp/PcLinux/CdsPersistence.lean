import CfePsp.PcLinux.Boot

set_option relaxedAutoImplicit false
set_option autoImplicit false

/-!
# The critical data store across resets

What the CDS is for: it keeps what was written to it across processor resets, and forgets it with a
power-on reset. The reader of a byte finds what the most recent write to it stored, however many
sessions ago that was.

## Main definitions

* `CfePsp.PcLinux.recent` — the byte that the history of a run leaves in the CDS.

## Main results

* `CfePsp.PcLinux.cdsInv_of_run` — the CDS of a running session holds its history.
* `CfePsp.PcLinux.cds_persistence` — what a read returns, and what leaves the CDS alone.
-/

namespace CfePsp.PcLinux

open Transition

/-! ## The history of a byte -/

/-- What an event makes of the byte at `a` of the CDS: a power-on reset makes it zero, a successful
write that covers it stores a byte of its data. -/
def recentStep (a : ℕ) (v : UInt8) : Event → UInt8
  | .boot _ t => if t = rstTypePoweron then 0 else v
  | .writeToCDS (some data) off n ret =>
      if ret = Status.success ∧ off.toNat ≤ a ∧ a < off.toNat + n.toNat then data (a - off.toNat)
      else v
  | _ => v

/-- The byte stored at `a` by the most recent successful write that covered it since the last
power-on reset, and `0` if there was none. -/
def recent (tr : List Event) (a : ℕ) : UInt8 := tr.foldl (recentStep a) 0

lemma recent_concat (tr : List Event) (e : Event) (a : ℕ) :
    recent (tr ++ [e]) a = recentStep a (recent tr a) e := by
  rw [recent, List.foldl_append, recent]
  rfl

/-- A processor reset keeps the history of the CDS. -/
lemma recent_boot_processor (option : Option ResetOption) (tr : List Event) (a : ℕ) :
    recent (tr ++ [.boot option rstTypeProcessor]) a = recent tr a := by
  rw [recent_concat]
  rfl

/-- A power-on reset starts the history of the CDS anew. -/
lemma recent_boot_poweron (option : Option ResetOption) (tr : List Event) (a : ℕ) :
    recent (tr ++ [.boot option rstTypePoweron]) a = 0 := by
  rw [recent_concat]
  rfl

/-- A refused write is not part of the history of the CDS. -/
lemma recentStep_refused {ret : ℤ} (hret : ret ≠ Status.success) (a : ℕ) (v : UInt8)
    (ptr : Option (ℕ → UInt8)) (off n : Uint32) :
    recentStep a v (.writeToCDS ptr off n ret) = v := by
  cases ptr with
  | none => rfl
  | some data => exact if_neg fun h => hret h.1

/-- The event is no boot and no access to the CDS that would change its history. -/
def Event.Quiet : Event → Prop
  | .boot _ _ | .writeToCDS _ _ _ _ => False
  | _ => True

lemma recent_concat_of_quiet {e : Event} (he : e.Quiet) (tr : List Event) :
    recent (tr ++ [e]) = recent tr := by
  funext a
  rw [recent_concat]
  cases e <;> first | rfl | exact absurd he id

/-! ## The CDS and the phase -/

/-- **The CDS invariant.** The CDS holds its history whenever the next boot, or the current one, is
a processor reset, and throughout a session; during a power-on reset what is not cleared yet is
about to be. -/
def CdsInv (l : Layout) (tr : List Event) (s : Sys) : Prop :=
  match s.phase with
  | .off last => last.nextResetType = rstTypeProcessor →
      ∀ a < l.cdsSize, s.mem.cds a = recent tr a
  | .initialising t _ rest =>
      if t = rstTypeProcessor then ∀ a < l.cdsSize, s.mem.cds a = recent tr a
      else ∀ a < l.cdsSize, recent tr a = 0 ∧ (s.mem.cds a = 0 ∨ .clearCds a ∈ rest)
  | .running _ => ∀ a < l.cdsSize, s.mem.cds a = recent tr a

section Steps

variable {l : Layout} {tr : List Event} {s u : Sys} {e : Event}

/-- A power-on reset clears every byte of the CDS. -/
lemma clearCds_mem_initStores {a : ℕ} (ha : a < l.cdsSize) :
    Store.clearCds a ∈ initStores l rstTypePoweron := by
  have hmem : Store.clearCds a ∈ clearStores .clearCds l.cdsSize :=
    mem_clearStores.2 ⟨a, ha, rfl⟩
  simp [initStores, hmem]

/-- A store of a processor reset leaves the CDS alone. -/
lemma apply_cds_of_mem_processor {st : Store} (h : st ∈ initStores l rstTypeProcessor)
    (m : Segments) : (st.apply m).cds = m.cds := by
  rw [initStores_processor] at h
  rcases List.mem_cons.1 h with rfl | h
  · rfl
  · obtain rfl := List.mem_singleton.1 h
    rfl

/-- A store clears a byte of the CDS or leaves it alone. -/
lemma apply_cds (st : Store) (m : Segments) (a : ℕ) :
    (st = .clearCds a ∧ (st.apply m).cds a = 0) ∨
      (st ≠ .clearCds a ∧ ((st.apply m).cds a = m.cds a ∨ (st.apply m).cds a = 0)) := by
  cases st with
  | clearCds i =>
    by_cases hi : i = a
    · subst hi
      exact .inl ⟨rfl, Function.update_self _ _ _⟩
    · refine .inr ⟨fun heq => hi (Store.clearCds.inj heq), .inl ?_⟩
      exact Function.update_of_ne (Ne.symm hi) _ _
  | clearArea b i | clearFlag i | clearType i | setType t | setFlag v =>
    exact .inr ⟨nofun, .inl rfl⟩

/-- What a write makes of a byte of the CDS is what it makes of its history. -/
lemma writeToCDS_cds {ptr : Option (ℕ → UInt8)} {off n : Uint32} {cds : ℕ → UInt8} {a : ℕ}
    {v : UInt8} (hcds : cds a = v) :
    (Memory.writeToCDS .pcLinux l.cdsSize cds ptr off n).2 a =
      recentStep a v (.writeToCDS ptr off n
        (Memory.writeToCDS .pcLinux l.cdsSize cds ptr off n).1) := by
  have hret := (Memory.Port.successCode_ne_errorCode .pcLinux).symm
  cases ptr with
  | none => exact hcds.trans (recentStep_refused hret a v none off n).symm
  | some data =>
    by_cases hok : Memory.RangeOk l.cdsSize off n
    · rw [Memory.writeToCDS_of_ok hok]
      by_cases hmem : off.toNat ≤ a ∧ a < off.toNat + n.toNat
      · exact (Cells.overlay_of_mem hmem).trans (if_pos ⟨rfl, hmem⟩).symm
      · exact (Cells.overlay_of_notMem hmem).trans (hcds.trans (if_neg fun h => hmem h.2).symm)
    · rw [Memory.writeToCDS_of_not_ok hok]
      exact hcds.trans (recentStep_refused hret a v (some data) off n).symm

/-- When no store is left to make, a power-on reset has cleared the CDS as its history was. -/
lemma cds_of_cleared {m : Segments}
    (h : ∀ a < l.cdsSize, recent tr a = 0 ∧ (m.cds a = 0 ∨ .clearCds a ∈ ([] : List Store))) :
    ∀ a < l.cdsSize, m.cds a = recent tr a := by
  intro a ha
  obtain ⟨hrecent, hzero | hmem⟩ := h a ha
  · rw [hzero, hrecent]
  · exact absurd hmem List.not_mem_nil

/-- **Every step keeps the CDS invariant**, given the phase invariant. -/
lemma CdsInv.step (hphase : PhaseInv l s) (h : CdsInv l tr s) (he : e.NoOption)
    (hs : step l s e = some u) : CdsInv l (tr ++ [e]) u := by
  cases step_iff.1 hs with
  | @boot m last option t hchoice =>
    obtain rfl : option = none := he
    simp only [PhaseInv] at hphase
    simp only [CdsInv] at h ⊢
    rcases startupResetType_cases none m with hproc | hpower
    · obtain rfl : rstTypeProcessor = t := hproc.symm.trans hchoice
      rw [if_pos rfl]
      intro a ha
      rw [recent_boot_processor]
      exact h (hphase.symm.trans hproc) a ha
    · obtain rfl : rstTypePoweron = t := hpower.symm.trans hchoice
      rw [if_neg (by decide)]
      intro a ha
      exact ⟨recent_boot_poweron none tr a, .inr (clearCds_mem_initStores ha)⟩
  | @store m t done st rest =>
    simp only [CdsInv] at h ⊢
    rw [recent_concat_of_quiet (e := .store) trivial]
    split_ifs at h ⊢ with ht
    · have hst : st ∈ initStores l rstTypeProcessor := by
        rw [← ht, ← hphase.1]
        simp
      intro a ha
      rw [apply_cds_of_mem_processor hst]
      exact h a ha
    · intro a ha
      obtain ⟨hrecent, hcds⟩ := h a ha
      refine ⟨hrecent, ?_⟩
      rcases apply_cds st m a with ⟨-, hzero⟩ | ⟨hne, hsame | hzero⟩
      · exact .inl hzero
      · rcases hcds with hzero | hmem
        · exact .inl (hsame.trans hzero)
        · exact .inr ((List.mem_cons.1 hmem).resolve_left hne.symm)
      · exact .inl hzero
  | enter =>
    simp only [CdsInv] at h ⊢
    rw [recent_concat_of_quiet (e := .enter) trivial]
    split_ifs at h with ht
    · exact h
    · exact cds_of_cleared h
  | @storeArea m t b i v =>
    simp only [CdsInv]
    rw [recent_concat_of_quiet (e := .storeArea b i v) trivial]
    exact h
  | @readFromCDS m t ptr off n ret =>
    simp only [CdsInv]
    rw [recent_concat_of_quiet (e := .readFromCDS ptr off n ret) trivial]
    exact h
  | @restart m t next =>
    simp only [CdsInv, Ending.nextResetType]
    rw [recent_concat_of_quiet (e := .restart next) trivial]
    intro hnext a ha
    split_ifs at hnext with ht
    · subst ht
      exact h a ha
    · exact absurd hnext (by decide)
  | crashInit =>
    simp only [CdsInv, Ending.nextResetType] at h ⊢
    rw [recent_concat_of_quiet (e := .crash) trivial]
    intro hnext
    split_ifs at h hnext with ht hdone hrest
    · exact h
    · exact absurd hnext (by decide)
    · subst hrest
      exact cds_of_cleared h
    · exact absurd hnext (by decide)
  | crashRunning =>
    simp only [CdsInv]
    rw [recent_concat_of_quiet (e := .crash) trivial]
    exact fun _ => h
  | @writeToCDS m t ptr off n ret hret =>
    simp only [CdsInv, recent_concat] at h ⊢
    intro a ha
    rw [← hret]
    exact writeToCDS_cds (h a ha)

end Steps

section Runs

variable {l : Layout} {tr : List Event} {s u : Sys}

/-- **The CDS of a running session holds its history**, in every run of boots without a command
line option. -/
theorem cdsInv_of_run (hboots : ∀ e ∈ tr, e.NoOption)
    (h : run (step l) ⟨0, .off .fresh⟩ tr = some s) : CdsInv l tr s := by
  refine (run_invariant
    (P := fun tr s => (∀ e ∈ tr, e.NoOption) → PhaseInv l s ∧ CdsInv l tr s) ?_ ?_ h hboots).2
  · intro hnil
    refine ⟨phaseInv_of_run hnil rfl, fun hnext => ?_⟩
    exact absurd hnext (by decide)
  intro tr s e u hinv hs hall
  obtain ⟨hphase, hcds⟩ := hinv fun e he => hall e (List.mem_append_left _ he)
  have he : e.NoOption := hall e (List.mem_append_right _ (List.mem_singleton_self e))
  exact ⟨hphase.step he hs, hcds.step hphase he hs⟩

/-- A refused write changes no byte of the CDS. -/
lemma cds_of_refused {ptr : Option (ℕ → UInt8)} {off n : Uint32} {ret : ℤ}
    (hs : step l s (.writeToCDS ptr off n ret) = some u) (hret : ret ≠ Status.success) :
    u.mem.cds = s.mem.cds := by
  cases step_iff.1 hs with
  | writeToCDS heq =>
    cases ptr with
    | none => rfl
    | some data =>
      have hok : ¬Memory.RangeOk l.cdsSize off n := by
        intro hok
        exact hret (heq.symm.trans (Memory.writeToCDS_success_iff.2 hok))
      exact congrArg Prod.snd (Memory.writeToCDS_of_not_ok hok)

/-- A read changes no byte of the CDS. -/
lemma cds_of_read {ptr : Option (ℕ → UInt8)} {off n : Uint32} {ret : ℤ}
    (hs : step l s (.readFromCDS ptr off n ret) = some u) : u.mem.cds = s.mem.cds := by
  cases step_iff.1 hs with
  | readFromCDS => rfl

/-- The event is a step of a processor reset: its boot, or any step of its initialisation. -/
def OfProcessorBoot (s : Sys) (e : Event) : Prop :=
  (∃ option, e = .boot option rstTypeProcessor) ∨
    ∃ done rest, s.phase = .initialising rstTypeProcessor done rest

/-- A processor reset changes no byte of the CDS. -/
lemma cds_of_processorBoot {e : Event} (hphase : PhaseInv l s) (he : OfProcessorBoot s e)
    (hs : step l s e = some u) : u.mem.cds = s.mem.cds := by
  cases step_iff.1 hs with
  | boot | enter | storeArea | readFromCDS | crashInit | crashRunning => rfl
  | @store m t done st rest =>
    obtain ⟨done', rest', ht⟩ := he.resolve_left nofun
    obtain ⟨rfl, -, -⟩ := Phase.initialising.inj ht
    refine apply_cds_of_mem_processor (l := l) ?_ m
    rw [← hphase.1]
    simp
  | writeToCDS | restart =>
    rcases he with ⟨option, he⟩ | ⟨done, rest, hp⟩
    · exact absurd he nofun
    · exact absurd hp nofun

/-- **The CDS persists across resets.** In every run from fresh segments of boots without a command
line option,

* a successful `CFE_PSP_ReadFromCDS` whose range does not wrap round returns, for each byte of the
  range, what the most recent successful write that covered it since the last power-on reset
  stored, and zero if there was none;
* refused writes, reads, and processor resets change no byte of the CDS.

**Proof sketch.** The first part is the CDS invariant, the second is about one step. -/
theorem cds_persistence (hboots : ∀ e ∈ tr, e.NoOption)
    (h : run (step l) ⟨0, .off .fresh⟩ tr = some s) :
    (∀ t, s.phase = .running t → ∀ buf (off n : Uint32), off.toNat + n.toNat < 2 ^ 32 →
      (Memory.readFromCDS .pcLinux l.cdsSize s.mem.cds (some buf) off n).1 = Status.success →
      (Memory.readFromCDS .pcLinux l.cdsSize s.mem.cds (some buf) off n).2 =
        some fun i => if i < n.toNat then recent tr (off.toNat + i) else buf i) ∧
    (∀ ptr off n ret u, step l s (.writeToCDS ptr off n ret) = some u → ret ≠ Status.success →
      u.mem.cds = s.mem.cds) ∧
    (∀ ptr off n ret u, step l s (.readFromCDS ptr off n ret) = some u →
      u.mem.cds = s.mem.cds) ∧
    ∀ e u, step l s e = some u → OfProcessorBoot s e → u.mem.cds = s.mem.cds := by
  refine ⟨fun t ht buf off n hwrap hsucc => ?_, fun _ _ _ _ _ => cds_of_refused,
    fun _ _ _ _ _ => cds_of_read, fun e u hs he => ?_⟩
  · have hexact : Memory.RangeOk l.cdsSize off n ↔ Memory.InCds l.cdsSize off n :=
      Memory.rangeOk_iff_inCds_iff.2 (.inr (.inl hwrap))
    have hin : Memory.InCds l.cdsSize off n := hexact.1 (Memory.readFromCDS_success_iff.1 hsucc)
    have hcds : ∀ a < l.cdsSize, s.mem.cds a = recent tr a := by
      simpa only [CdsInv, ht] using cdsInv_of_run hboots h
    rw [(Memory.cdsContract_of_iff hexact).read_data _ _ hsucc]
    refine congrArg some (funext fun i => ?_)
    split_ifs with hi
    · exact hcds _ (lt_of_lt_of_le (Nat.add_lt_add_left hi _) hin.2)
    · rfl
  · exact cds_of_processorBoot (phaseInv_of_run hboots h) he hs

/-- Two sessions, with a power-on and a processor reset: the first one writes two bytes. -/
def twoSessions : List Event :=
  .boot none rstTypePoweron :: List.replicate 12 .store ++
    [.enter, .writeToCDS (some fun i => UInt8.ofNat (7 + i)) 0 2 Status.success,
      .restart rstTypeProcessor, .boot none rstTypeProcessor, .store, .store, .enter]

/-- The second session reads the second byte. -/
theorem cds_persistence_of_two :
    ∃ s, run (step ⟨2, 0, 0, 0, false⟩) ⟨0, .off .fresh⟩ twoSessions = some s ∧
      (Memory.readFromCDS .pcLinux 2 s.mem.cds (some fun _ => 0) 1 1).2 =
        some (fun i => if i < 1 then recent twoSessions (1 + i) else 0) ∧
      recent twoSessions 1 = 8 := by
  have hboots : ∀ e ∈ twoSessions, e.NoOption := by
    simp [twoSessions, Event.NoOption]
  refine ⟨_, rfl, ?_, rfl⟩
  exact (cds_persistence (l := ⟨2, 0, 0, 0, false⟩) hboots rfl).1 rstTypeProcessor rfl
    (fun _ => 0) 1 1 (by decide) rfl

end Runs

end CfePsp.PcLinux
