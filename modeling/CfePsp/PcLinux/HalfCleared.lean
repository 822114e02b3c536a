import CfePsp.PcLinux.Boot

set_option relaxedAutoImplicit false
set_option autoImplicit false

/-!
# Half-cleared memory on the Linux port

A power-on reset clears the CDS, the reset area and the user-reserved area before it takes the mark
of the boot record away. When the reset was forced by the option `-R PO`, the boot record may ask
for a processor reset meanwhile: a crash among these stores leaves blocks that are cleared in part,
for a boot that takes them to be preserved.

## Main definitions

* `CfePsp.PcLinux.History` — the boot cycle, with what the blocks held when the last boot that
  completed its initialisation ended.
* `CfePsp.PcLinux.Preserves` — a boot that comes up as PROCESSOR finds the blocks as they were.
* `CfePsp.PcLinux.NotCutShort` — no crash leaves cleared blocks to a record that asks for PROCESSOR.

## Main results

* `CfePsp.PcLinux.always_preserves_iff` — the blocks are preserved in the states of a run exactly
  when no step of it is such a crash.
-/

namespace CfePsp.PcLinux

open Transition

/-! ## The blocks and their history -/

/-- The contents of the CDS, the reset area and the user-reserved area. -/
def Segments.blocks (m : Segments) : (ℕ → UInt8) × (ℕ → UInt8) × (ℕ → UInt8) :=
  (m.cds, m.area .reset, m.area .userReserved)

/-- The store is one to the three blocks. -/
def Store.ToBlocks : Store → Bool
  | .clearCds _ | .clearArea .reset _ | .clearArea .userReserved _ => true
  | _ => false

/-- The boot cycle with its history. -/
structure History where
  sys : Sys
  /-- The blocks when the last boot that completed its initialisation ended. -/
  ended : Option ((ℕ → UInt8) × (ℕ → UInt8) × (ℕ → UInt8))
  /-- A byte of the blocks was cleared since then. -/
  cleared : Bool

/-- Fresh segments, and no boot yet. -/
def History.init : History := ⟨⟨0, .off .fresh⟩, none, false⟩

/-- The event ends a boot that had completed its initialisation. -/
def Phase.endsBoot : Phase → Event → Bool
  | .running _, .restart _ | .running _, .crash => true
  | .initialising _ _ [], .crash => true
  | _, _ => false

/-- The event clears a byte of the blocks. -/
def Phase.clearsBlocks : Phase → Event → Bool
  | .initialising _ _ (st :: _), .store => st.ToBlocks
  | _, _ => false

/-- The event is not a boot with the option `-R PR`. -/
def Event.NotForcedProcessor : Event → Bool
  | .boot (some .processor) _ => false
  | _ => true

/-- The history after a step to `s`. -/
def History.after (h : History) (e : Event) (s : Sys) : History where
  sys := s
  ended := if h.sys.phase.endsBoot e then some h.sys.mem.blocks else h.ended
  cleared := !h.sys.phase.endsBoot e && (h.cleared || h.sys.phase.clearsBlocks e)

/-- A step of the boot cycle and its history. The only option that a boot is given is `-R PO`. -/
def track (l : Layout) (h : History) (e : Event) : Option History :=
  if e.NotForcedProcessor then (step l h.sys e).map (h.after e) else none

/-! ## What a PROCESSOR boot finds -/

/-- The blocks hold what they held when the last boot that completed its initialisation ended, and
no byte of them was cleared since then. -/
def History.Intact (h : History) : Prop := h.ended = some h.sys.mem.blocks ∧ h.cleared = false

/-- If a boot without an option comes up as PROCESSOR, it finds the blocks intact. -/
def Preserves (l : Layout) (h : History) : Prop :=
  ∀ u, track l h (.boot none rstTypeProcessor) = some u → h.Intact

/-- The event is not a crash of an initialisation that has cleared a byte of the blocks while the
boot record asks for a processor reset. -/
def NotCutShort (h : History) : Event → Prop
  | .crash => ∀ t done rest, h.sys.phase = .initialising t done rest → rest ≠ [] →
      (∃ st ∈ done, st.ToBlocks) → startupResetType none h.sys.mem ≠ rstTypeProcessor
  | _ => True

section Track

variable {l : Layout} {h u : History} {e : Event}

lemma track_eq_some : track l h e = some u ↔
    e.NotForcedProcessor ∧ ∃ s, step l h.sys e = some s ∧ h.after e s = u := by
  rw [track]
  cases e.NotForcedProcessor <;> simp

/-- What a state owes to a PROCESSOR boot, by its boot record. -/
lemma preserves_iff : Preserves l h ↔
    ∀ last, h.sys.phase = .off last → startupResetType none h.sys.mem = rstTypeProcessor →
      h.Intact := by
  constructor
  · intro hpres last hoff hproc
    have hstep : step l h.sys (.boot none rstTypeProcessor) =
        some ⟨h.sys.mem, .initialising rstTypeProcessor [] (initStores l rstTypeProcessor)⟩ := by
      simp only [step, hoff, if_pos hproc]
    exact hpres _ (track_eq_some.2 ⟨rfl, _, hstep, rfl⟩)
  · intro hall u hu
    obtain ⟨-, s, hs, -⟩ := track_eq_some.1 hu
    obtain ⟨⟨m, phase⟩, ended, cleared⟩ := h
    cases step_iff.1 hs with
    | boot hchoice => exact hall _ rfl hchoice

end Track

/-! ## The invariant -/

/-- The initialisation has made the stores `done` on the segments `m`, which it found intact if
their boot record asked for a processor reset; whether a byte was cleared since is told by what was
known then and by the stores. -/
structure Initialising (l : Layout) (h : History) (t : Uint32) (done rest : List Store)
    (m : Segments) (cleared : Bool) : Prop where
  cut : done ++ rest = initStores l t
  mem_eq : h.sys.mem = done.foldl Store.apply m
  chosen : t = rstTypeProcessor ∧ startupResetType none m = rstTypeProcessor ∨ t = rstTypePoweron
  found : startupResetType none m = rstTypeProcessor → h.ended = some m.blocks ∧ cleared = false
  cleared_iff : h.cleared = true ↔ cleared = true ∨ ∃ st ∈ done, st.ToBlocks

/-- **The invariant**: between boots the blocks are intact if the boot record asks for a processor
reset; an initialisation works on segments that were found so. -/
def HistoryInv (l : Layout) (h : History) : Prop :=
  match h.sys.phase with
  | .off _ => startupResetType none h.sys.mem = rstTypeProcessor → h.Intact
  | .initialising t done rest => ∃ m cleared, Initialising l h t done rest m cleared
  | .running _ => True

lemma poweron_ne_processor : rstTypePoweron ≠ rstTypeProcessor := by decide

section Inv

variable {l : Layout} {h u : History} {e : Event} {t : Uint32} {done rest : List Store}
  {m : Segments} {cleared : Bool}

/-- A store to another place leaves the blocks alone. -/
lemma Store.blocks_apply {st : Store} (hst : ¬st.ToBlocks) (m : Segments) :
    (st.apply m).blocks = m.blocks := by
  cases st with
  | clearCds i => exact absurd rfl hst
  | clearArea a i =>
    cases a with
    | reset | userReserved => exact absurd rfl hst
    | exception => rfl
  | clearFlag i | clearType i | setType t | setFlag v => rfl

/-- An initialisation that is not complete and that leaves a boot record that asks for a processor
reset has found such a record. -/
lemma Initialising.startup_found (hinit : Initialising l h t done rest m cleared)
    (hrest : rest ≠ []) (hproc : startupResetType none h.sys.mem = rstTypeProcessor) :
    startupResetType none m = rstTypeProcessor := by
  rcases hinit.chosen with ⟨-, hm⟩ | rfl
  · exact hm
  · refine (startupResetType_cases none m).resolve_right fun hpower => ?_
    have hcut := startup_of_cut_poweron hpower hinit.cut
    rw [← hinit.mem_eq, hproc, if_neg hrest] at hcut
    exact poweron_ne_processor hcut.symm

/-- **A crash during the initialisation** leaves the blocks intact, or a record that asks for a
power-on, unless a byte was cleared and the record asks for a processor reset. -/
lemma Initialising.intact_iff (hinit : Initialising l h t done rest m cleared) (hrest : rest ≠ [])
    (hproc : startupResetType none h.sys.mem = rstTypeProcessor) :
    h.Intact ↔ ¬∃ st ∈ done, st.ToBlocks := by
  obtain ⟨hended, hcleared⟩ := hinit.found (hinit.startup_found hrest hproc)
  constructor
  · rintro ⟨-, hfalse⟩ hex
    have htrue := hinit.cleared_iff.2 (.inr hex)
    rw [hfalse] at htrue
    cases htrue
  · intro hnone
    have hblocks : h.sys.mem.blocks = m.blocks := by
      rw [hinit.mem_eq]
      refine Crash.foldl_keeps Store.apply (P := fun m' => m'.blocks = m.blocks) ?_
        (List.append_nil done) rfl
      intro st hst m' hm'
      rw [Store.blocks_apply (fun hto => hnone ⟨st, hst, hto⟩), hm']
    refine ⟨by rw [hended, hblocks], Bool.eq_false_iff.2 fun htrue => ?_⟩
    rcases hinit.cleared_iff.1 htrue with hold | hex
    · rw [hcleared] at hold
      cases hold
    · exact hnone hex

/-- A crash of an initialisation that is not complete changes nothing but the phase. -/
lemma intact_after_crash (hphase : h.sys.phase = .initialising t done rest) (hrest : rest ≠ [])
    (last : Ending) : (h.after .crash ⟨h.sys.mem, .off last⟩).Intact ↔ h.Intact := by
  have hends : h.sys.phase.endsBoot .crash = false := by
    rw [hphase]
    cases rest with
    | nil => exact absurd rfl hrest
    | cons st rest => rfl
  have hclears : h.sys.phase.clearsBlocks .crash = false := by
    rw [hphase]
    cases rest <;> rfl
  simp [History.after, History.Intact, hends, hclears]

/-- A boot begins with the segments it finds. -/
lemma initialising_of_boot {option : Option ResetOption} (hoption : option ≠ some .processor)
    (hinv : startupResetType none h.sys.mem = rstTypeProcessor → h.Intact)
    (hchoice : startupResetType option h.sys.mem = t) (hmem : u.sys.mem = h.sys.mem)
    (hended : u.ended = h.ended) (hcleared : u.cleared = h.cleared) :
    Initialising l u t [] (initStores l t) h.sys.mem h.cleared := by
  refine ⟨rfl, hmem, ?_, fun hproc => ?_, by simp [hcleared]⟩
  · rcases startupResetType_cases option h.sys.mem with hproc | hpower
    · cases option with
      | none => exact .inl ⟨hchoice.symm.trans hproc, hproc⟩
      | some option =>
        cases option with
        | processor => exact absurd rfl hoption
        | powerOn => exact absurd hproc poweron_ne_processor
    · exact .inr (hchoice.symm.trans hpower)
  · rw [hended]
    exact hinv hproc

/-- The initialisation goes on with its next store. -/
lemma Initialising.store {st : Store} (hinit : Initialising l h t done (st :: rest) m cleared)
    (hmem : u.sys.mem = st.apply h.sys.mem) (hended : u.ended = h.ended)
    (hcleared : u.cleared = (h.cleared || st.ToBlocks)) :
    Initialising l u t (done ++ [st]) rest m cleared := by
  refine ⟨by simpa using hinit.cut, ?_, hinit.chosen, ?_, ?_⟩
  · rw [hmem, hinit.mem_eq, List.foldl_append]
    rfl
  · rw [hended]
    exact hinit.found
  · rw [hcleared, Bool.or_eq_true, hinit.cleared_iff, or_assoc]
    simp only [List.mem_append, List.mem_singleton, or_and_right, exists_or, exists_eq_left]

/-- **Every step keeps the invariant** but a crash that leaves cleared blocks to a record that asks
for a processor reset. -/
lemma HistoryInv.step (hinv : HistoryInv l h) (hsafe : NotCutShort h e)
    (hs : track l h e = some u) : HistoryInv l u := by
  obtain ⟨hoption, s, hstep, rfl⟩ := track_eq_some.1 hs
  obtain ⟨⟨mem, phase⟩, ended, cleared⟩ := h
  cases step_iff.1 hstep with
  | boot hchoice =>
    refine ⟨_, _, initialising_of_boot ?_ hinv hchoice rfl rfl ?_⟩
    · rintro rfl
      cases hoption
    · simp [History.after, Phase.endsBoot, Phase.clearsBlocks]
  | store =>
    obtain ⟨m, cleared₀, hinit⟩ := hinv
    refine ⟨m, cleared₀, hinit.store rfl rfl ?_⟩
    simp [History.after, Phase.endsBoot, Phase.clearsBlocks]
  | enter | storeArea | writeToCDS | readFromCDS => trivial
  | @restart _ _ next =>
    intro hproc
    refine ⟨congrArg some ?_, rfl⟩
    have hnext : next ≠ rstTypePoweron := by
      rintro rfl
      have hfresh : startupResetType none (restart rstTypePoweron mem) = rstTypePoweron :=
        startup_of_restart _ _
      exact poweron_ne_processor (hfresh.symm.trans hproc)
    show mem.blocks = (restart next mem).blocks
    rw [restart, if_neg hnext]
    rfl
  | @crashInit _ t done rest =>
    intro hproc
    by_cases hrest : rest = []
    · subst hrest
      exact ⟨rfl, rfl⟩
    · obtain ⟨m, cleared₀, hinit⟩ := hinv
      refine (intact_after_crash rfl hrest _).2 ((hinit.intact_iff hrest hproc).2 fun hex => ?_)
      exact hsafe t done rest rfl hrest hex hproc
  | crashRunning => exact fun _ => ⟨rfl, rfl⟩

/-- After every step that meets the condition, and only then, a PROCESSOR boot finds the blocks
intact. -/
lemma HistoryInv.preserves_after_iff (hinv : HistoryInv l h) :
    (∀ u, track l h e = some u → Preserves l u) ↔ NotCutShort h e := by
  constructor
  · intro hpres
    cases e with
    | crash =>
      intro t done rest hphase hrest hex hproc
      have hstep : PcLinux.step l h.sys .crash =
          some ⟨h.sys.mem, .off (.crashed t done rest)⟩ := by
        simp only [PcLinux.step, hphase]
      have hintact := preserves_iff.1 (hpres _ (track_eq_some.2 ⟨rfl, _, hstep, rfl⟩)) _ rfl hproc
      rw [intact_after_crash hphase hrest] at hintact
      simp only [HistoryInv, hphase] at hinv
      obtain ⟨m, cleared₀, hinit⟩ := hinv
      exact (hinit.intact_iff hrest hproc).1 hintact hex
    | _ => trivial
  · intro hsafe u hu
    have hafter := hinv.step hsafe hu
    refine preserves_iff.2 fun last hoff => ?_
    simp only [HistoryInv, hoff] at hafter
    exact hafter

end Inv

/-! ## Main result -/

/-- **Half-cleared memory on the Linux port.** In a run from fresh segments of boots without an
option or with `-R PO`, cut short anywhere: after every step a boot without an option that comes up
as PROCESSOR finds the CDS, the reset area and the user-reserved area as they were when the last
boot that completed its initialisation ended, with no byte cleared since, if and only if no step is
a crash of an initialisation that has cleared a byte of them while the boot record asks for a
processor reset.

**Proof sketch.** An initialisation that is not complete asks for a processor reset only if it found
a record that does; it has made no store to that record then, and the blocks are as it found them
exactly if it has cleared none of their bytes. -/
theorem always_preserves_iff (l : Layout) (tr : List Event) :
    Always (track l) (fun h e => ∀ u, track l h e = some u → Preserves l u) History.init tr ↔
      Always (track l) NotCutShort History.init tr := by
  refine always_iff (I := HistoryInv l) ?_ (fun _ _ _ hinv => hinv.step)
    fun _ _ hinv => hinv.preserves_after_iff
  intro hproc
  have hfresh : startupResetType none (0 : Segments) = rstTypePoweron := by decide
  exact absurd (hfresh.symm.trans hproc) poweron_ne_processor

/-- A session that stores a byte in the reset area and asks for a processor reset, a boot with
`-R PO`, and a crash after its first store. -/
def forcedPoweron : List Event :=
  .boot none rstTypePoweron :: List.replicate 11 .store ++
    [.enter, .storeArea .reset 0 0xAB, .restart rstTypeProcessor,
      .boot (some .powerOn) rstTypePoweron, .store, .crash]

/-- The next boot comes up as PROCESSOR and does not find that byte. -/
theorem halfCleared_of_forcedPoweron :
    ∃ h, run (track ⟨0, 1, 0, 0, false⟩) History.init forcedPoweron = some h ∧
      (track ⟨0, 1, 0, 0, false⟩ h (.boot none rstTypeProcessor)).isSome ∧
      h.ended ≠ some h.sys.mem.blocks ∧ h.cleared = true := by
  refine ⟨_, rfl, rfl, fun heq => ?_, rfl⟩
  have hbyte := congrArg (fun blocks => blocks.2.1 0) (Option.some.inj heq)
  exact absurd hbyte (by decide)

end CfePsp.PcLinux
