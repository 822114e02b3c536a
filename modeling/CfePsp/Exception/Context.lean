import CfePsp.Exception.Fifo

set_option relaxedAutoImplicit false
set_option autoImplicit false

/-!
# Fetching the context of an exception by its id

An id carries the low sixteen bits of a sequence number; its slot holds the low bits of that. What
ties an id to one exception is that `WriteComplete` takes the id out of the slot that is written
next. The same step takes the id away from the oldest pending exception as soon as the ring is
full, and with it the only way to its context.

## Main definitions

* `CfePsp.Exception.handOver` — what `CopyContext` returns when it finds a context.
* `CfePsp.Exception.ContextAvailable` — `GetSummary` followed by `CopyContext` hands over the
  context of the oldest pending exception.
* `CfePsp.Exception.IdLeadsTo` — where the sixteen bits of an id lead back to the context.

## Main results

* `CfePsp.Exception.copyContext_owner` — `CopyContext` never returns the context of an exception
  other than the last one with the id and in the slot it was asked for.
* `CfePsp.Exception.contextAvailable_iff` — the context of the oldest pending exception can be
  had exactly when the ring is not full.
-/

namespace CfePsp.Exception

open Transition

variable {c : Config} {τ : Type}

/-! ## Storage that started zeroed -/

section Runs

variable [Zero τ] [DecidableEq τ] {tr : List (Event c τ)} {s : Sys c τ}

/-- In every state reached from zeroed storage, an entry nothing was committed to has no id. -/
lemma freshIds_of_run (h : run step ⟨0, .idle⟩ tr = some s) :
    FreshIds (committed tr) s.storage := by
  refine (run_invariant (P := fun tr s => run step ⟨(0 : Storage c τ), .idle⟩ tr = some s ∧
    FreshIds (committed tr) s.storage) ⟨rfl, FreshIds.zero⟩ ?_ h).2
  rintro tr s e t ⟨hrun, hfresh⟩ hs
  refine ⟨run_concat.2 ⟨s, hrun, hs⟩, ?_⟩
  obtain ⟨q, -, done, hagree⟩ := agrees_of_run RingInv.zero hrun
  have hring := hagree.ring
  rcases storage_of_step hs with ⟨f, stored, rfl, hst, rfl⟩ | ⟨rfl, -, rfl⟩ |
    ⟨out, v, rfl, -, rfl⟩ | ⟨hsame, hquiet⟩
  · cases stored with
    | true =>
      have hlt : (committed tr).length < done + c.maxEntries := by
        refine lt_of_le_of_ne hring.room fun heq => ?_
        rw [getNextContextBuffer_eq_none.2 (hring.full_iff.2 heq)] at hst
        exact Bool.noConfusion hst
      rw [committed_concat]
      exact hfresh.handler_room hring hlt f
    | false =>
      have hfull : (getNextContextBuffer s.storage).1 = none :=
        Option.not_isSome_iff_eq_none.1 (by simp [hst])
      rw [exceptionHandler_of_full f (getNextContextBuffer_eq_none.1 hfull), committed_concat]
      simpa [Event.capture?] using hfresh
  · rw [committed_concat]
    simpa [Event.capture?, FreshIds, reset] using hfresh
  · rw [committed_concat]
    simpa [Event.capture?, FreshIds] using hfresh
  · rw [committed_concat, hquiet, hsame]
    simpa using hfresh

end Runs

/-! ## One call of `CopyContext` -/

/-- What `CopyContext` hands over of a context of `total` bytes `info` into a buffer of `size`
bytes: the number of bytes that fit, and the memory from `buf` on. -/
def handOver (total : Uint32) (info buf : ℕ → UInt8) (size : Uint32) : ℤ × (ℕ → UInt8) :=
  let n := min size.toNat total.toNat
  (Int.ofNat n, Cells.overlay buf info 0 n)

/-- The captured size fits an `int32`. -/
lemma Capture.contextSize_lt (f : Capture c τ) : f.contextSize.toNat < 2 ^ 31 :=
  f.size_le.trans_lt c.infoBytes_lt

/-- An entry that holds a capture has its context bytes. -/
lemma LogData.Holds.infoByte {d : LogData c τ} {f : Capture c τ} (h : d.Holds f) :
    d.infoByte = f.infoByte := by
  funext i
  simp only [LogData.infoByte, Capture.infoByte, h.2.2]

section Copy

variable {s : Storage c τ} {id : Uint32} {buf : ℕ → UInt8} {size : Uint32}

/-- An id that is out of range or not in its slot is refused, and nothing is copied. -/
lemma copyContext_refused (h : osObjectIndexMask < id - c.idBase ∨
    (s.entries (getBuffer c (id - c.idBase))).contextId ≠ id) :
    copyContext s id buf size = (Status.noExceptionData, buf) := by
  unfold copyContext
  by_cases hrange : osObjectIndexMask < id - c.idBase
  · simp only [if_pos hrange]
  · simp only [if_neg hrange, if_pos (h.resolve_left hrange)]

/-- The size `CopyContext` copies is the smaller of the two sizes. -/
lemma toNat_actualSize (total : Uint32) :
    (if total ≤ size then total else size).toNat = min size.toNat total.toNat := by
  split_ifs with hle
  · rw [BitVec.le_def] at hle
    omega
  · rw [BitVec.le_def] at hle
    omega

/-- An id that is in its slot fetches what the slot holds. -/
lemma copyContext_found (hrange : ¬osObjectIndexMask < id - c.idBase) {d : LogData c τ}
    (hd : s.entries (getBuffer c (id - c.idBase)) = d) (hid : d.contextId = id)
    (hsize : min size.toNat d.contextSize.toNat < 2 ^ 31) :
    copyContext s id buf size = handOver d.contextSize d.infoByte buf size := by
  have hne : ¬d.contextId ≠ id := not_not.2 hid
  have hnat : (if d.contextSize ≤ size then d.contextSize else size).toNat = _ :=
    toNat_actualSize d.contextSize
  have hint : (if d.contextSize ≤ size then d.contextSize else size).toInt =
      Int.ofNat (min size.toNat d.contextSize.toNat) := by
    rw [BitVec.toInt_eq_toNat_of_lt (by rw [hnat]; omega), hnat]
    rfl
  unfold copyContext handOver
  simp only [if_neg hrange, hd, if_neg hne, hint, hnat]

end Copy

/-! ## No other exception's data -/

/-- An id that is in range and in its slot is not zero, the mark of an expired entry. -/
lemma id_ne_zero_of_range {id : Uint32} (h : ¬osObjectIndexMask < id - c.idBase) : id ≠ 0 := by
  rintro rfl
  have hbase := idBase_toNat (c := c)
  have hlt := c.idBase.isLt
  rw [BitVec.lt_def, BitVec.toNat_sub] at h
  have hmask : osObjectIndexMask.toNat = 65535 := rfl
  have hzero : ((0 : Uint32)).toNat = 0 := rfl
  omega

/-- In a ring of at most `2 ^ 16` entries, sequence numbers less than a ring apart have different
ids. -/
lemma entryId_ne (hk : c.logEntries ≤ 16) {i j : ℕ} (hij : i < j) (hj : j < i + c.maxEntries) :
    c.entryId (BitVec.ofNat 32 j) ≠ c.entryId (BitVec.ofNat 32 i) := by
  intro h
  have hcap : c.maxEntries ≤ 2 ^ 16 := Nat.pow_le_pow_right (by omega) hk
  have hsub := congrArg (fun x => (x - c.idBase).toNat) h
  simp only [entryId_sub_idBase, toNat_and_indexMask,
    Window.toNat_ofNat_mod (show 16 ≤ 32 by omega)] at hsub
  exact Window.mod_ne_mod hij (by omega) hsub.symm

section Owner

variable [Zero τ] [DecidableEq τ]

/-- **`CopyContext` never returns another exception's data.** In every state reached from zeroed
storage, it either refuses and copies nothing, or the id is that of a committed exception, no
later exception has been given that id or that slot, and what is handed over is the context of
that exception.

**Proof sketch.** The slot has the id asked for, which is not zero; by
`RingInv.owner_of_id_ne_zero` it belongs to the last exception committed to it, less than a ring
ago. All that came later has another slot and, the ring being no longer than the ids reach,
another id. -/
theorem copyContext_owner (hk : c.logEntries ≤ 16) {tr : List (Event c τ)} {s : Sys c τ}
    (h : run step ⟨0, .idle⟩ tr = some s) (id : Uint32) (buf : ℕ → UInt8) (size : Uint32) :
    copyContext s.storage id buf size = (Status.noExceptionData, buf) ∨
      ∃ i f, (committed tr)[i]? = some f ∧ id = c.entryId (BitVec.ofNat 32 i) ∧
        (∀ j, i < j → j < (committed tr).length →
          c.entryId (BitVec.ofNat 32 j) ≠ id ∧ seqBuffer c j ≠ seqBuffer c i) ∧
        copyContext s.storage id buf size = handOver f.contextSize f.infoByte buf size := by
  by_cases href : osObjectIndexMask < id - c.idBase ∨
      (s.storage.entries (getBuffer c (id - c.idBase))).contextId ≠ id
  · exact .inl (copyContext_refused href)
  · obtain ⟨hrange, hid⟩ := not_or.1 href
    rw [not_not] at hid
    obtain ⟨q, -, done, hagree⟩ := agrees_of_run RingInv.zero h
    have hfresh := freshIds_of_run h
    obtain ⟨i, f, hi, -, hwin, hheld, hgiven⟩ := hagree.ring.owner_of_id_ne_zero hfresh
      (hid.symm ▸ id_ne_zero_of_range hrange)
    refine .inr ⟨i, f, hi, hid.symm.trans hgiven, fun j hij hj => ⟨?_, ?_⟩, ?_⟩
    · rw [← hid, hgiven]
      exact entryId_ne hk hij (by omega)
    · exact (seqBuffer_ne hij (by omega)).symm
    · have hsize := f.contextSize_lt
      rw [copyContext_found hrange rfl hid (by rw [hheld.1]; omega), hheld.1, hheld.infoByte]

end Owner

section Reuse

/-- `n` exceptions, each of which `Reset` discards. -/
def rounds (f : Capture c τ) : ℕ → List (Event c τ)
  | 0 => []
  | n + 1 => rounds f n ++ [.handler f true, .reset]

lemma committed_rounds (f : Capture c τ) (n : ℕ) : committed (rounds f n) = List.replicate n f := by
  induction n with
  | zero => rfl
  | succ n ih =>
    rw [List.replicate_succ', ← ih, rounds, committed, List.filterMap_append]
    rfl

/-- A ring in which everything was read has room. -/
lemma room_of_read {s : Storage c τ} (h : s.numRead = s.numWritten) :
    ¬BitVec.ofNat 32 c.maxEntries ≤ getCount s := by
  have hpos := c.maxEntries_pos
  have hle := c.maxEntries_le
  rw [getCount, h, BitVec.sub_self, BitVec.le_def, BitVec.toNat_ofNat,
    Nat.mod_eq_of_lt (by omega)]
  exact Nat.not_le.2 hpos

variable [Zero τ] [DecidableEq τ]

/-- A handler that finds everything read stores its exception. -/
lemma step_handler_of_read (f : Capture c τ) {s : Storage c τ} (h : s.numRead = s.numWritten) :
    step ⟨s, .idle⟩ (.handler f true) = some ⟨exceptionHandler f s, .idle⟩ :=
  if_pos (Option.isSome_iff_ne_none.2 (mt getNextContextBuffer_eq_none.1 (room_of_read h)))

/-- The rounds can be run, and everything is read after them. -/
lemma run_rounds (f : Capture c τ) (n : ℕ) : ∃ s : Storage c τ,
    run step ⟨0, .idle⟩ (rounds f n) = some ⟨s, .idle⟩ ∧ s.numWritten = BitVec.ofNat 32 n ∧
      s.numRead = s.numWritten := by
  induction n with
  | zero => exact ⟨0, rfl, rfl, rfl⟩
  | succ n ih =>
    obtain ⟨s, hrun, hwritten, hread⟩ := ih
    refine ⟨reset (exceptionHandler f s), ?_, ?_, rfl⟩
    · exact run_append.2 ⟨_, hrun, run_cons.2 ⟨_, step_handler_of_read f hread, rfl⟩⟩
    · rw [reset, exceptionHandler_of_room f (room_of_read hread), writeComplete_numWritten,
        setEntry_numWritten, hwritten]
      exact BitVec.ofNat_add_ofNat n 1

/-- The exception after the rounds is in its slot. -/
lemma run_rounds_concat (hc : 0 < c.logEntries) (f g : Capture c τ) (n : ℕ) : ∃ s : Sys c τ,
    run step ⟨0, .idle⟩ (rounds f n ++ [.handler g true]) = some s ∧
      s.storage.entries (seqBuffer c n) = g.toLogData (c.entryId (BitVec.ofNat 32 n)) := by
  obtain ⟨s, hrun, hwritten, hread⟩ := run_rounds f n
  refine ⟨_, run_concat.2 ⟨_, hrun, step_handler_of_read g hread⟩, ?_⟩
  have hring : 1 < c.maxEntries := Nat.one_lt_two_pow hc.ne'
  have hne : getBuffer c (BitVec.ofNat 32 n) ≠ getBuffer c (BitVec.ofNat 32 (n + 1)) :=
    getBuffer_ofNat_ne (by omega) (by omega)
  have hnext : BitVec.ofNat 32 n + 1 = BitVec.ofNat 32 (n + 1) := BitVec.ofNat_add_ofNat n 1
  rw [exceptionHandler_of_room g (room_of_read hread), hwritten, seqBuffer,
    writeComplete_entries_of_ne _ (by rwa [setEntry_numWritten, hwritten, hnext]),
    setEntry_entries_self]

/-- An exception that is given the first id once more, after 65536 others. -/
def sameId (k : Fin 32) : List (Event (Config.small k) ℕ) :=
  rounds (Capture.ofByte 7 1) 65536 ++ [.handler (Capture.ofByte 9 2) true]

/-- In a ring of two, the id and the slot are those of the first exception, the context is that of
the last. -/
theorem copyContext_owner_of_sameId :
    ∃ s : Sys (Config.small 1) ℕ, run step ⟨0, .idle⟩ (sameId 1) = some s ∧
      committed (sameId 1) =
        List.replicate 65536 (Capture.ofByte 7 1) ++ [Capture.ofByte 9 2] ∧
      (Config.small 1).entryId 0 = 0x1110000 ∧
      ∃ i f, (committed (sameId 1))[i]? = some f ∧
        0x1110000 = (Config.small 1).entryId (BitVec.ofNat 32 i) ∧
        (∀ j, i < j → j < (committed (sameId 1)).length →
          (Config.small 1).entryId (BitVec.ofNat 32 j) ≠ 0x1110000 ∧
            seqBuffer (Config.small 1) j ≠ seqBuffer (Config.small 1) i) ∧
        copyContext s.storage 0x1110000 (fun _ => 0) 8 =
          handOver f.contextSize f.infoByte (fun _ => 0) 8 ∧
        (copyContext s.storage 0x1110000 (fun _ => 0) 8).2 0 = 9 := by
  obtain ⟨s, hrun, hslot⟩ := run_rounds_concat (c := Config.small 1) (τ := ℕ) (by decide)
    (Capture.ofByte 7 1) (Capture.ofByte 9 2) 65536
  have hcommitted : committed (sameId 1) =
      List.replicate 65536 (Capture.ofByte 7 1) ++ [Capture.ofByte 9 2] := by
    rw [sameId, committed_concat, committed_rounds]
    rfl
  have hcopy : copyContext s.storage 0x1110000 (fun _ => 0) 8 =
      handOver 1 (Capture.ofByte 9 2 : Capture (Config.small 1) ℕ).infoByte (fun _ => 0) 8 :=
    @copyContext_found (Config.small 1) ℕ s.storage 0x1110000 (fun _ => 0) 8 (by decide) _ hslot
      (by decide) (by decide)
  refine ⟨s, hrun, hcommitted, by decide, ?_⟩
  rcases copyContext_owner (by decide) hrun 0x1110000 (fun _ => 0) 8 with
    href | ⟨i, f, hi, hid, hlater, hfound⟩
  · exact absurd (congrArg Prod.fst (hcopy.symm.trans href)) (by decide)
  · exact ⟨i, f, hi, hid, hlater, hfound, by rw [hcopy]; decide⟩

end Reuse

/-! ## The context of the oldest pending exception -/

/-- `GetSummary`, asked for an id, and `CopyContext`, called next with that id and a buffer that
is large enough, hand over the context of `f`. -/
def ContextAvailable (s : Storage c τ) (f : Capture c τ) : Prop :=
  ∀ a x, a.contextLogId = true →
    (getSummary a x s).1 = Status.success ∧
      ∃ id, (getSummary a x s).2.1.contextLogId = some id ∧ id ≠ 0 ∧
        ∀ buf size, f.contextSize ≤ size →
          copyContext (getSummary a x s).2.2 id buf size = (Int.ofNat f.contextSize.toNat,
            Cells.overlay buf f.infoByte 0 f.contextSize.toNat)

/-- The entry has the given id and the context of `f`. -/
def LogData.Serves (d : LogData c τ) (id : Uint32) (f : Capture c τ) : Prop :=
  d.contextId = id ∧ d.contextSize = f.contextSize ∧
    ∀ i < f.contextSize.toNat, d.infoByte i = f.infoByte i

/-- The sixteen bits in the id of the entry `n` lead to its own slot, or to one with the same id
and context. The first always holds in a ring of at most `2 ^ 16` entries. -/
def IdLeadsTo (s : Storage c τ) (n : ℕ) (f : Capture c τ) : Prop :=
  seqBuffer c (n % 2 ^ 16) = seqBuffer c n ∨
    (s.entries (seqBuffer c (n % 2 ^ 16))).Serves (c.entryId (BitVec.ofNat 32 n)) f

/-- The slot in which `CopyContext` looks for the entry `n`. -/
lemma getBuffer_entryId (n : ℕ) :
    getBuffer c (c.entryId (BitVec.ofNat 32 n) - c.idBase) = seqBuffer c (n % 2 ^ 16) := by
  rw [Fin.ext_iff, entryId_sub_idBase, seqBuffer, getBuffer_ofNat_val, getBuffer_val,
    toNat_and_indexMask, Window.toNat_ofNat_mod (show 16 ≤ 32 by omega)]

/-- The id of an entry is in range. -/
lemma entryId_inRange (seq : Uint32) : ¬osObjectIndexMask < c.entryId seq - c.idBase := by
  have hmask : osObjectIndexMask.toNat = 65535 := rfl
  rw [entryId_sub_idBase, BitVec.lt_def, toNat_and_indexMask]
  omega

/-- In a ring of at most `2 ^ 16` entries an id leads to its own slot. -/
lemma idLeadsTo_of_le (hk : c.logEntries ≤ 16) (s : Storage c τ) (n : ℕ) (f : Capture c τ) :
    IdLeadsTo s n f :=
  .inl (seqBuffer_eq_iff.2 (Nat.mod_mod_of_dvd n (Nat.pow_dvd_pow 2 hk)))

/-- `CopyContext` hands over the context of `f` to every buffer that is large enough exactly when
the slot it looks in serves `f`. -/
lemma copyContext_eq_iff {s : Storage c τ} {n : ℕ} {f : Capture c τ}
    (hsize : (s.entries (seqBuffer c (n % 2 ^ 16))).contextId ≠ 0 →
      (s.entries (seqBuffer c (n % 2 ^ 16))).contextSize.toNat < 2 ^ 31) :
    (∀ buf size, f.contextSize ≤ size →
      copyContext s (c.entryId (BitVec.ofNat 32 n)) buf size =
        (Int.ofNat f.contextSize.toNat, Cells.overlay buf f.infoByte 0 f.contextSize.toNat)) ↔
      (s.entries (seqBuffer c (n % 2 ^ 16))).Serves (c.entryId (BitVec.ofNat 32 n)) f := by
  rw [← getBuffer_entryId] at hsize ⊢
  set id := c.entryId (BitVec.ofNat 32 n)
  set d := s.entries (getBuffer c (id - c.idBase)) with hd
  have hrange : ¬osObjectIndexMask < id - c.idBase := entryId_inRange _
  constructor
  · intro hcopy
    by_cases hid : d.contextId = id
    · have hlt := hsize (hid ▸ entryId_ne_zero _)
      -- a buffer larger than any context shows the size and the bytes of the slot
      have hmax := hcopy (fun _ => 0) (BitVec.allOnes 32) (by
        rw [BitVec.le_def, BitVec.toNat_allOnes]
        omega)
      have hall : min (BitVec.allOnes 32).toNat d.contextSize.toNat = d.contextSize.toNat := by
        rw [BitVec.toNat_allOnes]
        omega
      rw [copyContext_found hrange hd.symm hid (by omega), handOver, hall, Prod.mk.injEq] at hmax
      have hnat : d.contextSize.toNat = f.contextSize.toNat := Int.ofNat.inj hmax.1
      rw [hnat] at hmax
      exact ⟨hid, BitVec.eq_of_toNat_eq hnat, Cells.eq_of_overlay_eq hmax.2⟩
    · -- a refusal is negative, a size is not
      have hneg := hcopy (fun _ => 0) f.contextSize (BitVec.le_refl _)
      rw [copyContext_refused (.inr hid)] at hneg
      simp [Status.noExceptionData] at hneg
  · rintro ⟨hid, htotal, hbytes⟩ buf size hle
    have hmin : min size.toNat d.contextSize.toNat = f.contextSize.toNat := by
      rw [htotal]
      rw [BitVec.le_def] at hle
      omega
    have hlt := f.contextSize_lt
    rw [copyContext_found hrange hd.symm hid (by omega), handOver, hmin]
    rw [Cells.overlay_congr hbytes]

/-- The two calls in terms of the id in the slot of the oldest pending entry. -/
lemma contextAvailable_iff_of_pending {s : Storage c τ} (hcount : getCount s ≠ 0)
    (f : Capture c τ) :
    ContextAvailable s f ↔ (s.entries (getBuffer c s.numRead)).contextId ≠ 0 ∧
      ∀ buf size, f.contextSize ≤ size →
        copyContext s (s.entries (getBuffer c s.numRead)).contextId buf size =
          (Int.ofNat f.contextSize.toNat,
            Cells.overlay buf f.infoByte 0 f.contextSize.toNat) := by
  constructor
  · intro h
    obtain ⟨-, hout, hafter⟩ := getSummary_of_pending ⟨true, false, false, 0⟩ ⟨none, none⟩ hcount
    obtain ⟨-, id, hid, hne, hcopy⟩ := h ⟨true, false, false, 0⟩ ⟨none, none⟩ rfl
    obtain rfl := Option.some.inj (hout.symm.trans hid)
    rw [hafter] at hcopy
    exact ⟨hne, hcopy⟩
  · rintro ⟨hne, hcopy⟩ a x ha
    obtain ⟨hret, hout, hafter⟩ := getSummary_of_pending a x hcount
    rw [if_pos ha] at hout
    rw [hafter]
    exact ⟨hret, _, hout, hne, hcopy⟩

/-- While the ring is not full, the slot its id leads to serves the oldest pending entry exactly
when the id leads there at all. -/
lemma RingInv.serves_iff {base done : ℕ} {log : List (Capture c τ)} {s : Storage c τ}
    (h : RingInv base log done s) (hlt : done < log.length)
    (hroom : log.length < done + c.maxEntries) :
    (s.entries (seqBuffer c ((base + done) % 2 ^ 16))).Serves
        (c.entryId (BitVec.ofNat 32 (base + done))) log[done] ↔
      IdLeadsTo s (base + done) log[done] := by
  refine ⟨.inr, ?_⟩
  rintro (hown | hserves)
  · have hheld := h.held done _ (List.getElem?_eq_getElem hlt) h.room
    rw [hown]
    exact ⟨h.live done hlt hroom, hheld.1, fun i _ => congrFun hheld.infoByte i⟩
  · exact hserves

section Available

variable [Zero τ] [DecidableEq τ]

/-- **The context of the oldest pending exception can be had exactly when the ring is not full.**
In every state reached from zeroed storage with something pending, `GetSummary` and
`CopyContext` hand over the context of the oldest pending entry `n` if and only if fewer than
`maxEntries` entries are pending and the sixteen bits of its id lead to it. In a ring of at most
`2 ^ 16` entries they always do.

**Proof sketch.** When the ring is full, the slot written next is that of the oldest entry, whose
id `WriteComplete` has taken away: `GetSummary` reports the id zero. Otherwise it reports the
entry's own id, and `copyContext_eq_iff` says when that id finds the context. -/
theorem contextAvailable_iff {tr : List (Event c τ)} {s : Sys c τ}
    (h : run step ⟨0, .idle⟩ tr = some s) :
    ∃ q, run Fifo.step (⟨0, [], false⟩ : Fifo c τ) tr = some q ∧
      ∀ f n rest, q.pending = (f, n) :: rest →
        (ContextAvailable s.storage f ↔
          q.pending.length < c.maxEntries ∧ IdLeadsTo s.storage n f) ∧
        (c.logEntries ≤ 16 →
          (ContextAvailable s.storage f ↔ q.pending.length < c.maxEntries)) := by
  obtain ⟨q, hq, done, hagree⟩ := agrees_of_run RingInv.zero h
  refine ⟨q, hq, fun f n rest hpend => ?_⟩
  have hring := hagree.ring
  have hlen := hagree.length_pending
  have hlt : done < (committed tr).length := by
    rw [hpend, List.length_cons] at hlen
    omega
  obtain ⟨rfl, rfl⟩ : (committed tr)[done] = f ∧ 0 + done = n := by
    have hhead := (hagree.pending_of_lt hlt).symm.trans hpend
    simpa using (List.cons.inj hhead).1
  have hcount : getCount s.storage ≠ 0 := fun h0 => by
    have := hring.getCount_eq_zero.1 h0
    omega
  have hslot : getBuffer c s.storage.numRead = seqBuffer c (0 + done) := by
    rw [hring.numRead, seqBuffer]
  have hid := hring.oldest_contextId hlt
  rw [← hslot] at hid
  have hsize : (s.storage.entries (seqBuffer c ((0 + done) % 2 ^ 16))).contextId ≠ 0 →
      (s.storage.entries (seqBuffer c ((0 + done) % 2 ^ 16))).contextSize.toNat < 2 ^ 31 := by
    intro hne
    obtain ⟨_, g, -, -, -, hheld, -⟩ := hring.owner_of_id_ne_zero (freshIds_of_run h) hne
    rw [hheld.1]
    exact g.contextSize_lt
  have hiff : ContextAvailable s.storage (committed tr)[done] ↔
      q.pending.length < c.maxEntries ∧ IdLeadsTo s.storage (0 + done) (committed tr)[done] := by
    rw [contextAvailable_iff_of_pending hcount, hid]
    by_cases hroom : (committed tr).length < done + c.maxEntries
    · rw [if_pos hroom, copyContext_eq_iff hsize, hring.serves_iff hlt hroom]
      exact and_congr_left fun _ => ⟨fun _ => by omega, fun _ => entryId_ne_zero _⟩
    · rw [if_neg hroom]
      exact ⟨fun hzero => absurd rfl hzero.1, fun hfull => by omega⟩
  refine ⟨hiff, fun hk => hiff.trans (and_iff_left (idLeadsTo_of_le hk _ _ _))⟩

/-- Four exceptions, one after the other. -/
def fourExceptions : List (Event (Config.small 2) ℕ) :=
  [.handler (Capture.ofByte 7 1) true, .handler (Capture.ofByte 8 2) true,
    .handler (Capture.ofByte 9 3) true, .handler (Capture.ofByte 10 4) true]

/-- Four unread exceptions in a ring of four: the oldest is pending, but `GetSummary` reports the
id zero for it, which `CopyContext` refuses. -/
theorem contextAvailable_lost_when_full :
    ∃ s q, run step ⟨0, .idle⟩ fourExceptions = some s ∧
      run Fifo.step ⟨0, [], false⟩ fourExceptions = some q ∧
      q.pending = [(Capture.ofByte 7 1, 0), (Capture.ofByte 8 2, 1), (Capture.ofByte 9 3, 2),
        (Capture.ofByte 10 4, 3)] ∧
      (getSummary ⟨true, false, false, 0⟩ ⟨none, none⟩ s.storage).2.1.contextLogId = some 0 ∧
      (copyContext s.storage 0 (fun _ => 0) 1).1 = Status.noExceptionData ∧
      ¬ContextAvailable s.storage (Capture.ofByte 7 1) := by
  refine ⟨_, _, rfl, rfl, rfl, by decide, by decide, fun h => ?_⟩
  obtain ⟨-, id, hid, hne, -⟩ := h ⟨true, false, false, 0⟩ ⟨none, none⟩ rfl
  exact hne (Option.some.inj hid).symm

/-- Three unread exceptions in a ring of four: the context of the oldest is there. -/
theorem contextAvailable_iff_of_three :
    ∃ s, run step ⟨0, .idle⟩ (fourExceptions.take 3) = some s ∧
      ContextAvailable s.storage (Capture.ofByte 7 1) := by
  refine ⟨_, rfl, ?_⟩
  obtain ⟨q, hq, hiff⟩ := @contextAvailable_iff (Config.small 2) ℕ _ _ (fourExceptions.take 3) _ rfl
  obtain rfl := Option.some.inj hq
  exact ((hiff (Capture.ofByte 7 1) 0 _ rfl).2 (by decide)).2 (by decide)

end Available

end CfePsp.Exception
