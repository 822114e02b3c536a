import CfePsp.Exception.Interleaving

set_option relaxedAutoImplicit false
set_option autoImplicit false

/-!
# The exception log is a bounded FIFO queue

What the exception log is for: a queue of captures that keeps the oldest `maxEntries` of them.
The storage, read access by access with handlers firing in between, refines it: every run of the
system of `CfePsp.Exception.step` is, event for event, a run of the queue.

## Main definitions

* `CfePsp.Exception.Fifo` — the queue, with the sequence numbers of its entries.
* `CfePsp.Exception.Fifo.step` — what the queue allows each event to do.

## Main results

* `CfePsp.Exception.exceptionLog_refines_fifo` — the refinement, together with what it says of
  `GetCount`, of dropped activations and of `GetSummary`.

## Design

The queue is empty at the moment `GetSummary` reads `NumWritten` exactly when the call goes on
to return `CFE_PSP_NO_EXCEPTION_DATA`; a handler may have filled it by then. The queue remembers
that moment in `sawEmpty`.
-/

namespace CfePsp.Exception

open Transition

variable {c : Config} {τ : Type}

/-! ## The queue -/

/-- A bounded FIFO queue of captures. -/
structure Fifo (c : Config) (τ : Type) where
  /-- The sequence number of the next entry. -/
  next : ℕ
  /-- The entries committed and not consumed with their sequence numbers, oldest first. -/
  pending : List (Capture c τ × ℕ)
  /-- Whether the queue was empty when the last call of `GetSummary` looked. -/
  sawEmpty : Bool

/-- The reported id, if one is wanted, is that of the entry `n`, or zero when it has expired. -/
def SummaryOut.IdOf (c : Config) (n : ℕ) (out : SummaryOut) : Prop :=
  out.contextLogId = none ∨ out.contextLogId = some 0 ∨
    out.contextLogId = some (c.entryId (BitVec.ofNat 32 n))

instance (n : ℕ) (out : SummaryOut) : Decidable (out.IdOf c n) :=
  inferInstanceAs (Decidable (_ ∨ _ ∨ _))

instance [DecidableEq τ] (d : LogData c τ) (f : Capture c τ) : Decidable (d.Holds f) :=
  inferInstanceAs (Decidable (_ ∧ _ ∧ _))

/-- The steps of the queue. A capture is appended as long as there is room and dropped when
there is none; `GetSummary` consumes the oldest entry, and what it shows the OSAL and the
summary implementation is that entry's. -/
def Fifo.step [DecidableEq τ] (q : Fifo c τ) : Event c τ → Option (Fifo c τ)
  | .handler f true =>
      if q.pending.length < c.maxEntries then
        some { q with next := q.next + 1, pending := q.pending ++ [(f, q.next)] }
      else none
  | .handler _ false => if q.pending.length = c.maxEntries then some q else none
  | .reset => some { q with pending := [] }
  | .count n => if n.toNat = q.pending.length then some q else none
  | .call _ => some { q with sawEmpty := q.pending.isEmpty }
  | .noData => if q.sawEmpty then some q else none
  | .lookup t _ =>
      match q.pending with
      | (f, _) :: _ => if f.sysTaskId = t then some q else none
      | [] => none
  | .implRead d =>
      match q.pending with
      | (f, _) :: _ => if d.Holds f then some q else none
      | [] => none
  | .success out =>
      match q.pending with
      | (_, n) :: rest => if out.IdOf c n then some { q with pending := rest } else none
      | [] => none
  | .copy _ _ _ | .access | .implReturn _ => some q

/-! ## The relation between the two -/

/-- The entries of a history that are still pending, with their sequence numbers. -/
def pendingOf (base : ℕ) (log : List (Capture c τ)) (done : ℕ) : List (Capture c τ × ℕ) :=
  (log.drop done).zipIdx (base + done)

@[simp] lemma length_pendingOf (base : ℕ) (log : List (Capture c τ)) (done : ℕ) :
    (pendingOf base log done).length = log.length - done := by
  simp [pendingOf]

/-- A commit appends to the pending entries. -/
lemma pendingOf_concat {base done : ℕ} {log : List (Capture c τ)} (h : done ≤ log.length)
    (f : Capture c τ) :
    pendingOf base (log ++ [f]) done = pendingOf base log done ++ [(f, base + log.length)] := by
  have hidx : base + done + (log.length - done) = base + log.length := by omega
  rw [pendingOf, List.drop_append_of_le_length h, List.zipIdx_append, List.length_drop, hidx]
  rfl

/-- The oldest pending entry is the first that was not consumed. -/
lemma pendingOf_of_lt {base done : ℕ} {log : List (Capture c τ)} (h : done < log.length) :
    pendingOf base log done =
      (log[done], base + done) :: pendingOf base log (done + 1) := by
  rw [pendingOf, List.drop_eq_getElem_cons h, List.zipIdx_cons]
  rfl

/-- What `GetSummary` knows at each point, for a log of `len` captures of which `done` are
consumed: handlers may have committed more since, but nobody else consumes. -/
def PcInv (base len done : ℕ) (sawEmpty : Bool) : Pc c → Prop
  | .idle => True
  | .sampled _ w => ∃ n, done ≤ n ∧ n ≤ len ∧ w = BitVec.ofNat 32 (base + n) ∧
      sawEmpty = decide (n = done)
  | .counted _ => done < len
  | .buffered _ b => done < len ∧ b = seqBuffer c (base + done)
  | .identified _ b out => done < len ∧ b = seqBuffer c (base + done) ∧ out.IdOf c (base + done)
  | .located _ b out => done < len ∧ b = seqBuffer c (base + done) ∧ out.IdOf c (base + done)
  | .summarised out => done < len ∧ out.IdOf c (base + done)
  | .popping out v => done < len ∧ out.IdOf c (base + done) ∧
      v = BitVec.ofNat 32 (base + done + 1)

/-- Further commits do not disturb a running `GetSummary`. -/
lemma PcInv.mono {base len len' done : ℕ} {sawEmpty : Bool} {pc : Pc c}
    (h : PcInv base len done sawEmpty pc) (hle : len ≤ len') :
    PcInv base len' done sawEmpty pc := by
  cases pc with
  | idle => trivial
  | sampled a w =>
    obtain ⟨n, h₁, h₂, h₃⟩ := h
    exact ⟨n, h₁, h₂.trans hle, h₃⟩
  | counted a => exact Nat.lt_of_lt_of_le h hle
  | buffered a b => exact ⟨h.1.trans_le hle, h.2⟩
  | identified a b out => exact ⟨h.1.trans_le hle, h.2⟩
  | located a b out => exact ⟨h.1.trans_le hle, h.2⟩
  | summarised out => exact ⟨h.1.trans_le hle, h.2⟩
  | popping out v => exact ⟨h.1.trans_le hle, h.2⟩

/-- The simulation relation: storage, application and queue agree on the history `log`, of which
`done` captures are consumed. -/
structure Agrees (base : ℕ) (log : List (Capture c τ)) (done : ℕ) (s : Sys c τ)
    (q : Fifo c τ) : Prop where
  ring : RingInv base log done s.storage
  next : q.next = base + log.length
  pending : q.pending = pendingOf base log done
  pc : PcInv base log.length done q.sawEmpty s.pc

section Refinement

variable {base done : ℕ} {log : List (Capture c τ)} {s t : Sys c τ} {q : Fifo c τ}

/-- The queue is as long as the log has unread entries. -/
lemma Agrees.length_pending (h : Agrees base log done s q) :
    q.pending.length = log.length - done := by
  rw [h.pending, length_pendingOf]

/-- While an entry is pending, the head of the queue is the first capture not consumed. -/
lemma Agrees.pending_of_lt (h : Agrees base log done s q) (hlt : done < log.length) :
    q.pending = (log[done], base + done) :: pendingOf base log (done + 1) := by
  rw [h.pending, pendingOf_of_lt hlt]

/-- The slot of the oldest pending entry holds what was captured for it. -/
lemma Agrees.oldest_holds (h : Agrees base log done s q) (hlt : done < log.length) :
    (s.storage.entries (seqBuffer c (base + done))).Holds log[done] :=
  h.ring.held done _ (List.getElem?_eq_getElem hlt) h.ring.room

/-- The id in the slot of the oldest pending entry is its own, or zero. -/
lemma Agrees.oldest_id (h : Agrees base log done s q) (hlt : done < log.length) :
    (s.storage.entries (seqBuffer c (base + done))).contextId = 0 ∨
      (s.storage.entries (seqBuffer c (base + done))).contextId =
        c.entryId (BitVec.ofNat 32 (base + done)) := by
  rw [h.ring.oldest_contextId hlt]
  split_ifs with hroom
  · exact .inr rfl
  · exact .inl rfl

variable [Zero τ] [DecidableEq τ]

/-- A handler activation: stored while there is room, dropped when the ring is full. -/
lemma Agrees.handler (h : Agrees base log done s q) {f : Capture c τ} {stored : Bool}
    (hs : (getNextContextBuffer s.storage).1.isSome = stored) :
    ∃ q', q.step (.handler f stored) = some q' ∧
      Agrees base (log ++ (Event.handler f stored).capture?.toList) done
        { s with storage := exceptionHandler f s.storage } q' := by
  have hroom := h.ring.room
  have hlen := h.length_pending
  have hpos := c.maxEntries_pos
  cases stored with
  | true =>
    have hlt : log.length < done + c.maxEntries := by
      refine lt_of_le_of_ne hroom fun heq => ?_
      rw [getNextContextBuffer_eq_none.2 (h.ring.full_iff.2 heq)] at hs
      exact Bool.noConfusion hs
    refine ⟨_, if_pos (by omega), h.ring.handler_room hlt f, ?_, ?_, h.pc.mono (by simp)⟩
    · simp only [h.next, Event.capture?, Option.toList_some, List.length_append,
        List.length_singleton, Nat.add_assoc]
    · simp only [Event.capture?, Option.toList_some, pendingOf_concat h.ring.done_le, h.pending,
        h.next]
  | false =>
    have heq : log.length = done + c.maxEntries := by
      rw [← h.ring.full_iff, ← getNextContextBuffer_eq_none]
      exact Option.not_isSome_iff_eq_none.1 (by simp [hs])
    rw [h.ring.handler_full heq f]
    exact ⟨q, if_pos (by omega), by simpa [Event.capture?] using h⟩

omit [Zero τ] [DecidableEq τ] in
/-- A step of the application that leaves the storage and the entries of the queue alone. -/
lemma Agrees.move (h : Agrees base log done s q) {pc : Pc c} {sawEmpty : Bool}
    (hpc : PcInv base log.length done sawEmpty pc) :
    Agrees base log done ⟨s.storage, pc⟩ ⟨q.next, q.pending, sawEmpty⟩ :=
  ⟨h.ring, h.next, h.pending, hpc⟩

omit [Zero τ] [DecidableEq τ] in
/-- An access of `GetSummary` that only it sees. -/
lemma Agrees.access (h : Agrees base log done s q) {pc : Pc c}
    (hpc : access s.storage s.pc = some pc) :
    Agrees base log done { s with pc := pc } q := by
  have hring := h.ring
  have hread := hring.numRead
  have hinv := h.pc
  refine ⟨hring, h.next, h.pending, ?_⟩
  cases hcur : s.pc with
  | idle => simp [Exception.access, hcur] at hpc
  | sampled a w =>
    rw [hcur] at hpc hinv
    obtain ⟨n, hdn, hnl, rfl, -⟩ := hinv
    simp only [Exception.access] at hpc
    split_ifs at hpc with hzero
    obtain rfl := Option.some.inj hpc
    -- the sampled count was not zero, so an entry was pending then and still is
    refine Nat.lt_of_lt_of_le (lt_of_le_of_ne hdn fun heq => hzero ?_) hnl
    rw [hread, heq, BitVec.sub_self]
    rfl
  | counted a =>
    rw [hcur] at hpc hinv
    obtain rfl := Option.some.inj hpc
    exact ⟨hinv, by rw [hread, seqBuffer]⟩
  | buffered a b =>
    rw [hcur] at hpc hinv
    obtain rfl := Option.some.inj hpc
    obtain ⟨hlt, rfl⟩ := hinv
    refine ⟨hlt, rfl, ?_⟩
    cases a.contextLogId with
    | false => exact .inl rfl
    | true => exact .inr ((h.oldest_id hlt).imp (congrArg some) (congrArg some))
  | identified a b out =>
    rw [hcur] at hpc hinv
    simp only [Exception.access] at hpc
    split_ifs at hpc
    obtain rfl := Option.some.inj hpc
    exact hinv
  | located a b out =>
    rw [hcur] at hpc hinv
    simp only [Exception.access] at hpc
    split_ifs at hpc
    obtain rfl := Option.some.inj hpc
    exact ⟨hinv.1, hinv.2.2⟩
  | summarised out =>
    rw [hcur] at hpc hinv
    obtain rfl := Option.some.inj hpc
    refine ⟨hinv.1, hinv.2, ?_⟩
    rw [hread, BitVec.ofNat_add (base + done) 1]
    rfl
  | popping out v => simp [Exception.access, hcur] at hpc

omit [Zero τ] [DecidableEq τ] in
/-- When the sampled counter equals `NumRead`, nothing was pending at the moment it was read. -/
lemma Agrees.sawEmpty_of_noData (h : Agrees base log done s q) {a : SummaryArgs} {w : Uint32}
    (hpc : s.pc = .sampled a w) (hzero : w - s.storage.numRead = 0) : q.sawEmpty = true := by
  have hinv := h.pc
  rw [hpc] at hinv
  obtain ⟨n, hdn, hnl, rfl, hempty⟩ := hinv
  have hroom := h.ring.room
  have hcap := c.maxEntries_le
  have hsub := Window.toNat_ofNat_sub_ofNat (w := 32) (n := base + n) (r := base + done)
    (by omega) (by omega)
  rw [← h.ring.numRead, hzero] at hsub
  have hzeroNat : ((0 : Uint32)).toNat = 0 := rfl
  have hn : n = done := by omega
  rw [hempty, decide_eq_true hn]

omit [Zero τ] in
/-- The last access of `GetSummary` consumes the oldest entry. -/
lemma Agrees.success (h : Agrees base log done s q) {out : SummaryOut} {v : Uint32}
    (hpc : s.pc = .popping out v) :
    ∃ q', q.step (.success out) = some q' ∧
      Agrees base log (done + 1) ⟨{ s.storage with numRead := v }, .idle⟩ q' := by
  have hinv := h.pc
  rw [hpc] at hinv
  obtain ⟨hlt, hid, rfl⟩ := hinv
  have hstep : q.step (.success out) =
      some { q with pending := pendingOf base log (done + 1) } := by
    simp only [Fifo.step, h.pending_of_lt hlt]
    exact if_pos hid
  have hincr : s.storage.numRead + 1 = BitVec.ofNat 32 (base + done + 1) := by
    rw [h.ring.numRead, BitVec.ofNat_add (base + done) 1]
    rfl
  have hpop := h.ring.pop hlt
  rw [hincr] at hpop
  exact ⟨_, hstep, hpop, h.next, rfl, trivial⟩

omit [Zero τ] [DecidableEq τ] in
/-- An event that commits nothing leaves the history as it is. -/
lemma Agrees.quiet (h : Agrees base log done s q) {e : Event c τ} (he : e.capture? = none) :
    Agrees base (log ++ e.capture?.toList) done s q := by
  simpa [he] using h

/-- **The step lemma of the refinement.** Every step of the system is allowed by the queue. -/
lemma Agrees.step (h : Agrees base log done s q) {e : Event c τ}
    (hs : Exception.step s e = some t) :
    ∃ q' done', q.step e = some q' ∧ Agrees base (log ++ e.capture?.toList) done' t q' := by
  have hlen := h.length_pending
  have hdone := h.ring.done_le
  cases e with
  | handler f stored =>
    simp only [Exception.step] at hs
    split_ifs at hs with hst
    obtain rfl := Option.some.inj hs
    obtain ⟨q', hq, hagree⟩ := h.handler hst
    exact ⟨q', done, hq, hagree⟩
  | reset =>
    cases hpc : s.pc <;> simp only [Exception.step, hpc, reduceCtorEq] at hs
    obtain rfl := Option.some.inj hs
    have hagree : Agrees base log log.length ⟨reset s.storage, .idle⟩
        { q with pending := [] } :=
      ⟨h.ring.reset, h.next, by simp [pendingOf], trivial⟩
    exact ⟨_, log.length, rfl, hagree.quiet rfl⟩
  | count n =>
    cases hpc : s.pc <;> simp only [Exception.step, hpc, reduceCtorEq] at hs
    split_ifs at hs with hn
    obtain rfl := Option.some.inj hs
    refine ⟨q, done, if_pos ?_, h.quiet rfl⟩
    rw [← hn, h.ring.getCount_toNat, hlen]
  | copy id size ret =>
    cases hpc : s.pc <;> simp only [Exception.step, hpc, reduceCtorEq] at hs
    split_ifs at hs
    obtain rfl := Option.some.inj hs
    exact ⟨q, done, rfl, h.quiet rfl⟩
  | call a =>
    cases hpc : s.pc <;> simp only [Exception.step, hpc, reduceCtorEq] at hs
    obtain rfl := Option.some.inj hs
    have hempty : q.pending.isEmpty = decide (log.length = done) := by
      rw [Bool.eq_iff_iff]
      simp only [List.isEmpty_iff_length_eq_zero, hlen, decide_eq_true_eq]
      omega
    have hsampled : PcInv base log.length done q.pending.isEmpty
        (.sampled a s.storage.numWritten : Pc c) :=
      ⟨log.length, hdone, le_rfl, h.ring.numWritten, hempty⟩
    have hagree := h.move hsampled
    exact ⟨_, done, rfl, hagree.quiet rfl⟩
  | noData =>
    cases hpc : s.pc <;> simp only [Exception.step, hpc, reduceCtorEq] at hs
    split_ifs at hs with hzero
    obtain rfl := Option.some.inj hs
    have hsaw := h.sawEmpty_of_noData hpc hzero
    have hidle : PcInv base log.length done q.sawEmpty (.idle : Pc c) := trivial
    have hagree := h.move hidle
    exact ⟨q, done, if_pos hsaw, hagree.quiet rfl⟩
  | access =>
    simp only [Exception.step, Option.map_eq_some_iff] at hs
    obtain ⟨pc, hpc, rfl⟩ := hs
    exact ⟨q, done, rfl, (h.access hpc).quiet rfl⟩
  | lookup task found =>
    cases hpc : s.pc <;> simp only [Exception.step, hpc, reduceCtorEq] at hs
    split_ifs at hs with htask
    obtain rfl := Option.some.inj hs
    have hinv := h.pc
    rw [hpc] at hinv
    obtain ⟨hlt, rfl, hid⟩ := hinv
    have hstep : q.step (.lookup task found) = some q := by
      simp only [Fifo.step, h.pending_of_lt hlt]
      exact if_pos ((h.oldest_holds hlt).2.1.symm.trans htask.2)
    refine ⟨q, done, hstep, Agrees.quiet (h.move ?_) rfl⟩
    exact ⟨hlt, rfl, hid⟩
  | implRead d =>
    cases hpc : s.pc <;> simp only [Exception.step, hpc, reduceCtorEq] at hs
    split_ifs at hs with hd
    obtain rfl := Option.some.inj hs
    have hinv := h.pc
    rw [hpc] at hinv
    obtain ⟨hlt, rfl, hid⟩ := hinv
    have hstep : q.step (.implRead d) = some q := by
      simp only [Fifo.step, h.pending_of_lt hlt]
      exact if_pos (hd.2 ▸ h.oldest_holds hlt)
    exact ⟨q, done, hstep, h.quiet rfl⟩
  | implReturn summary =>
    cases hpc : s.pc <;> simp only [Exception.step, hpc, reduceCtorEq] at hs
    split_ifs at hs
    obtain rfl := Option.some.inj hs
    have hinv := h.pc
    rw [hpc] at hinv
    refine ⟨q, done, rfl, Agrees.quiet (h.move ?_) rfl⟩
    exact ⟨hinv.1, hinv.2.2⟩
  | success out =>
    cases hpc : s.pc with
    | popping out' v =>
      simp only [Exception.step, hpc] at hs
      split_ifs at hs with hout
      subst hout
      obtain rfl := Option.some.inj hs
      obtain ⟨q', hq, hagree⟩ := h.success hpc
      exact ⟨q', done + 1, hq, hagree.quiet rfl⟩
    | _ => simp only [Exception.step, hpc, reduceCtorEq] at hs

end Refinement

/-! ## The refinement -/

section Main

variable [Zero τ] [DecidableEq τ]

/-- Every run from storage with an empty history agrees with a run of the queue. -/
lemma agrees_of_run {base : ℕ} {s₀ : Storage c τ} (h₀ : RingInv base [] 0 s₀)
    {tr : List (Event c τ)} {s : Sys c τ} (h : run step ⟨s₀, .idle⟩ tr = some s) :
    ∃ q, run Fifo.step (⟨base, [], false⟩ : Fifo c τ) tr = some q ∧
      ∃ done, Agrees base (committed tr) done s q := by
  have hagree : Agrees base [] 0 (⟨s₀, .idle⟩ : Sys c τ) ⟨base, [], false⟩ :=
    ⟨h₀, rfl, rfl, trivial⟩
  refine run_simulates (R := fun tr s q => ∃ done, Agrees base (committed tr) done s q)
    ⟨0, hagree⟩ ?_ h
  rintro tr s q e t ⟨done, hagree⟩ hs
  obtain ⟨q', done', hq, hagree'⟩ := hagree.step hs
  rw [← committed_concat] at hagree'
  exact ⟨q', hq, done', hagree'⟩

/-- **The exception log refines a bounded FIFO queue.** Take storage that is zeroed, or any
storage just after `Reset`, and any run of handler activations, `GetSummary`, `GetCount`,
`CopyContext` and `Reset`, with handlers firing between any two accesses of `GetSummary`. The
queue allows the same events, and where it ends:

* `GetCount` is the number of pending entries, which is at most `maxEntries`;
* a handler activation is dropped exactly when `maxEntries` entries are pending;
* a `GetSummary` about to return `CFE_PSP_SUCCESS` consumes exactly one entry, the oldest.

**Proof sketch.** The relation `Agrees` holds at the start and is kept by every step
(`Agrees.step`), so the simulation rule applies. -/
theorem exceptionLog_refines_fifo {s₀ : Storage c τ} (h₀ : s₀ = 0 ∨ ∃ s, s₀ = reset s)
    {tr : List (Event c τ)} {s : Sys c τ} (h : run step ⟨s₀, .idle⟩ tr = some s) :
    ∃ q, run Fifo.step (⟨s₀.numWritten.toNat, [], false⟩ : Fifo c τ) tr = some q ∧
      (getCount s.storage).toNat = q.pending.length ∧
      q.pending.length ≤ c.maxEntries ∧
      ((getNextContextBuffer s.storage).1 = none ↔ q.pending.length = c.maxEntries) ∧
      ∀ out t, step s (.success out) = some t →
        ∃ f n rest, q.pending = (f, n) :: rest ∧ out.IdOf c n ∧
          q.step (.success out) = some { q with pending := rest } := by
  have hring : RingInv s₀.numWritten.toNat [] 0 s₀ := by
    rcases h₀ with rfl | ⟨s, rfl⟩
    · exact RingInv.zero
    · exact RingInv.of_reset s
  obtain ⟨q, hq, done, hagree⟩ := agrees_of_run hring h
  have hlen := hagree.length_pending
  have hroom := hagree.ring.room
  have hdone := hagree.ring.done_le
  refine ⟨q, hq, ?_, by omega, ?_, ?_⟩
  · rw [hagree.ring.getCount_toNat, hlen]
  · rw [getNextContextBuffer_eq_none, hagree.ring.full_iff, hlen]
    omega
  · intro out t hstep
    obtain ⟨q', _, hq', -⟩ := hagree.step hstep
    cases hpend : q.pending with
    | nil => simp [Fifo.step, hpend] at hq'
    | cons head rest =>
      obtain ⟨f, n⟩ := head
      have hid : out.IdOf c n := by
        simp only [Fifo.step, hpend] at hq'
        split_ifs at hq' with hid
        exact hid
      refine ⟨f, n, rest, rfl, hid, ?_⟩
      simp only [Fifo.step, hpend, if_pos hid]

/-- A second exception arrives while `GetSummary` is busy with the first, and a third finds a ring
of two full. -/
def summarising (k : Fin 32) : List (Event (Config.small k) ℕ) :=
  [.handler (Capture.ofByte 7 1) true, .call ⟨true, false, false, 0⟩, .access, .access, .access,
    .handler (Capture.ofByte 8 2) true, .handler (Capture.ofByte 5 5) false, .access, .access,
    .access]

/-- Both are pending when `GetSummary` is about to return, and it consumes the first. -/
theorem exceptionLog_refines_fifo_of_summarising :
    ∃ s q, run step (⟨0, .idle⟩ : Sys (Config.small 1) ℕ) (summarising 1) = some s ∧
      run Fifo.step (⟨0, [], false⟩ : Fifo (Config.small 1) ℕ) (summarising 1) = some q ∧
      (getCount s.storage).toNat = q.pending.length ∧
      q.pending = [(Capture.ofByte 7 1, 0), (Capture.ofByte 8 2, 1)] ∧
      (getNextContextBuffer s.storage).1 = none ∧
      ∃ t, step s (.success ⟨some 0x1110000, none, none⟩) = some t ∧
        ∃ f n rest, q.pending = (f, n) :: rest ∧
          SummaryOut.IdOf (Config.small 1) n ⟨some 0x1110000, none, none⟩ ∧
          q.step (.success ⟨some 0x1110000, none, none⟩) = some { q with pending := rest } := by
  have hrun : run step (⟨0, .idle⟩ : Sys (Config.small 1) ℕ) (summarising 1) = some _ := rfl
  obtain ⟨q, hq, hcount, -, hfull, hsuccess⟩ := exceptionLog_refines_fifo (.inl rfl) hrun
  obtain rfl : _ = q := Option.some.inj hq
  exact ⟨_, _, rfl, rfl, hcount, rfl, hfull.2 rfl, _, rfl, hsuccess _ _ rfl⟩

end Main

end CfePsp.Exception
