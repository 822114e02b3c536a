import CfePsp.Exception.Storage

set_option relaxedAutoImplicit false
set_option autoImplicit false

/-!
# The ring invariant of the exception log

What the storage holds is described by the *history* of the log: the captures committed so
far, in order, and how many of them have been consumed. The counters of the storage are these
two numbers modulo `2 ^ 32`, counted from some `base`; the entry with sequence number `n` lives
in the slot `n` modulo the capacity until the ring comes round to that slot again.

## Main definitions

* `CfePsp.Exception.RingInv` — the storage agrees with a history.
* `CfePsp.Exception.FreshIds` — an entry that was never written carries no id; true of storage
  that started zeroed.

## Main results

* `CfePsp.Exception.RingInv.getCount_toNat` — the fill level is the number of captures
  committed and not consumed.
* `CfePsp.Exception.RingInv.oldest_contextId` — the oldest pending entry has lost its id exactly
  when the ring is full.
* `CfePsp.Exception.RingInv.handler_room`, `CfePsp.Exception.RingInv.pop`,
  `CfePsp.Exception.RingInv.reset` — the operations keep the invariant.
* `CfePsp.Exception.RingInv.owner_of_id_ne_zero` — a non-zero id in a slot is that of the last
  entry written there, and the slot is not the one written next.
-/

namespace CfePsp.Exception

variable {c : Config} {τ : Type}

/-- The buffer of the entry with sequence number `n`. -/
def seqBuffer (c : Config) (n : ℕ) : Fin c.maxEntries := getBuffer c (BitVec.ofNat 32 n)

/-- Sequence numbers less than a ring apart have different buffers. -/
lemma seqBuffer_ne {i j : ℕ} (hij : i < j) (hj : j < i + c.maxEntries) :
    seqBuffer c i ≠ seqBuffer c j :=
  getBuffer_ofNat_ne hij hj

/-- The buffer of a sequence number is used again one ring later. -/
lemma seqBuffer_eq_iff {i j : ℕ} :
    seqBuffer c i = seqBuffer c j ↔ i % c.maxEntries = j % c.maxEntries := by
  rw [Fin.ext_iff, seqBuffer, seqBuffer, getBuffer_ofNat_val, getBuffer_ofNat_val]

/-! ## Entry ids -/

/-- The index part of an id gives back the low half of the sequence number. -/
lemma entryId_sub_idBase (seq : Uint32) :
    c.entryId seq - c.idBase = seq &&& osObjectIndexMask := by
  rw [Config.entryId, BitVec.add_comm, BitVec.add_sub_cancel]

/-- The id base has an index part of zero and is not itself zero. -/
lemma idBase_toNat : c.idBase.toNat % 2 ^ 16 = 0 ∧ c.idBase.toNat ≠ 0 := by
  refine ⟨toNat_shiftLeft_typeShift _, fun h => ?_⟩
  exact c.exceptionType_ne (BitVec.eq_of_toNat_eq h)

/-- No entry is given the id zero, which marks expired entries. -/
lemma entryId_ne_zero (seq : Uint32) : c.entryId seq ≠ 0 := by
  intro h
  have hbase := idBase_toNat (c := c)
  have hmask := toNat_and_indexMask seq
  have hlt := c.idBase.isLt
  have hsum : (c.idBase.toNat + (seq &&& osObjectIndexMask).toNat) % 2 ^ 32 = 0 := by
    rw [← BitVec.toNat_add]
    exact congrArg BitVec.toNat h
  omega

/-! ## The invariant -/

/-- **The ring invariant**: `s` is the storage after the captures `log` were committed, the
first `done` of them consumed, with the counters starting at `base`. An entry keeps what its
handler captured until the ring has come round to its slot, and its id until the slot is the
one written next, when `WriteComplete` takes it away. -/
structure RingInv (base : ℕ) (log : List (Capture c τ)) (done : ℕ) (s : Storage c τ) :
    Prop where
  numWritten : s.numWritten = BitVec.ofNat 32 (base + log.length)
  numRead : s.numRead = BitVec.ofNat 32 (base + done)
  done_le : done ≤ log.length
  room : log.length ≤ done + c.maxEntries
  held : ∀ i f, log[i]? = some f → log.length ≤ i + c.maxEntries →
    (s.entries (seqBuffer c (base + i))).Holds f
  live : ∀ i, i < log.length → log.length < i + c.maxEntries →
    (s.entries (seqBuffer c (base + i))).contextId = c.entryId (BitVec.ofNat 32 (base + i))
  expired : log ≠ [] → (s.entries (seqBuffer c (base + log.length))).contextId = 0

/-- Entries that no capture was committed to have no id. -/
def FreshIds (log : List (Capture c τ)) (s : Storage c τ) : Prop :=
  ∀ b, (∀ i < log.length, seqBuffer c i ≠ b) → (s.entries b).contextId = 0

/-! ## Where the invariant starts -/

/-- Any storage is, just after `Reset`, the storage of an empty history. -/
lemma RingInv.of_reset (s : Storage c τ) : RingInv s.numWritten.toNat [] 0 (reset s) where
  numWritten := by simp [Exception.reset]
  numRead := by simp [Exception.reset]
  done_le := le_rfl
  room := by simp
  held := by simp
  live := by simp
  expired := by simp

/-- Zeroed storage is the storage of an empty history. -/
lemma RingInv.zero [Zero τ] : RingInv 0 [] 0 (0 : Storage c τ) where
  numWritten := rfl
  numRead := rfl
  done_le := le_rfl
  room := by simp
  held := by simp
  live := by simp
  expired := by simp

/-- In zeroed storage no entry has an id. -/
lemma FreshIds.zero [Zero τ] : FreshIds [] (0 : Storage c τ) := fun _ _ => rfl

/-! ## The fill level -/

section Steps

variable {base done : ℕ} {log : List (Capture c τ)} {s : Storage c τ}

/-- `GetCount` is the number of captures committed and not consumed. -/
lemma RingInv.getCount_toNat (h : RingInv base log done s) :
    (getCount s).toNat = log.length - done := by
  have hcap := c.maxEntries_le
  have hroom := h.room
  have hdone := h.done_le
  rw [getCount, h.numWritten, h.numRead, Window.toNat_ofNat_sub_ofNat (by omega) (by omega)]
  omega

/-- The log is empty exactly when the count is zero. -/
lemma RingInv.getCount_eq_zero (h : RingInv base log done s) :
    getCount s = 0 ↔ done = log.length := by
  have hcount := h.getCount_toNat
  have hdone := h.done_le
  constructor
  · intro h0
    rw [h0] at hcount
    have : ((0 : Uint32)).toNat = 0 := rfl
    omega
  · intro hd
    exact BitVec.eq_of_toNat_eq (by rw [hcount, hd]; simp)

/-- The handler's test for a full ring tests the fill level. -/
lemma RingInv.full_iff (h : RingInv base log done s) :
    BitVec.ofNat 32 c.maxEntries ≤ getCount s ↔ log.length = done + c.maxEntries := by
  have hcap := c.maxEntries_le
  have hroom := h.room
  have hdone := h.done_le
  rw [BitVec.le_def, h.getCount_toNat, BitVec.toNat_ofNat, Nat.mod_eq_of_lt (by omega)]
  omega

/-- The slot of the oldest pending entry has its id unless the ring is full: then it is the slot
written next, and has none. -/
lemma RingInv.oldest_contextId (h : RingInv base log done s) (hlt : done < log.length) :
    (s.entries (seqBuffer c (base + done))).contextId =
      if log.length < done + c.maxEntries then c.entryId (BitVec.ofNat 32 (base + done))
      else 0 := by
  split_ifs with hroom
  · exact h.live done hlt hroom
  · have hlen : log.length = done + c.maxEntries := le_antisymm h.room (not_lt.1 hroom)
    have hslot : seqBuffer c (base + done) = seqBuffer c (base + log.length) := by
      rw [seqBuffer_eq_iff, hlen, ← Nat.add_assoc, Nat.add_mod_right]
    rw [hslot]
    exact h.expired (List.ne_nil_of_length_pos (by omega))

/-! ## The operations keep the invariant -/

/-- A handler that finds room appends its capture to the history.

**Proof sketch.** The capture goes into the slot of the next sequence number, which no entry of
the last `maxEntries - 1` occupies; only the slot after it loses its id, and that slot belongs
to an entry a full ring older. -/
lemma RingInv.handler_room [Zero τ] (h : RingInv base log done s)
    (hroom : log.length < done + c.maxEntries) (f : Capture c τ) :
    RingInv base (log ++ [f]) done (exceptionHandler f s) := by
  have hfull : ¬BitVec.ofNat 32 c.maxEntries ≤ getCount s := by
    rw [h.full_iff]
    omega
  have hdone := h.done_le
  have hnext : s.numWritten + 1 = BitVec.ofNat 32 (base + log.length + 1) := by
    rw [h.numWritten, BitVec.ofNat_add (base + log.length) 1]
    rfl
  have hbuf : getBuffer c s.numWritten = seqBuffer c (base + log.length) := by
    rw [h.numWritten, seqBuffer]
  rw [exceptionHandler_of_room f hfull]
  refine ⟨?_, ?_, ?_, ?_, ?_, ?_, ?_⟩
  · simp only [writeComplete_numWritten, setEntry_numWritten, hnext, List.length_append,
      List.length_singleton, Nat.add_assoc]
  · exact h.numRead
  · simp only [List.length_append, List.length_singleton]
    omega
  · simp only [List.length_append, List.length_singleton]
    omega
  · intro i g hi hwin
    simp only [List.length_append, List.length_singleton] at hwin
    rw [writeComplete_holds, hbuf]
    rcases Nat.lt_or_ge i log.length with hlt | hge
    · -- an older entry: its slot is not the one just written
      rw [List.getElem?_append_left hlt] at hi
      rw [setEntry_entries_of_ne _ _ (seqBuffer_ne (by omega) (by omega))]
      exact h.held i g hi (by omega)
    · have hlen : i < (log ++ [f]).length := (List.getElem?_eq_some_iff.1 hi).1
      simp only [List.length_append, List.length_singleton] at hlen
      obtain rfl : i = log.length := by omega
      obtain rfl : f = g := by simpa using hi
      rw [setEntry_entries_self]
      exact ⟨rfl, rfl, rfl⟩
  · intro i hi hwin
    simp only [List.length_append, List.length_singleton] at hi hwin
    -- the slot that `WriteComplete` expires belongs to an entry a full ring older
    have hne : seqBuffer c (base + i) ≠ getBuffer c (s.numWritten + 1) := by
      rw [hnext]
      exact seqBuffer_ne (by omega) (by omega)
    rw [writeComplete_entries_of_ne (s.setEntry _ _) hne, hbuf]
    rcases Nat.lt_or_ge i log.length with hlt | hge
    · rw [setEntry_entries_of_ne _ _ (seqBuffer_ne (by omega) (by omega))]
      exact h.live i hlt (by omega)
    · obtain rfl : i = log.length := by omega
      rw [setEntry_entries_self, h.numWritten]
      rfl
  · intro _
    have hslot : seqBuffer c (base + (log ++ [f]).length) = getBuffer c (s.numWritten + 1) := by
      rw [hnext, List.length_append, List.length_singleton, ← Nat.add_assoc]
      rfl
    rw [hslot]
    exact writeComplete_expires (s.setEntry _ _)

/-- A handler that finds the ring full changes nothing. -/
lemma RingInv.handler_full [Zero τ] (h : RingInv base log done s)
    (hfull : log.length = done + c.maxEntries) (f : Capture c τ) : exceptionHandler f s = s :=
  exceptionHandler_of_full f (h.full_iff.2 hfull)

/-- Counting the oldest pending entry as read consumes one capture. -/
lemma RingInv.pop (h : RingInv base log done s) (hlt : done < log.length) :
    RingInv base log (done + 1) { s with numRead := s.numRead + 1 } where
  numWritten := h.numWritten
  numRead := by
    rw [h.numRead, ← Nat.add_assoc, BitVec.ofNat_add (base + done) 1]
    rfl
  done_le := hlt
  room := h.room.trans (by omega)
  held := h.held
  live := h.live
  expired := h.expired

/-- `Reset` consumes everything that is pending. -/
lemma RingInv.reset (h : RingInv base log done s) :
    RingInv base log log.length (Exception.reset s) where
  numWritten := h.numWritten
  numRead := h.numWritten
  done_le := le_rfl
  room := Nat.le_add_right _ _
  held := h.held
  live := h.live
  expired := h.expired

/-- A handler gives no id to an entry it does not commit to. -/
lemma FreshIds.handler_room [Zero τ] (hf : FreshIds log s) (h : RingInv 0 log done s)
    (hroom : log.length < done + c.maxEntries) (f : Capture c τ) :
    FreshIds (log ++ [f]) (exceptionHandler f s) := by
  have hfull : ¬BitVec.ofNat 32 c.maxEntries ≤ getCount s := by
    rw [h.full_iff]
    omega
  have hbuf : getBuffer c s.numWritten = seqBuffer c log.length := by
    rw [h.numWritten, seqBuffer, Nat.zero_add]
  intro b hb
  simp only [List.length_append, List.length_singleton] at hb
  rw [exceptionHandler_of_room f hfull]
  apply writeComplete_contextId_of_zero
  rw [hbuf, setEntry_entries_of_ne _ _ (hb log.length (by omega)).symm]
  exact hf b fun i hi => hb i (by omega)

/-- In storage that started zeroed, the entry written next has no id. -/
lemma RingInv.next_contextId (h : RingInv 0 log done s) (hf : FreshIds log s) :
    (s.entries (getBuffer c s.numWritten)).contextId = 0 := by
  have hbuf : getBuffer c s.numWritten = seqBuffer c (0 + log.length) := by
    rw [h.numWritten, seqBuffer]
  rw [hbuf]
  by_cases hlog : log = []
  · exact hf _ (by simp [hlog])
  · exact h.expired hlog

/-! ## Who owns an id -/

/-- **The owner of an id.** In storage that started zeroed, a slot with a non-zero id holds the
last capture committed to it, under that capture's id, and the slot is at least one write away
from being used again.

**Proof sketch.** Some committed entry has that slot, for an entry never written has no id. Take
the last one, `i`; it lies within one ring of the end of the log. Were it a full ring old, its
slot would be the one written next, which has no id. -/
lemma RingInv.owner_of_id_ne_zero (h : RingInv 0 log done s) (hfresh : FreshIds log s)
    {b : Fin c.maxEntries} (hb : (s.entries b).contextId ≠ 0) :
    ∃ i f, log[i]? = some f ∧ seqBuffer c i = b ∧ log.length < i + c.maxEntries ∧
      (s.entries b).Holds f ∧
      (s.entries b).contextId = c.entryId (BitVec.ofNat 32 i) := by
  have hpos := c.maxEntries_pos
  obtain ⟨i₀, hi₀, hslot⟩ : ∃ i < log.length, seqBuffer c i = b := by
    by_contra hnone
    push Not at hnone
    exact hb (hfresh b hnone)
  -- the last sequence number with this slot
  obtain ⟨i, hi, hwin, hib⟩ : ∃ i < log.length, log.length ≤ i + c.maxEntries ∧
      seqBuffer c i = b := by
    have hdiv := Nat.div_add_mod (log.length - 1 - i₀) c.maxEntries
    have hmod := Nat.mod_lt (log.length - 1 - i₀) hpos
    refine ⟨i₀ + c.maxEntries * ((log.length - 1 - i₀) / c.maxEntries), by omega, by omega, ?_⟩
    rw [← hslot, seqBuffer_eq_iff, Nat.add_mul_mod_self_left]
  have hlt : log.length < i + c.maxEntries := by
    refine lt_of_le_of_ne hwin fun heq => hb ?_
    have hnext : getBuffer c s.numWritten = b := by
      rw [← hib, h.numWritten, Nat.zero_add, heq]
      exact seqBuffer_eq_iff.2 (by simp)
    rw [← hnext]
    exact h.next_contextId hfresh
  obtain ⟨f, hf⟩ : ∃ f, log[i]? = some f := ⟨log[i], List.getElem?_eq_getElem hi⟩
  have hheld := h.held i f hf hwin
  have hlive := h.live i hi hlt
  rw [Nat.zero_add, hib] at hheld hlive
  exact ⟨i, f, hf, hib, hlt, hheld, hlive⟩

end Steps

end CfePsp.Exception
