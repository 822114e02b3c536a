import Mathlib.Data.Finset.Range
import Mathlib.Data.List.FinRange
import CfePsp.Exception.Context

set_option relaxedAutoImplicit false
set_option autoImplicit false

/-!
# A context copy interrupted by an exception

`CFE_PSP_Exception_CopyContext` checks the id once and then reads the entry: its size, possibly
twice, and its bytes. An exception handler may run in between, store by store. The id in the slot
that is written next is taken away in advance, so that a slot whose id was just checked is not the
one such a handler writes to.

## Main definitions

* `CfePsp.Exception.Store` — one store of an exception handler.
* `CfePsp.Exception.handlerStores` — the stores of one activation, in order.
* `CfePsp.Exception.CopySys.step` — `CopyContext` after its check, read by read, with the stores
  of at most one activation in between.

## Main results

* `CfePsp.Exception.foldl_handlerStores` — the stores add up to the function
  `CfePsp.Exception.exceptionHandler`.
* `CfePsp.Exception.interrupted_copyContext` — the interrupted copy returns what the entry held
  at the moment of the check.
-/

namespace CfePsp.Exception

open Transition

variable {c : Config} {τ : Type}

/-! ## The stores of a handler -/

/-- One store of an exception handler. -/
inductive Store (c : Config) (τ : Type)
  | numWritten (v : Uint32)
  | contextId (b : Fin c.maxEntries) (v : Uint32)
  | contextSize (b : Fin c.maxEntries) (v : Uint32)
  | sysTaskId (b : Fin c.maxEntries) (v : τ)
  | infoByte (b : Fin c.maxEntries) (i : Fin c.infoBytes) (v : UInt8)

/-- The storage after a store. -/
def Store.apply (s : Storage c τ) : Store c τ → Storage c τ
  | .numWritten v => { s with numWritten := v }
  | .contextId b v => s.setEntry b { s.entries b with contextId := v }
  | .contextSize b v => s.setEntry b { s.entries b with contextSize := v }
  | .sysTaskId b v => s.setEntry b { s.entries b with sysTaskId := v }
  | .infoByte b i v =>
      s.setEntry b { s.entries b with
        contextInfo := Function.update (s.entries b).contextInfo i v }

/-- The stores of a copy of `v` into the `context_info` of an entry. -/
def infoStores (b : Fin c.maxEntries) (v : Fin c.infoBytes → UInt8) : List (Store c τ) :=
  (List.finRange c.infoBytes).map fun i => .infoByte b i (v i)

/-- The stores of one activation of an exception handler that starts in `s`: the buffer is
cleared and given its id, the handler fills it in, and `WriteComplete` counts it and expires the
next one. -/
def handlerStores [Zero τ] (f : Capture c τ) (s : Storage c τ) : List (Store c τ) :=
  let nextWrite := s.numWritten
  if BitVec.ofNat 32 c.maxEntries ≤ nextWrite - s.numRead then []
  else
    let b := getBuffer c nextWrite
    [.contextId b 0, .contextSize b 0, .sysTaskId b 0] ++ infoStores b (fun _ => 0) ++
      [.contextId b (c.idBase + (nextWrite &&& osObjectIndexMask))] ++
      infoStores b f.contextInfo ++ [.contextSize b f.contextSize, .sysTaskId b f.sysTaskId] ++
      [.numWritten (s.numWritten + 1), .contextId (getBuffer c (s.numWritten + 1)) 0]

section Stores

/-- Storing an entry twice is storing it once. -/
@[simp] lemma setEntry_setEntry (s : Storage c τ) (b : Fin c.maxEntries) (d d' : LogData c τ) :
    (s.setEntry b d).setEntry b d' = s.setEntry b d' := by
  simp [Storage.setEntry]

/-- The byte stores to the places in `l` change exactly these bytes. -/
lemma foldl_infoByte (b : Fin c.maxEntries) (v : Fin c.infoBytes → UInt8)
    (l : List (Fin c.infoBytes)) (s : Storage c τ) :
    (l.map fun i => Store.infoByte b i (v i)).foldl Store.apply s =
      s.setEntry b { s.entries b with
        contextInfo := fun i => if i ∈ l then v i else (s.entries b).contextInfo i } := by
  induction l generalizing s with
  | nil => simp [Storage.setEntry]
  | cons i l ih =>
    rw [List.map_cons, List.foldl_cons, ih]
    simp only [Store.apply, setEntry_setEntry, setEntry_entries_self]
    congr 2
    funext j
    by_cases hj : j = i
    · subst hj
      simp
    · simp [hj]

/-- The stores of a copy write all of `context_info`. -/
lemma foldl_infoStores (b : Fin c.maxEntries) (v : Fin c.infoBytes → UInt8) (s : Storage c τ) :
    (infoStores b v).foldl Store.apply s = s.setEntry b { s.entries b with contextInfo := v } := by
  rw [infoStores, foldl_infoByte]
  simp

/-- **The stores of a handler add up to one activation.** -/
lemma foldl_handlerStores [Zero τ] (f : Capture c τ) (s : Storage c τ) :
    (handlerStores f s).foldl Store.apply s = exceptionHandler f s := by
  by_cases hfull : BitVec.ofNat 32 c.maxEntries ≤ getCount s
  · have hnone : handlerStores f s = [] := if_pos hfull
    rw [hnone, exceptionHandler_of_full f hfull]
    rfl
  · have hsome : ¬BitVec.ofNat 32 c.maxEntries ≤ s.numWritten - s.numRead := hfull
    rw [exceptionHandler_of_room f hfull]
    simp only [handlerStores, if_neg hsome, List.foldl_append, foldl_infoStores, List.foldl_cons,
      List.foldl_nil, Store.apply, setEntry_setEntry, setEntry_entries_self]
    rfl

/-- The store leaves the size and the bytes of the entry `b` alone. -/
def Store.Spares (b : Fin c.maxEntries) : Store c τ → Prop
  | .contextSize b' _ => b' ≠ b
  | .infoByte b' _ _ => b' ≠ b
  | _ => True

/-- A handler spares every entry but the one that is written next: there it takes an id away at
most. -/
lemma spares_of_mem_handlerStores [Zero τ] {f : Capture c τ} {s : Storage c τ}
    {b : Fin c.maxEntries} (hb : b ≠ getBuffer c s.numWritten) {st : Store c τ}
    (hst : st ∈ handlerStores f s) : st.Spares b := by
  simp only [handlerStores] at hst
  split_ifs at hst with hfull
  · simp at hst
  · simp only [infoStores, List.mem_append, List.mem_cons, List.not_mem_nil, or_false,
      List.mem_map] at hst
    rcases hst with (((((rfl | rfl | rfl) | ⟨i, -, rfl⟩) | rfl) | ⟨i, -, rfl⟩) | rfl | rfl) |
      rfl | rfl
    all_goals first | exact hb.symm | trivial

/-- What a store that spares an entry leaves of it. -/
lemma Store.Spares.apply {b : Fin c.maxEntries} {st : Store c τ} (h : st.Spares b)
    (s : Storage c τ) :
    ((st.apply s).entries b).contextSize = (s.entries b).contextSize ∧
      ((st.apply s).entries b).contextInfo = (s.entries b).contextInfo := by
  cases st with
  | numWritten v => exact ⟨rfl, rfl⟩
  | contextId b' v | sysTaskId b' v =>
    by_cases hb : b = b'
    · subst hb
      simp [Store.apply]
    · simp [Store.apply, setEntry_entries_of_ne _ _ hb]
  | contextSize b' v | infoByte b' i v =>
    have hb : b ≠ b' := Ne.symm h
    simp [Store.apply, setEntry_entries_of_ne _ _ hb]

end Stores

/-! ## `CopyContext` after its check -/

/-- What `CopyContext` is about to do once its check has succeeded. -/
inductive CopyPc
  /-- Compare `ContextSize` with `Buffer->context_size`. -/
  | checked
  /-- Everything fits: read `Buffer->context_size` again, as `ActualSize`. -/
  | fits
  /-- The buffer is too small: print `Buffer->context_size` and `ContextSize`. -/
  | truncates
  /-- In `memcpy` of `actual` bytes, those in `left` not yet copied. -/
  | copying (actual : Uint32) (left : Finset ℕ) (dst : ℕ → UInt8)
  /-- Returned. -/
  | returned (ret : ℤ) (dst : ℕ → UInt8)

/-- The storage, the stores left of the handler that interrupts (`none` when none has started) and
`CopyContext`. -/
structure CopySys (c : Config) (τ : Type) where
  storage : Storage c τ
  handler : Option (List (Store c τ))
  pc : CopyPc

/-- The steps of an interrupted `CopyContext`. -/
inductive CopyEvent (c : Config) (τ : Type)
  /-- An exception: a handler starts. -/
  | exception (f : Capture c τ)
  /-- The handler makes its next store. -/
  | store
  /-- `CopyContext` compares the sizes. -/
  | compare
  /-- `CopyContext` reads `ActualSize`. -/
  | readSize
  /-- `CopyContext` warns that only a part of `total` bytes is saved. -/
  | printf (total : Uint32)
  /-- `memcpy` copies the byte `i`. -/
  | copyByte (i : ℕ)
  /-- `CopyContext` returns. -/
  | ret

section Copying

variable (b : Fin c.maxEntries) (buf : ℕ → UInt8) (size : Uint32)

/-- One step of `CopyContext(id, buf, size)` after its check of the entry `b`, or of the one
handler that interrupts it. `memcpy` may copy the bytes in any order. -/
def CopySys.step [Zero τ] (s : CopySys c τ) : CopyEvent c τ → Option (CopySys c τ)
  | .exception f =>
      match s.handler with
      | none => some { s with handler := some (handlerStores f s.storage) }
      | some _ => none
  | .store =>
      match s.handler with
      | some (st :: rest) => some ⟨st.apply s.storage, some rest, s.pc⟩
      | _ => none
  | .compare =>
      match s.pc with
      | .checked =>
          some { s with
            pc := if (s.storage.entries b).contextSize ≤ size then .fits else .truncates }
      | _ => none
  | .readSize =>
      match s.pc with
      | .fits =>
          let actual := (s.storage.entries b).contextSize
          some { s with pc := .copying actual (Finset.range actual.toNat) buf }
      | _ => none
  | .printf total =>
      match s.pc with
      | .truncates =>
          if (s.storage.entries b).contextSize = total then
            some { s with pc := .copying size (Finset.range size.toNat) buf }
          else none
      | _ => none
  | .copyByte i =>
      match s.pc with
      | .copying actual left dst =>
          if i ∈ left then
            some ⟨s.storage, s.handler, .copying actual (left.erase i)
              (Function.update dst i ((s.storage.entries b).infoByte i))⟩
          else none
      | _ => none
  | .ret =>
      match s.pc with
      | .copying actual left dst =>
          if left = ∅ then some { s with pc := .returned actual.toInt dst } else none
      | _ => none

/-- The number of bytes that `CopyContext` copies of an entry. -/
def actualSize (d : LogData c τ) : Uint32 :=
  if d.contextSize ≤ size then d.contextSize else size

/-- What `CopyContext` has made, at each point, of the entry `d` that it checked. -/
def CopyPc.Of (d : LogData c τ) : CopyPc → Prop
  | .checked => True
  | .fits => d.contextSize ≤ size
  | .truncates => ¬d.contextSize ≤ size
  | .copying actual left dst => actual = actualSize size d ∧
      (∀ i ∈ left, i < actual.toNat) ∧
      ∀ i, dst i = if i < actual.toNat ∧ i ∉ left then d.infoByte i else buf i
  | .returned ret dst => ret = (actualSize size d).toInt ∧
      dst = Cells.overlay buf d.infoByte 0 (actualSize size d).toNat

/-- **The guard invariant.** `s₀` is the storage at the moment of the check: until a handler
starts it is the storage still; after that the handler spares the entry that was checked. -/
structure CopyInv [Zero τ] (s₀ : Storage c τ) (s : CopySys c τ) : Prop where
  before : s.handler = none → s.storage = s₀
  spares : ∀ l, s.handler = some l → ∀ st ∈ l, st.Spares b
  size_eq : (s.storage.entries b).contextSize = (s₀.entries b).contextSize
  info_eq : (s.storage.entries b).contextInfo = (s₀.entries b).contextInfo
  pc : s.pc.Of buf size (s₀.entries b)

variable {b buf size} [Zero τ] {s₀ : Storage c τ} {s t : CopySys c τ}

/-- The bytes of the entry are those at the moment of the check. -/
lemma CopyInv.infoByte (h : CopyInv b buf size s₀ s) (i : ℕ) :
    (s.storage.entries b).infoByte i = (s₀.entries b).infoByte i := by
  simp only [LogData.infoByte, h.info_eq]

/-- A step of `CopyContext` leaves storage and handler alone. -/
lemma CopyInv.move (h : CopyInv b buf size s₀ s) {pc : CopyPc}
    (hpc : pc.Of buf size (s₀.entries b)) : CopyInv b buf size s₀ ⟨s.storage, s.handler, pc⟩ :=
  ⟨h.before, h.spares, h.size_eq, h.info_eq, hpc⟩

/-- Every step keeps the guard invariant, and what is printed is the size at the moment of the
check. -/
lemma CopyInv.step (h : CopyInv b buf size s₀ s) (hb : b ≠ getBuffer c s₀.numWritten)
    {e : CopyEvent c τ} (hs : s.step b buf size e = some t) :
    CopyInv b buf size s₀ t ∧ ∀ total, e = .printf total → total = (s₀.entries b).contextSize := by
  have hpc := h.pc
  cases e with
  | exception f =>
    refine ⟨?_, by simp⟩
    cases hh : s.handler with
    | some l => simp [CopySys.step, hh] at hs
    | none =>
      simp only [CopySys.step, hh] at hs
      obtain rfl := Option.some.inj hs
      refine ⟨by simp, ?_, h.size_eq, h.info_eq, hpc⟩
      rintro l hl st hst
      obtain rfl := Option.some.inj hl
      rw [h.before hh] at hst
      exact spares_of_mem_handlerStores hb hst
  | store =>
    refine ⟨?_, by simp⟩
    cases hh : s.handler with
    | none => simp [CopySys.step, hh] at hs
    | some l =>
      cases l with
      | nil => simp [CopySys.step, hh] at hs
      | cons st rest =>
        simp only [CopySys.step, hh] at hs
        obtain rfl := Option.some.inj hs
        have hspares := h.spares _ hh
        obtain ⟨hsize, hinfo⟩ := (hspares st List.mem_cons_self).apply s.storage
        refine ⟨by simp, ?_, hsize.trans h.size_eq, hinfo.trans h.info_eq, hpc⟩
        rintro l hl st' hst'
        obtain rfl := Option.some.inj hl
        exact hspares st' (List.mem_cons_of_mem _ hst')
  | compare =>
    refine ⟨?_, by simp⟩
    cases hcur : s.pc <;> simp only [CopySys.step, hcur, reduceCtorEq] at hs
    obtain rfl := Option.some.inj hs
    refine h.move ?_
    rw [h.size_eq]
    split_ifs with hle
    · exact hle
    · exact hle
  | readSize =>
    refine ⟨?_, by simp⟩
    cases hcur : s.pc <;> simp only [CopySys.step, hcur, reduceCtorEq] at hs
    obtain rfl := Option.some.inj hs
    rw [hcur] at hpc
    have hle : (s₀.entries b).contextSize ≤ size := hpc
    refine h.move ⟨?_, fun i => by simp, fun i => ?_⟩
    · rw [h.size_eq, actualSize, if_pos hle]
    · rw [if_neg (by simp)]
  | printf total =>
    cases hcur : s.pc <;> simp only [CopySys.step, hcur, reduceCtorEq] at hs
    split_ifs at hs with htotal
    obtain rfl := Option.some.inj hs
    rw [hcur] at hpc
    have hnle : ¬(s₀.entries b).contextSize ≤ size := hpc
    refine ⟨h.move ⟨?_, fun i => by simp, fun i => ?_⟩, ?_⟩
    · rw [actualSize, if_neg hnle]
    · rw [if_neg (by simp)]
    · rintro total' heq
      obtain rfl : total = total' := by simpa using heq
      rw [← htotal, h.size_eq]
  | copyByte j =>
    refine ⟨?_, by simp⟩
    cases hcur : s.pc <;> simp only [CopySys.step, hcur, reduceCtorEq] at hs
    split_ifs at hs with hj
    obtain rfl := Option.some.inj hs
    rw [hcur] at hpc
    obtain ⟨hactual, hleft, hdst⟩ := hpc
    refine h.move ⟨hactual, fun i hi => hleft i (Finset.mem_of_mem_erase hi), fun i => ?_⟩
    by_cases hij : i = j
    · -- the byte copied now
      subst hij
      rw [Function.update_self, h.infoByte, if_pos ⟨hleft i hj, Finset.notMem_erase i _⟩]
    · rw [Function.update_of_ne hij, hdst]
      simp only [Finset.mem_erase, ne_eq, hij, not_false_eq_true, true_and]
  | ret =>
    refine ⟨?_, by simp⟩
    cases hcur : s.pc <;> simp only [CopySys.step, hcur, reduceCtorEq] at hs
    split_ifs at hs with hleft
    obtain rfl := Option.some.inj hs
    rw [hcur] at hpc
    obtain ⟨hactual, -, hdst⟩ := hpc
    refine h.move ⟨by rw [hactual], funext fun i => ?_⟩
    rw [hdst, hactual, hleft]
    simp [Cells.overlay]

/-- The guard invariant holds along every run from the moment of the check. -/
lemma copyInv_of_run (hb : b ≠ getBuffer c s₀.numWritten) {etr : List (CopyEvent c τ)}
    (h : run (CopySys.step b buf size) ⟨s₀, none, .checked⟩ etr = some t) :
    CopyInv b buf size s₀ t ∧
      ∀ total, .printf total ∈ etr → total = (s₀.entries b).contextSize := by
  refine run_invariant (P := fun etr t => CopyInv b buf size s₀ t ∧
    ∀ total, .printf total ∈ etr → total = (s₀.entries b).contextSize) ⟨?_, by simp⟩ ?_ h
  · exact ⟨fun _ => rfl, by simp, rfl, rfl, trivial⟩
  · rintro etr s e t ⟨hinv, hprint⟩ hs
    obtain ⟨hinv', hprint'⟩ := hinv.step hb hs
    refine ⟨hinv', fun total hmem => ?_⟩
    rcases List.mem_append.1 hmem with hold | hnew
    · exact hprint total hold
    · exact hprint' total (List.mem_singleton.1 hnew).symm

end Copying

/-! ## The guarantee -/

/-- In storage that started zeroed, a slot with an id is not the one written next. -/
lemma ne_next_of_contextId_ne_zero [Zero τ] [DecidableEq τ] {tr : List (Event c τ)}
    {s : Sys c τ} (h : run step ⟨0, .idle⟩ tr = some s) {b : Fin c.maxEntries}
    (hb : (s.storage.entries b).contextId ≠ 0) : b ≠ getBuffer c s.storage.numWritten := by
  rintro rfl
  obtain ⟨q, -, done, hagree⟩ := agrees_of_run RingInv.zero h
  exact hb (hagree.ring.next_contextId (freshIds_of_run h))

/-- **The expiry guard.** Take any state reached from zeroed storage and any id that passes the
checks of `CopyContext` there, and let at most one exception handler run, store by store, between
the check and the return. Then at every point the size used, the size printed and every byte
copied are those the entry held at the moment of the check; the call returns what it would have
returned undisturbed.

**Proof sketch.** An id in a slot means that the slot is not the one written next. So the stores
of the handler spare it, but for the id, which is not read again (`CopyInv.step`). -/
theorem interrupted_copyContext [Zero τ] [DecidableEq τ] {tr : List (Event c τ)} {s : Sys c τ}
    (h : run step ⟨0, .idle⟩ tr = some s) {id : Uint32}
    (hrange : ¬osObjectIndexMask < id - c.idBase)
    (hid : (s.storage.entries (getBuffer c (id - c.idBase))).contextId = id)
    (buf : ℕ → UInt8) (size : Uint32) {etr : List (CopyEvent c τ)} {t : CopySys c τ}
    (hcopy : run (CopySys.step (getBuffer c (id - c.idBase)) buf size)
      ⟨s.storage, none, .checked⟩ etr = some t) :
    t.pc.Of buf size (s.storage.entries (getBuffer c (id - c.idBase))) ∧
      (∀ total, .printf total ∈ etr →
        total = (s.storage.entries (getBuffer c (id - c.idBase))).contextSize) ∧
      ∀ ret dst, t.pc = .returned ret dst → copyContext s.storage id buf size = (ret, dst) := by
  have hne := ne_next_of_contextId_ne_zero h (hid.symm ▸ id_ne_zero_of_range hrange)
  obtain ⟨hinv, hprint⟩ := copyInv_of_run hne hcopy
  refine ⟨hinv.pc, hprint, fun ret dst hret => ?_⟩
  have hpc := hinv.pc
  rw [hret] at hpc
  obtain ⟨rfl, rfl⟩ := hpc
  unfold copyContext
  simp only [if_neg hrange, hid, ne_eq, not_true_eq_false, if_false, actualSize]

/-- A second exception interrupts the copy, and expires the entry before its byte is copied. -/
def interrupted (k : Fin 32) : List (CopyEvent (Config.small k) ℕ) :=
  [.compare, .exception (Capture.ofByte 9 2), .store, .store, .store, .store, .readSize, .store,
    .store, .store, .store, .store, .store, .copyByte 0, .ret]

/-- In a ring of two, the copy of the first exception has its byte all the same. -/
theorem interrupted_copyContext_of_interrupted :
    ∃ s t, run step (⟨0, .idle⟩ : Sys (Config.small 1) ℕ)
        [.handler (Capture.ofByte 7 1) true] = some s ∧
      run (CopySys.step (seqBuffer (Config.small 1) 0) (fun _ => 0) 8)
        ⟨s.storage, none, .checked⟩ (interrupted 1) = some t ∧
      (t.storage.entries (seqBuffer (Config.small 1) 0)).contextId = 0 ∧
      ∃ dst, t.pc = .returned 1 dst ∧
        copyContext s.storage 0x1110000 (fun _ => 0) 8 = (1, dst) ∧ dst 0 = 7 := by
  have hcopy := @interrupted_copyContext (Config.small 1) ℕ _ _
    [.handler (Capture.ofByte 7 1) true] _ rfl 0x1110000 (by decide) (by decide) (fun _ => 0) 8
    (interrupted 1) _ rfl
  exact ⟨_, _, rfl, rfl, by decide, _, rfl, hcopy.2.2 _ _ rfl, by decide⟩

end CfePsp.Exception
