import Mathlib.Tactic.Common
import CfePsp.Lib.Cells
import CfePsp.Lib.Words

set_option relaxedAutoImplicit false
set_option autoImplicit false

/-!
# Words of several widths, and the lanes of a word

A word of `n` bytes is stored byte by byte, in one of the two byte orders. A memory that can only be
written in wide words is written in narrow ones by loading the wide word, replacing a half of it (a
lane) with masks and shifts, and storing it again.

## Main definitions

* `Lanes.byte`, `Lanes.place` — the bytes of a word and their order in memory.
* `Lanes.store`, `Lanes.load16` — access to words of other widths than 32 bits.

## Main results

* `Lanes.store_splice` — a wide store of a word whose bytes outside of a lane are those in memory is
  a narrow store.
* `Lanes.byte_low_lane`, `Lanes.byte_high_lane` — the bytes of a word of which a half was replaced.
-/

namespace Lanes

open Words (Endian)

variable {W V : ℕ}

/-- The byte at a position of a word. -/
def byte (v : BitVec W) (k : ℕ) : UInt8 := UInt8.ofBitVec (v.extractLsb' (8 * k) 8)

/-- The position, in a word of `n` bytes, of its `i`-th byte in memory. -/
def place : Endian → ℕ → ℕ → ℕ
  | .little, _, i => i
  | .big, n, i => n - 1 - i

/-- The memory after a word of `n` bytes was stored at `p`. -/
def store (e : Endian) (n : ℕ) (mem : ℕ → UInt8) (p : ℕ) (v : BitVec W) : ℕ → UInt8 :=
  Cells.overlay mem (fun i => byte v (place e n i)) p n

/-- The word of two bytes in memory at `p`. -/
def load16 : Endian → (ℕ → UInt8) → ℕ → BitVec 16
  | .little, mem, p => (mem (p + 1)).toBitVec ++ (mem p).toBitVec
  | .big, mem, p => (mem p).toBitVec ++ (mem (p + 1)).toBitVec

/-! ## Bytes -/

section Bytes

variable {e : Endian} {mem : ℕ → UInt8} {p a n i k : ℕ} {v : BitVec V} {w w' mask : BitVec W}

/-- The bits of a byte of a word. -/
lemma getLsbD_byte (v : BitVec W) (k j : ℕ) :
    (byte v k).toBitVec.getLsbD j = (decide (j < 8) && v.getLsbD (8 * k + j)) := by
  rw [byte, UInt8.toBitVec_ofBitVec, BitVec.getLsbD_extractLsb']

/-- Bytes are equal when their bits are. -/
lemma byte_eq_of_getLsbD {b : UInt8} (h : ∀ j < 8, w.getLsbD (8 * k + j) = b.toBitVec.getLsbD j) :
    byte w k = b := by
  refine UInt8.toBitVec_inj.1 (BitVec.eq_of_getLsbD_eq fun j hj => ?_)
  rw [getLsbD_byte, h j hj]
  simp [hj]

/-- The bytes that are stored. -/
lemma store_add (e : Endian) (mem : ℕ → UInt8) (p : ℕ) (v : BitVec V) (hi : i < n) :
    store e n mem p v (p + i) = byte v (place e n i) := by
  rw [store, Cells.overlay_of_mem (by omega), Nat.add_sub_cancel_left]

/-- A store leaves the bytes elsewhere alone. -/
lemma store_of_notMem (h : ¬(p ≤ a ∧ a < p + n)) : store e n mem p v a = mem a :=
  Cells.overlay_of_notMem h

/-- A byte is the only byte of itself. -/
lemma byte_toBitVec (b : UInt8) : byte b.toBitVec 0 = b :=
  byte_eq_of_getLsbD fun j _ => by rw [Nat.mul_zero, Nat.zero_add]

/-- The bytes of a word that is made of two. -/
lemma byte_append (x : BitVec V) (y : BitVec W) (hW : W = 8 * n) :
    byte (x ++ y) k = if k < n then byte y k else byte x (k - n) := by
  refine byte_eq_of_getLsbD fun j hj => ?_
  rw [BitVec.getLsbD_append]
  split_ifs with hbit hlow hlow
  · rw [getLsbD_byte, decide_eq_true hj, Bool.true_and]
  · omega
  · omega
  · have hsub : 8 * k + j - W = 8 * (k - n) + j := by omega
    rw [getLsbD_byte, decide_eq_true hj, Bool.true_and, hsub]

/-- The bytes of a word of two bytes that was loaded. -/
lemma byte_load16 (hi : i < 2) : byte (load16 e mem p) (place e 2 i) = mem (p + i) := by
  have hbytes : ∀ (x y : UInt8) k, byte (x.toBitVec ++ y.toBitVec) k =
      if k < 1 then byte y.toBitVec k else byte x.toBitVec (k - 1) :=
    fun x y k => byte_append x.toBitVec y.toBitVec rfl
  cases e with
  | little =>
    refine (hbytes _ _ _).trans ?_
    obtain rfl | rfl : i = 0 ∨ i = 1 := by omega
    · exact byte_toBitVec _
    · exact byte_toBitVec _
  | big =>
    refine (hbytes _ _ _).trans ?_
    obtain rfl | rfl : i = 0 ∨ i = 1 := by omega
    · exact byte_toBitVec _
    · exact byte_toBitVec _

/-- The bytes of a word of four bytes that was loaded. -/
lemma byte_loadWord (hi : i < 4) :
    byte (Words.loadWord e mem p) (place e 4 i) = mem (p + i) := by
  have hbytes : ∀ (b₃ b₂ b₁ b₀ : UInt8), byte (Words.ofBytes b₃ b₂ b₁ b₀) 0 = b₀ ∧
      byte (Words.ofBytes b₃ b₂ b₁ b₀) 1 = b₁ ∧ byte (Words.ofBytes b₃ b₂ b₁ b₀) 2 = b₂ ∧
      byte (Words.ofBytes b₃ b₂ b₁ b₀) 3 = b₃ := by
    intro b₃ b₂ b₁ b₀
    have hlast : ∀ k, byte (Words.ofBytes b₃ b₂ b₁ b₀) k =
        if k < 1 then byte b₀.toBitVec k
        else byte (b₃.toBitVec ++ b₂.toBitVec ++ b₁.toBitVec) (k - 1) :=
      fun k => byte_append _ b₀.toBitVec rfl
    have hthird : ∀ k, byte (b₃.toBitVec ++ b₂.toBitVec ++ b₁.toBitVec) k =
        if k < 1 then byte b₁.toBitVec k else byte (b₃.toBitVec ++ b₂.toBitVec) (k - 1) :=
      fun k => byte_append _ b₁.toBitVec rfl
    have hsecond : ∀ k, byte (b₃.toBitVec ++ b₂.toBitVec) k =
        if k < 1 then byte b₂.toBitVec k else byte b₃.toBitVec (k - 1) :=
      fun k => byte_append _ b₂.toBitVec rfl
    refine ⟨?_, ?_, ?_, ?_⟩
    · rw [hlast]
      exact byte_toBitVec b₀
    · rw [hlast, if_neg (by omega), hthird]
      exact byte_toBitVec b₁
    · rw [hlast, if_neg (by omega), hthird, if_neg (by omega), hsecond]
      exact byte_toBitVec b₂
    · rw [hlast, if_neg (by omega), hthird, if_neg (by omega), hsecond]
      exact byte_toBitVec b₃
  obtain rfl | rfl | rfl | rfl : i = 0 ∨ i = 1 ∨ i = 2 ∨ i = 3 := by omega
  all_goals
    cases e with
    | little => simp [Words.loadWord, place, hbytes]
    | big => simp [Words.loadWord, place, hbytes]

end Bytes

/-! ## Lanes -/

section Lanes

variable {e : Endian} {mem : ℕ → UInt8} {p n o k : ℕ} {v : BitVec V} {w w' mask : BitVec W}

/-- **Splicing**: when the bytes of a wide word are those in memory, but for the lane of `n` bytes
from `o` on, storing it stores the lane. -/
lemma store_splice {m : ℕ} (ho : o + n ≤ m)
    (h : ∀ i < m, byte w' (place e m i) =
      if o ≤ i ∧ i < o + n then byte v (place e n (i - o)) else mem (p + i)) :
    store e m mem p w' = store e n mem (p + o) v := by
  funext a
  by_cases ha : p ≤ a ∧ a < p + m
  · obtain ⟨i, rfl⟩ := Nat.exists_eq_add_of_le ha.1
    have hi : i < m := by omega
    rw [store_add e mem p w' hi, h i hi]
    split_ifs with hlane
    · have hsplit : p + i = p + o + (i - o) := by omega
      rw [hsplit, store_add e mem (p + o) v (by omega)]
    · rw [store_of_notMem (by omega)]
  · rw [store_of_notMem ha, store_of_notMem (by omega)]

/-- The bytes of a word whose low lane, of `n` bytes, was replaced. -/
lemma byte_low_lane (hV : V = 8 * n) (hmask : ∀ i < W, mask.getLsbD i = decide (8 * n ≤ i))
    (hk : 8 * k + 8 ≤ W) :
    byte (w &&& mask ||| v.setWidth W) k = if k < n then byte v k else byte w k := by
  refine byte_eq_of_getLsbD fun j hj => ?_
  have hW : 8 * k + j < W := by omega
  rw [BitVec.getLsbD_or, BitVec.getLsbD_and, hmask _ hW, BitVec.getLsbD_setWidth]
  split_ifs with hlow
  · have hbelow : ¬8 * n ≤ 8 * k + j := by omega
    rw [getLsbD_byte, decide_eq_false hbelow, decide_eq_true hW, decide_eq_true hj, Bool.and_false,
      Bool.false_or]
  · have habove : 8 * n ≤ 8 * k + j := by omega
    have hout : v.getLsbD (8 * k + j) = false := BitVec.getLsbD_of_ge _ _ (by omega)
    rw [getLsbD_byte, decide_eq_true habove, decide_eq_true hj, hout, Bool.and_true, Bool.and_false,
      Bool.or_false, Bool.true_and]

/-- The bytes of a word whose lane above the lowest `n` bytes was replaced. -/
lemma byte_high_lane (hmask : ∀ i < W, mask.getLsbD i = decide (i < 8 * n))
    (hk : 8 * k + 8 ≤ W) :
    byte (w &&& mask ||| v.setWidth W <<< (8 * n)) k =
      if k < n then byte w k else byte v (k - n) := by
  refine byte_eq_of_getLsbD fun j hj => ?_
  have hW : 8 * k + j < W := by omega
  rw [BitVec.getLsbD_or, BitVec.getLsbD_and, hmask _ hW, BitVec.getLsbD_shiftLeft,
    BitVec.getLsbD_setWidth]
  split_ifs with hlow
  · have hbelow : 8 * k + j < 8 * n := by omega
    rw [getLsbD_byte, decide_eq_true hbelow, decide_eq_true hj, Bool.not_true, Bool.and_false,
      Bool.false_and, Bool.or_false, Bool.and_true, Bool.true_and]
  · have habove : ¬8 * k + j < 8 * n := by omega
    have hsub : 8 * k + j - 8 * n = 8 * (k - n) + j := by omega
    have hlt : 8 * (k - n) + j < W := by omega
    rw [getLsbD_byte, decide_eq_false habove, decide_eq_true hj, hsub, decide_eq_true hlt,
      decide_eq_true hW, Bool.and_false, Bool.false_or, Bool.not_false, Bool.true_and,
      Bool.true_and]

/-- Where the low half of a word of `2 * n` bytes is in memory. -/
def lowHalf : Endian → ℕ → ℕ
  | .little, _ => 0
  | .big, n => n

/-- Where the high half of a word of `2 * n` bytes is in memory. -/
def highHalf : Endian → ℕ → ℕ
  | .little, n => n
  | .big, _ => 0

/-- **Replacing the low half** of a word from memory and storing it stores the half. -/
lemma store_low_half (hV : V = 8 * n) (hW : W = 8 * (2 * n))
    (hmask : ∀ i < W, mask.getLsbD i = decide (8 * n ≤ i))
    (hw : ∀ i < 2 * n, byte w (place e (2 * n) i) = mem (p + i)) :
    store e (2 * n) mem p (w &&& mask ||| v.setWidth W) = store e n mem (p + lowHalf e n) v := by
  refine store_splice (by cases e <;> simp only [lowHalf] <;> omega) fun i hi => ?_
  have hplace : 8 * place e (2 * n) i + 8 ≤ W := by
    cases e <;> simp only [place] <;> omega
  rw [byte_low_lane hV hmask hplace, hw i hi]
  by_cases hlow : place e (2 * n) i < n
  · have hlane : lowHalf e n ≤ i ∧ i < lowHalf e n + n := by
      cases e <;> simp only [place, lowHalf] at hlow ⊢ <;> omega
    have hpos : place e (2 * n) i = place e n (i - lowHalf e n) := by
      cases e <;> simp only [place, lowHalf] at hlow ⊢ <;> omega
    rw [if_pos hlow, if_pos hlane, hpos]
  · have hlane : ¬(lowHalf e n ≤ i ∧ i < lowHalf e n + n) := by
      cases e <;> simp only [place, lowHalf] at hlow ⊢ <;> omega
    rw [if_neg hlow, if_neg hlane]

/-- **Replacing the high half** of a word from memory and storing it stores the half. -/
lemma store_high_half (hW : W = 8 * (2 * n)) (hmask : ∀ i < W, mask.getLsbD i = decide (i < 8 * n))
    (hw : ∀ i < 2 * n, byte w (place e (2 * n) i) = mem (p + i)) :
    store e (2 * n) mem p (w &&& mask ||| v.setWidth W <<< (8 * n)) =
      store e n mem (p + highHalf e n) v := by
  refine store_splice (by cases e <;> simp only [highHalf] <;> omega) fun i hi => ?_
  have hplace : 8 * place e (2 * n) i + 8 ≤ W := by
    cases e <;> simp only [place] <;> omega
  rw [byte_high_lane hmask hplace, hw i hi]
  by_cases hlow : place e (2 * n) i < n
  · have hlane : ¬(highHalf e n ≤ i ∧ i < highHalf e n + n) := by
      cases e <;> simp only [place, highHalf] at hlow ⊢ <;> omega
    rw [if_pos hlow, if_neg hlane]
  · have hlane : highHalf e n ≤ i ∧ i < highHalf e n + n := by
      cases e <;> simp only [place, highHalf] at hlow ⊢ <;> omega
    have hpos : place e (2 * n) i - n = place e n (i - highHalf e n) := by
      cases e with
      | little => rfl
      | big =>
        simp only [place, highHalf] at hlow ⊢
        omega
    rw [if_neg hlow, if_pos hlane, hpos]

end Lanes

end Lanes
