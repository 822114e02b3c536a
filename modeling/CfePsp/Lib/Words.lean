import Mathlib.Tactic.Common
import CfePsp.Lib.Cells

set_option relaxedAutoImplicit false
set_option autoImplicit false

/-!
# Words in a memory of bytes

A 32-bit word occupies four bytes, in one of the two byte orders. What was stored is what is
loaded, and the bytes elsewhere are left alone.

## Main definitions

* `Words.Endian` — the byte orders.
* `Words.storeWord`, `Words.loadWord` — access to a word in memory.

## Main results

* `Words.loadWord_storeWord` — a load returns what was stored.
* `Words.storeWord_of_notMem`, `Words.loadWord_congr` — an access concerns four bytes.
-/

namespace Words

/-- The order of the bytes of a word in memory. -/
inductive Endian
  | little
  | big
  deriving DecidableEq

/-- The position in the word of its `i`-th byte in memory. -/
def Endian.position : Endian → ℕ → ℕ
  | .little, i => i
  | .big, i => 3 - i

/-- The byte at a position in a word. -/
def byteAt (v : BitVec 32) (k : ℕ) : UInt8 := UInt8.ofBitVec (v.extractLsb' (8 * k) 8)

/-- The word made of four bytes, the most significant first. -/
def ofBytes (b₃ b₂ b₁ b₀ : UInt8) : BitVec 32 :=
  b₃.toBitVec ++ b₂.toBitVec ++ b₁.toBitVec ++ b₀.toBitVec

/-- The memory after a word was stored at `p`. -/
def storeWord (e : Endian) (mem : ℕ → UInt8) (p : ℕ) (v : BitVec 32) : ℕ → UInt8 :=
  Cells.overlay mem (fun i => byteAt v (e.position i)) p 4

/-- The word in memory at `p`. -/
def loadWord : Endian → (ℕ → UInt8) → ℕ → BitVec 32
  | .little, mem, p => ofBytes (mem (p + 3)) (mem (p + 2)) (mem (p + 1)) (mem p)
  | .big, mem, p => ofBytes (mem p) (mem (p + 1)) (mem (p + 2)) (mem (p + 3))

/-- A word consists of its bytes. -/
lemma ofBytes_byteAt (v : BitVec 32) :
    ofBytes (byteAt v 3) (byteAt v 2) (byteAt v 1) (byteAt v 0) = v := by
  show (v.extractLsb' 24 8 ++ v.extractLsb' 16 8 ++ v.extractLsb' 8 8 ++ v.extractLsb' 0 8 :
    BitVec 32) = v
  rw [BitVec.extractLsb'_append_extractLsb'_eq_extractLsb' (by omega),
    BitVec.extractLsb'_append_extractLsb'_eq_extractLsb' (by omega),
    BitVec.extractLsb'_append_extractLsb'_eq_extractLsb' (by omega)]
  exact BitVec.extractLsb'_eq_self

section Access

variable {e : Endian} {mem mem' : ℕ → UInt8} {p a : ℕ} {v : BitVec 32}

/-- A store leaves the bytes elsewhere alone. -/
lemma storeWord_of_notMem (h : ¬(p ≤ a ∧ a < p + 4)) : storeWord e mem p v a = mem a :=
  Cells.overlay_of_notMem h

/-- A load concerns the four bytes of the word. -/
lemma loadWord_congr (h : ∀ a, p ≤ a → a < p + 4 → mem a = mem' a) :
    loadWord e mem p = loadWord e mem' p := by
  have h₀ := h p (by omega) (by omega)
  have h₁ := h (p + 1) (by omega) (by omega)
  have h₂ := h (p + 2) (by omega) (by omega)
  have h₃ := h (p + 3) (by omega) (by omega)
  cases e <;> simp only [loadWord, h₀, h₁, h₂, h₃]

/-- The bytes that are stored. -/
lemma storeWord_add (e : Endian) (mem : ℕ → UInt8) (p : ℕ) (v : BitVec 32) {i : ℕ} (hi : i < 4) :
    storeWord e mem p v (p + i) = byteAt v (e.position i) := by
  rw [storeWord, Cells.overlay_of_mem (by omega), Nat.add_sub_cancel_left]

/-- **What was stored is loaded.** -/
@[simp] lemma loadWord_storeWord : loadWord e (storeWord e mem p v) p = v := by
  have h₀ := storeWord_add e mem p v (i := 0) (by omega)
  have h₁ := storeWord_add e mem p v (i := 1) (by omega)
  have h₂ := storeWord_add e mem p v (i := 2) (by omega)
  have h₃ := storeWord_add e mem p v (i := 3) (by omega)
  rw [Nat.add_zero] at h₀
  cases e
  · simp only [loadWord, h₀, h₁, h₂, h₃]
    exact ofBytes_byteAt v
  · simp only [loadWord, h₀, h₁, h₂, h₃]
    exact ofBytes_byteAt v

end Access

end Words
