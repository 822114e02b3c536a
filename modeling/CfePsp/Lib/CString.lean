import Mathlib.Data.Nat.Notation
import Mathlib.Algebra.Group.Nat.Defs
import Mathlib.Data.List.DropRight
import Mathlib.Data.List.TakeWhile
import Mathlib.Tactic.Common

set_option relaxedAutoImplicit false
set_option autoImplicit false

/-!
# Strings of C

A pointer is the list of the bytes from where it points to the end of its array. A string starts
there and ends in front of the first NUL. Reading behind the array has no result.

## Main definitions

* `CString.chars` — the string at a pointer.
* `CString.memchr` — the first place of a byte.
* `CString.isspace`, `CString.isdigit` — the classes of characters in the C locale.
* `CString.scanUlong` — the number a string starts with, as an `unsigned long`.
* `CString.strtoul` — the library function, in base 10.
* `CString.Numeral` — a decimal number with white space in front of it.

## Main results

* `CString.chars_append` — a string is what stands in front of its NUL, whatever follows.
* `CString.strtoul_append` — so is what `strtoul` reads.
* `CString.scanUlong_suffix` — a number has at least one character.
* `CString.Numeral.scanUlong_text` — a numeral is read up to its last digit.
-/

namespace CString

/-- The characters of the string at a pointer. -/
def chars (mem : List UInt8) : List UInt8 := mem.takeWhile (· != 0)

/-- `memchr`: where `c` first stands among the first `n` bytes. -/
def memchr (mem : List UInt8) (c : UInt8) (n : ℕ) : Option ℕ := (mem.take n).idxOf? c

/-- `isspace`. -/
def isspace (c : UInt8) : Bool := c == 32 || (9 ≤ c && c ≤ 13)

/-- `isdigit`. -/
def isdigit (c : UInt8) : Bool := 48 ≤ c && c ≤ 57

/-- The number that a list of decimal digits denotes. -/
def decimal (digits : List UInt8) : ℕ := digits.foldl (fun n d => 10 * n + (d.toNat - 48)) 0

/-- A number as an `unsigned long` of `w` bits: the largest one if it is out of range, negated in
the type if it had a minus sign. -/
def ulongOf (w : ℕ) (negative : Bool) (n : ℕ) : BitVec w :=
  if 2 ^ w ≤ n then BitVec.allOnes w
  else if negative then -BitVec.ofNat w n
  else BitVec.ofNat w n

/-- Whether a minus sign is there, and the characters behind an optional sign. -/
def splitSign (s : List UInt8) : Bool × List UInt8 :=
  if s.head? = some 45 then (true, s.tail)
  else if s.head? = some 43 then (false, s.tail)
  else (false, s)

/-- The number at the start of a string, behind white space and an optional sign, and the
characters after it. -/
def scanUlong (w : ℕ) (s : List UInt8) : Option (BitVec w × List UInt8) :=
  let signed := splitSign (s.dropWhile isspace)
  let digits := signed.2.takeWhile isdigit
  if digits = [] then none
  else some (ulongOf w signed.1 (decimal digits), signed.2.dropWhile isdigit)

/-- `strtoul` in base 10: the value and the end pointer, which is the start pointer if there is no
number. There is no result if the string does not end. -/
def strtoul (w : ℕ) (mem : List UInt8) : Option (BitVec w × List UInt8) :=
  if 0 ∈ mem then
    match scanUlong w (chars mem) with
    | none => some (0, mem)
    | some (value, rest) => some (value, rest ++ mem.dropWhile (· != 0))
  else none

/-! ## Strings and what follows them -/

lemma notMem_chars (mem : List UInt8) : 0 ∉ chars mem := by
  intro h
  have := List.mem_takeWhile_imp h
  simp at this

/-- The string in front of a NUL. -/
lemma chars_append {s : List UInt8} (h : 0 ∉ s) (t : List UInt8) : chars (s ++ 0 :: t) = s := by
  unfold chars
  rw [List.takeWhile_append_of_pos, List.takeWhile_cons_of_neg (by simp), List.append_nil]
  intro c hc
  simpa using ne_of_mem_of_not_mem hc h

/-- A list of bytes and a NUL behind it are a string, its NUL and more bytes. -/
lemma exists_chars (s t : List UInt8) : ∃ t', s ++ 0 :: t = chars s ++ 0 :: t' := by
  induction s with
  | nil => exact ⟨t, rfl⟩
  | cons c s ih =>
    by_cases hc : c = 0
    · exact ⟨s ++ 0 :: t, by simp [chars, hc]⟩
    · obtain ⟨t', ht'⟩ := ih
      refine ⟨t', ?_⟩
      rw [List.cons_append, ht']
      simp [chars, hc]

/-- What stands behind a string. -/
lemma dropWhile_append {s : List UInt8} (h : 0 ∉ s) (t : List UInt8) :
    (s ++ 0 :: t).dropWhile (· != 0) = 0 :: t := by
  rw [List.dropWhile_append_of_pos, List.dropWhile_cons_of_neg (by simp)]
  intro c hc
  simpa using ne_of_mem_of_not_mem hc h

/-- Skipping white space stops at the NUL at the latest. -/
lemma dropWhile_isspace_append (s t : List UInt8) :
    (s ++ 0 :: t).dropWhile isspace = s.dropWhile isspace ++ 0 :: t := by
  rw [List.dropWhile_append]
  split
  · next hnil =>
    rw [List.isEmpty_iff.1 hnil, List.nil_append]
    exact List.dropWhile_cons_of_neg (by decide)
  · rfl

/-- `strtoul` reads the string and nothing behind it. -/
lemma strtoul_append {w : ℕ} {s : List UInt8} (h : 0 ∉ s) (t : List UInt8) :
    strtoul w (s ++ 0 :: t) =
      match scanUlong w s with
      | none => some (0, s ++ 0 :: t)
      | some (value, rest) => some (value, rest ++ 0 :: t) := by
  unfold strtoul
  rw [if_pos (by simp), chars_append h, dropWhile_append h]

/-! ## The first place of a byte -/

lemma memchr_of_notMem {mem : List UInt8} {c : UInt8} {n : ℕ} (h : c ∉ mem.take n) :
    memchr mem c n = none :=
  List.idxOf?_eq_none_iff.2 h

lemma memchr_append {s : List UInt8} {c : UInt8} (h : c ∉ s) (t : List UInt8) {n : ℕ}
    (hn : s.length < n) : memchr (s ++ c :: t) c n = some s.length := by
  obtain ⟨k, rfl⟩ : ∃ k, n = s.length + (k + 1) := ⟨n - s.length - 1, by omega⟩
  unfold memchr
  rw [List.take_length_add_append, List.take_succ_cons]
  refine List.idxOf?_eq_some_iff.2 ⟨by simp, by simp, fun j hj => ?_⟩
  rw [List.getElem_append_left hj]
  exact fun hc => h (hc ▸ List.getElem_mem hj)

/-- A search may begin behind bytes that are known to be different. -/
lemma memchr_add {mem : List UInt8} {c : UInt8} {k : ℕ} (h : c ∉ mem.take k)
    (hk : k ≤ mem.length) (n : ℕ) :
    memchr mem c (k + n) = (memchr (mem.drop k) c n).map (k + ·) := by
  have hnone : (mem.take k).findIdx? (· == c) = none := List.idxOf?_eq_none_iff.2 h
  unfold memchr List.idxOf?
  rw [List.take_add, List.findIdx?_append, hnone, Option.none_or, List.length_take,
    Nat.min_eq_left hk]
  simp only [Nat.add_comm]

/-! ## Numbers -/

lemma splitSign_suffix (s : List UInt8) : (splitSign s).2 <:+ s := by
  unfold splitSign
  split
  · exact List.tail_suffix s
  · split
    · exact List.tail_suffix s
    · exact List.suffix_rfl

/-- The characters after a number are a shorter end of the string. -/
lemma scanUlong_suffix {w : ℕ} {s rest : List UInt8} {value : BitVec w}
    (h : scanUlong w s = some (value, rest)) : rest <:+ s ∧ rest.length < s.length := by
  unfold scanUlong at h
  simp only at h
  set signed := splitSign (s.dropWhile isspace) with hsigned
  split at h
  · cases h
  · next hdigits =>
    obtain ⟨-, rfl⟩ := Prod.mk.inj (Option.some.inj h)
    have hsuffix : signed.2 <:+ s := (splitSign_suffix _).trans (List.dropWhile_suffix _)
    refine ⟨(List.dropWhile_suffix _).trans hsuffix, ?_⟩
    -- the digits are not in the rest
    have hlen : (signed.2.takeWhile isdigit).length + (signed.2.dropWhile isdigit).length =
        signed.2.length := by
      rw [← List.length_append, List.takeWhile_append_dropWhile]
    have hpos := List.length_pos_iff.2 hdigits
    have hle := hsuffix.length_le
    omega

/-- White space in front of a number does not count. -/
lemma scanUlong_dropWhile (w : ℕ) (s : List UInt8) :
    scanUlong w (s.dropWhile isspace) = scanUlong w s := by
  unfold scanUlong
  rw [List.dropWhile_idempotent]

/-- White space has no number. -/
lemma scanUlong_space {w : ℕ} {s : List UInt8} (h : ∀ c ∈ s, isspace c) :
    scanUlong w s = none := by
  have hnil : s.dropWhile isspace = [] := List.dropWhile_eq_nil_iff.2 h
  rw [← scanUlong_dropWhile, hnil]
  rfl

lemma toNat_ulongOf {w n : ℕ} (h : n < 2 ^ w) : (ulongOf w false n).toNat = n := by
  rw [ulongOf, if_neg (not_le.2 h), if_neg (by simp), BitVec.toNat_ofNat, Nat.mod_eq_of_lt h]

lemma isdigit_eq_false_of_isspace {c : UInt8} (h : isspace c) : isdigit c = false := by
  simp only [isspace, isdigit, Bool.or_eq_true, Bool.and_eq_true, beq_iff_eq, decide_eq_true_eq,
    Bool.and_eq_false_iff, decide_eq_false_iff_not, UInt8.le_iff_toNat_le, ← UInt8.toNat_inj] at h ⊢
  simp only [UInt8.toNat_ofNat] at h ⊢
  omega

lemma splitSign_of_isdigit {c : UInt8} (h : isdigit c) (s : List UInt8) :
    splitSign (c :: s) = (false, c :: s) := by
  unfold splitSign
  have hminus : c ≠ 45 := by
    rintro rfl
    contradiction
  have hplus : c ≠ 43 := by
    rintro rfl
    contradiction
  simp only [List.head?_cons, Option.some.injEq, if_neg hminus, if_neg hplus]

/-- Digits are read up to the first character that is none. -/
lemma scanUlong_digits {w : ℕ} {digits rest : List UInt8} (hdigits : ∀ c ∈ digits, isdigit c)
    (hne : digits ≠ []) (hrest : ∀ c ∈ rest.head?, isdigit c = false) :
    scanUlong w (digits ++ rest) = some (ulongOf w false (decimal digits), rest) := by
  have htake : (digits ++ rest).takeWhile isdigit = digits := by
    rw [List.takeWhile_append_of_pos hdigits]
    cases rest with
    | nil => rw [List.takeWhile_nil, List.append_nil]
    | cons c rest => rw [List.takeWhile_cons_of_neg (by simp [hrest c rfl]), List.append_nil]
  have hdrop : (digits ++ rest).dropWhile isdigit = rest := by
    rw [List.dropWhile_append_of_pos hdigits]
    cases rest with
    | nil => rfl
    | cons c rest => exact List.dropWhile_cons_of_neg (by simp [hrest c rfl])
  obtain ⟨c, ds, rfl⟩ := List.exists_cons_of_ne_nil hne
  have hc : isdigit c := hdigits c List.mem_cons_self
  have hspace : ((c :: ds) ++ rest).dropWhile isspace = (c :: ds) ++ rest := by
    refine List.dropWhile_cons_of_neg fun hsp => ?_
    rw [isdigit_eq_false_of_isspace hsp] at hc
    contradiction
  have hsign : splitSign ((c :: ds) ++ rest) = (false, (c :: ds) ++ rest) :=
    splitSign_of_isdigit hc _
  unfold scanUlong
  simp only [hspace, hsign, htake, hdrop, if_neg hne]

/-! ## Numerals -/

/-- A decimal number with white space in front of it. -/
structure Numeral where
  space : List UInt8
  digits : List UInt8
  space_isspace : ∀ c ∈ space, isspace c
  digits_isdigit : ∀ c ∈ digits, isdigit c
  digits_ne_nil : digits ≠ []

namespace Numeral

/-- Its characters. -/
def text (n : Numeral) : List UInt8 := n.space ++ n.digits

/-- Its number. -/
def value (n : Numeral) : ℕ := decimal n.digits

/-- A numeral is read up to its last digit. -/
lemma scanUlong_text (w : ℕ) (n : Numeral) {rest : List UInt8}
    (h : ∀ c ∈ rest.head?, isdigit c = false) :
    scanUlong w (n.text ++ rest) = some (ulongOf w false n.value, rest) := by
  rw [text, List.append_assoc, ← scanUlong_dropWhile,
    List.dropWhile_append_of_pos n.space_isspace, scanUlong_dropWhile]
  exact scanUlong_digits n.digits_isdigit n.digits_ne_nil h

end Numeral

end CString
