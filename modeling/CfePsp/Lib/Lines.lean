import Mathlib.Data.List.Basic
import Mathlib.Tactic.Common

set_option relaxedAutoImplicit false
set_option autoImplicit false

/-!
# Lines of a text

A text is a list of characters, one of which ends a line. A reader with a window of `N`
characters sees the lines that end before the first one that does not fit.

## Main definitions

* `Lines.complete`, `Lines.rest` — the lines of a text that are ended, and what follows them.
* `Lines.fitting` — the ended lines before the first one of `N` or more characters.
* `Lines.text` — the text of some lines, all of them ended.

## Main results

* `Lines.complete_append` — a text may be split in two parts: the rest of the first part is read
  again in front of the second one.
* `Lines.fitting_append` — so may the lines that fit, when the first part fits the window.
* `Lines.fitting_eq_nil` — no line fits once the window is full of one line.
* `Lines.fitting_text` — what fits of the text of some lines.
-/

namespace Lines

variable {α : Type*} [BEq α] [LawfulBEq α] {nl : α}

/-- The ended lines of a text, without the character that ends them. -/
def complete (nl : α) (text : List α) : List (List α) := (text.splitOn nl).dropLast

/-- What follows the last ended line. -/
def rest (nl : α) (text : List α) : List α :=
  (text.splitOn nl).getLast (List.splitOn_ne_nil nl text)

/-- The ended lines before the first one of `N` or more characters. -/
def fitting (nl : α) (N : ℕ) (text : List α) : List (List α) :=
  (complete nl text).takeWhile fun line => line.length < N

/-- The text of some lines, each one ended by `nl`. -/
def text (nl : α) (lines : List (List α)) : List α := lines.flatMap (· ++ [nl])

/-! ## Texts line by line -/

lemma complete_of_notMem {text : List α} (h : nl ∉ text) : complete nl text = [] := by
  unfold complete
  rw [List.splitOn_eq_singleton h]
  rfl

lemma rest_of_notMem {text : List α} (h : nl ∉ text) : rest nl text = text := by
  unfold rest
  simp only [List.splitOn_eq_singleton h, List.getLast_singleton]

lemma complete_cons {line : List α} (h : nl ∉ line) (text : List α) :
    complete nl (line ++ nl :: text) = line :: complete nl text := by
  unfold complete
  rw [List.splitOn_append_cons_self_of_not_mem h,
    List.dropLast_cons_of_ne_nil (List.splitOn_ne_nil nl text)]

lemma rest_cons {line : List α} (h : nl ∉ line) (text : List α) :
    rest nl (line ++ nl :: text) = rest nl text := by
  unfold rest
  simp only [List.splitOn_append_cons_self_of_not_mem h]
  exact List.getLast_cons (List.splitOn_ne_nil nl text)

/-- **Induction over a text.** A text either has no ended line or starts with one.

**Proof sketch.** Induction on the length: the first end of a line splits the text. -/
theorem text_induction (nl : α) {motive : List α → Prop}
    (lastLine : ∀ text, nl ∉ text → motive text)
    (line : ∀ line text, nl ∉ line → motive text → motive (line ++ nl :: text)) (text : List α) :
    motive text := by
  induction hn : text.length using Nat.strongRecOn generalizing text with
  | _ n ih =>
    by_cases hmem : nl ∈ text
    · obtain ⟨first, more, rfl, hfirst⟩ := List.eq_append_cons_of_mem hmem
      refine line first more hfirst (ih more.length ?_ more rfl)
      simp only [List.length_append, List.length_cons] at hn
      omega
    · exact lastLine text hmem

lemma notMem_rest (text : List α) : nl ∉ rest nl text := by
  induction text using text_induction nl with
  | lastLine text h => rwa [rest_of_notMem h]
  | line line text h ih => rwa [rest_cons h]

lemma length_lt_of_mem_complete {text line : List α} (h : line ∈ complete nl text) :
    line.length < text.length := by
  induction text using text_induction nl with
  | lastLine text hopen => simp [complete_of_notMem hopen] at h
  | line first text hfirst ih =>
    rw [complete_cons hfirst, List.mem_cons] at h
    rw [List.length_append, List.length_cons]
    rcases h with rfl | h
    · omega
    · have := ih h
      omega

/-! ## Texts in two parts -/

/-- The ended lines of a text in two parts. -/
theorem complete_append (text more : List α) :
    complete nl (text ++ more) = complete nl text ++ complete nl (rest nl text ++ more) := by
  induction text using text_induction nl with
  | lastLine text h => rw [complete_of_notMem h, rest_of_notMem h, List.nil_append]
  | line line text h ih =>
    rw [List.append_assoc, List.cons_append, complete_cons h, complete_cons h, rest_cons h, ih,
      List.cons_append]

/-! ## Lines that fit a window -/

/-- The lines that fit, of a text whose first part fits the window as a whole. -/
theorem fitting_append {N : ℕ} {text : List α} (h : text.length ≤ N) (more : List α) :
    fitting nl N (text ++ more) = complete nl text ++ fitting nl N (rest nl text ++ more) := by
  unfold fitting
  rw [complete_append, List.takeWhile_append_of_pos]
  intro line hline
  exact decide_eq_true (Nat.lt_of_lt_of_le (length_lt_of_mem_complete hline) h)

/-- Nothing fits behind the beginning of a line that fills the window. -/
theorem fitting_eq_nil {N : ℕ} {text : List α} (hopen : nl ∉ text) (h : N ≤ text.length)
    (more : List α) : fitting nl N (text ++ more) = [] := by
  unfold fitting
  by_cases hmem : nl ∈ more
  · obtain ⟨first, more, rfl, hfirst⟩ := List.eq_append_cons_of_mem hmem
    have hline : nl ∉ text ++ first := by simp [hopen, hfirst]
    rw [← List.append_assoc, complete_cons hline, List.takeWhile_cons_of_neg]
    simp only [List.length_append, decide_eq_true_eq]
    omega
  · rw [complete_of_notMem (by simp [hopen, hmem]), List.takeWhile_nil]

/-- The ended lines of the text of some lines. -/
lemma complete_text {lines : List (List α)} (h : ∀ line ∈ lines, nl ∉ line) :
    complete nl (text nl lines) = lines := by
  induction lines with
  | nil => exact complete_of_notMem List.not_mem_nil
  | cons line lines ih =>
    have hmore := ih fun line' hline' => h line' (List.mem_cons_of_mem _ hline')
    have htext : text nl (line :: lines) = line ++ nl :: text nl lines := by
      rw [text, List.flatMap_cons, List.append_assoc]
      rfl
    rw [htext, complete_cons (h line List.mem_cons_self), hmore]

/-- Of the text of some lines, those fit that come before the first one of `N` or more
characters. -/
theorem fitting_text {N : ℕ} {lines : List (List α)} (h : ∀ line ∈ lines, nl ∉ line) :
    fitting nl N (text nl lines) = lines.takeWhile fun line => line.length < N := by
  rw [fitting, complete_text h]

/-- Without an end of line no line fits. -/
lemma fitting_of_notMem {N : ℕ} {text : List α} (h : nl ∉ text) : fitting nl N text = [] := by
  unfold fitting
  rw [complete_of_notMem h, List.takeWhile_nil]

end Lines
