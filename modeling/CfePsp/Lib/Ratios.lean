import Mathlib.Data.Nat.GCD.Basic
import CfePsp.Lib.Loops

set_option relaxedAutoImplicit false
set_option autoImplicit false

/-!
# Reducing a ratio by trial division

The factors `2, 3, …` are tried one after another on the two terms of a ratio, as long as neither
term is smaller than the factor. A common factor is divided out and tried again.

## Main definitions

* `Ratio.Trial` — the terms and the factor that is tried.
* `Ratio.turn` — one trial.

## Main results

* `Ratio.exists_run` — the trials end with the ratio in lowest terms.
* `Ratio.mul_div_reduced` — multiplying by a ratio in lowest terms gives the same whole number.
-/

namespace Ratio

/-- The terms of the ratio, and the factor that is tried. -/
@[ext]
structure Trial where
  numer : ℕ
  denom : ℕ
  factor : ℕ
  deriving DecidableEq

/-- The factor is tried, if neither term is smaller. -/
def turn (s : Trial) : Option Trial :=
  if s.factor ≤ s.numer ∧ s.factor ≤ s.denom then
    if s.factor ∣ s.numer ∧ s.factor ∣ s.denom then
      some { s with numer := s.numer / s.factor, denom := s.denom / s.factor }
    else some { s with factor := s.factor + 1 }
  else none

/-- What holds at every trial for the ratio `n / d`: the terms are those of the ratio over a common
divisor, and no factor that was given up divides both. -/
structure Reduces (n d : ℕ) (s : Trial) : Prop where
  numer_pos : 0 < s.numer
  denom_pos : 0 < s.denom
  two_le : 2 ≤ s.factor
  exists_divisor : ∃ k, s.numer * k = n ∧ s.denom * k = d
  given_up : ∀ p, 2 ≤ p → p < s.factor → ¬(p ∣ s.numer ∧ p ∣ s.denom)

section Trials

variable {n d : ℕ} {s t : Trial}

lemma turn_eq_none (h : turn s = none) : ¬(s.factor ≤ s.numer ∧ s.factor ≤ s.denom) := by
  intro hle
  rw [turn, if_pos hle] at h
  split at h <;> cases h

/-- What a trial does: it divides the factor out, or goes on to the next one. -/
lemma turn_cases (h : turn s = some t) :
    (s.factor ∣ s.numer ∧ s.factor ∣ s.denom ∧
      t = ⟨s.numer / s.factor, s.denom / s.factor, s.factor⟩) ∨
    (s.factor ≤ s.numer ∧ s.factor ≤ s.denom ∧ ¬(s.factor ∣ s.numer ∧ s.factor ∣ s.denom) ∧
      t = ⟨s.numer, s.denom, s.factor + 1⟩) := by
  rw [turn] at h
  split at h
  · next hle =>
    split at h
    · next hdvd => exact .inl ⟨hdvd.1, hdvd.2, (Option.some.inj h).symm⟩
    · next hdvd => exact .inr ⟨hle.1, hle.2, hdvd, (Option.some.inj h).symm⟩
  · cases h

/-- The first trial. -/
lemma reduces_start (hn : 0 < n) (hd : 0 < d) : Reduces n d ⟨n, d, 2⟩ := by
  refine ⟨hn, hd, le_rfl, ⟨1, Nat.mul_one n, Nat.mul_one d⟩, ?_⟩
  intro p htwo hlt
  exact absurd htwo (not_le.2 hlt)

/-- The terms are not larger than those of the ratio. -/
lemma Reduces.numer_le (h : Reduces n d s) (hn : 0 < n) : s.numer ≤ n := by
  obtain ⟨k, hk, -⟩ := h.exists_divisor
  have hpos : 0 < k := by
    refine Nat.pos_of_ne_zero fun hzero => ?_
    rw [hzero, Nat.mul_zero] at hk
    omega
  rw [← hk]
  exact Nat.le_mul_of_pos_right s.numer hpos

/-- A trial keeps the invariant. -/
lemma Reduces.turn (h : Reduces n d s) (hturn : turn s = some t) : Reduces n d t := by
  obtain ⟨k, hkn, hkd⟩ := h.exists_divisor
  have hpos : 0 < s.factor := by
    have := h.two_le
    omega
  rcases turn_cases hturn with ⟨hn, hd, rfl⟩ | ⟨hn, hd, hnot, rfl⟩
  · obtain ⟨a, ha⟩ := hn
    obtain ⟨b, hb⟩ := hd
    have hqn : s.numer / s.factor = a := by rw [ha, Nat.mul_div_cancel_left a hpos]
    have hqd : s.denom / s.factor = b := by rw [hb, Nat.mul_div_cancel_left b hpos]
    refine ⟨?_, ?_, h.two_le, ⟨s.factor * k, ?_, ?_⟩, ?_⟩
    · exact Nat.div_pos (Nat.le_of_dvd h.numer_pos ⟨a, ha⟩) hpos
    · exact Nat.div_pos (Nat.le_of_dvd h.denom_pos ⟨b, hb⟩) hpos
    · show s.numer / s.factor * (s.factor * k) = n
      rw [← hkn, hqn, ha, Nat.mul_left_comm, Nat.mul_assoc]
    · show s.denom / s.factor * (s.factor * k) = d
      rw [← hkd, hqd, hb, Nat.mul_left_comm, Nat.mul_assoc]
    · -- what divides both quotients divides both terms
      rintro p htwo hlt ⟨hpn, hpd⟩
      dsimp only at hpn hpd
      rw [hqn] at hpn
      rw [hqd] at hpd
      refine h.given_up p htwo hlt ⟨?_, ?_⟩
      · rw [ha]
        exact hpn.mul_left _
      · rw [hb]
        exact hpd.mul_left _
  · refine ⟨h.numer_pos, h.denom_pos, Nat.le_succ_of_le h.two_le, ⟨k, hkn, hkd⟩, ?_⟩
    rintro p htwo hlt hdvd
    dsimp only at hlt hdvd
    rcases Nat.lt_succ_iff_lt_or_eq.1 hlt with hbefore | rfl
    · exact h.given_up p htwo hbefore hdvd
    · exact hnot hdvd

/-- What becomes smaller with every trial: the terms, or what the factor lacks of the first. -/
def variant (n : ℕ) (s : Trial) : ℕ := s.numer + s.denom + (n + 1 - s.factor)

lemma Reduces.variant_lt (h : Reduces n d s) (hn : 0 < n) (hturn : Ratio.turn s = some t) :
    variant n t < variant n s := by
  have htwo := h.two_le
  have hle := h.numer_le hn
  rcases turn_cases hturn with ⟨-, -, rfl⟩ | ⟨hfactor, -, -, rfl⟩
  · have hnumer := Nat.div_lt_self h.numer_pos htwo
    have hdenom := Nat.div_lt_self h.denom_pos htwo
    simp only [variant]
    omega
  · simp only [variant]
    omega

/-- A ratio is in lowest terms when no trial is left. -/
lemma Reduces.coprime (h : Reduces n d s) (hleft : Ratio.turn s = none) :
    Nat.Coprime s.numer s.denom := by
  by_contra hcop
  set g := Nat.gcd s.numer s.denom with hg
  have hpos : 0 < g := Nat.gcd_pos_of_pos_left _ h.numer_pos
  have hdvd : g ∣ s.numer ∧ g ∣ s.denom := ⟨Nat.gcd_dvd_left _ _, Nat.gcd_dvd_right _ _⟩
  have hone : g ≠ 1 := hcop
  have hnumer := Nat.le_of_dvd h.numer_pos hdvd.1
  have hdenom := Nat.le_of_dvd h.denom_pos hdvd.2
  have hsmall := turn_eq_none hleft
  exact h.given_up g (by omega) (by omega) hdvd

/-- The terms of a ratio in lowest terms. -/
lemma eq_div_gcd {a b k : ℕ} (hcop : Nat.Coprime a b) (hn : a * k = n) (hd : b * k = d)
    (hpos : 0 < n) : a = n / Nat.gcd n d ∧ b = d / Nat.gcd n d := by
  have hgcd : Nat.gcd n d = k := by
    rw [← hn, ← hd, Nat.gcd_mul_right, hcop.gcd_eq_one, Nat.one_mul]
  have hk : 0 < k := by
    refine Nat.pos_of_ne_zero fun hzero => ?_
    rw [hzero, Nat.mul_zero] at hn
    omega
  rw [hgcd, ← hn, ← hd, Nat.mul_div_cancel _ hk, Nat.mul_div_cancel _ hk]
  exact ⟨rfl, rfl⟩

/-- **Trial division** ends with the ratio in lowest terms. -/
theorem exists_run (hn : 0 < n) (hd : 0 < d) :
    ∃ t, t.numer = n / Nat.gcd n d ∧ t.denom = d / Nat.gcd n d ∧
      ∀ fuel, variant n ⟨n, d, 2⟩ < fuel → Loop.run turn fuel ⟨n, d, 2⟩ = some t := by
  obtain ⟨t, ht, hleft, hrun⟩ := Loop.exists_run (I := Reduces n d) (V := variant n)
    (fun s u hs hturn => ⟨hs.turn hturn, hs.variant_lt hn hturn⟩) (reduces_start hn hd)
  obtain ⟨k, hkn, hkd⟩ := ht.exists_divisor
  obtain ⟨hnumer, hdenom⟩ := eq_div_gcd (ht.coprime hleft) hkn hkd hn
  exact ⟨t, hnumer, hdenom, hrun⟩

end Trials

/-- **Reduced ratios.** The whole part of a multiple of a ratio does not depend on its terms. -/
theorem mul_div_reduced {n d : ℕ} (hn : 0 < n) (x : ℕ) :
    x * (n / Nat.gcd n d) / (d / Nat.gcd n d) = x * n / d := by
  have hpos : 0 < Nat.gcd n d := Nat.gcd_pos_of_pos_left d hn
  obtain ⟨a, ha⟩ := Nat.gcd_dvd_left n d
  obtain ⟨b, hb⟩ := Nat.gcd_dvd_right n d
  set g := Nat.gcd n d
  calc x * (n / g) / (d / g) = x * a / b := by
        rw [ha, hb, Nat.mul_div_cancel_left a hpos, Nat.mul_div_cancel_left b hpos]
    _ = g * (x * a) / (g * b) := (Nat.mul_div_mul_left _ _ hpos).symm
    _ = x * n / d := by
        rw [← hb, Nat.mul_left_comm, ← ha]

end Ratio
