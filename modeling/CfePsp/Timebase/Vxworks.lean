import CfePsp.Basic
import CfePsp.Lib.Ratios

set_option relaxedAutoImplicit false
set_option autoImplicit false

/-!
# The VxWorks time base

`timebase_vxworks_Init` reduces the ratio of a period of the time base to a tick of `OS_time_t`, and
`CFE_PSP_GetTime` multiplies the 64-bit time base by the reduced ratio.

## Main definitions

* `CfePsp.Timebase.Vxworks.init` — the initialisation, with the loop that reduces the ratio.
* `CfePsp.Timebase.Vxworks.getTime` — the time at a value of the time base.
* `CfePsp.Timebase.Vxworks.Reduced` — the ratio is in lowest terms.

## Main results

* `CfePsp.Timebase.Vxworks.checkTurn_eq` — the loop over words is trial division.
* `CfePsp.Timebase.Vxworks.timebase_exact` — the initialisation ends, and the time is the exact one
  as long as the product fits 64 bits and the time 63.

## Design

The period, the resolution of a tick and what the time base register holds are arguments. The OSAL
defines `OS_time_t`, whose only member is an `int64`; what a `uint64` becomes in it is a parameter.
-/

namespace CfePsp.Timebase.Vxworks

/-! ## The program -/

/-- `PSP_VxWorks_Timebase_Global_t`. -/
structure Global where
  ticksPerSecond : Uint32
  osTimeConvNumerator : Uint32
  osTimeConvDenominator : Uint32
  deriving DecidableEq

/-- The variables of the loop of `timebase_vxworks_Init`. -/
@[ext]
structure Check where
  ratioN : Uint32
  ratioD : Uint32
  checkFactor : Uint32
  deriving DecidableEq

/-- A turn of the loop of `timebase_vxworks_Init`. -/
def checkTurn (s : Check) : Option Check :=
  if s.checkFactor ≤ s.ratioN ∧ s.checkFactor ≤ s.ratioD then
    let quotientN := s.ratioN / s.checkFactor
    let quotientD := s.ratioD / s.checkFactor
    if quotientN * s.checkFactor = s.ratioN ∧ quotientD * s.checkFactor = s.ratioD then
      some { s with ratioN := quotientN, ratioD := quotientD }
    else some { s with checkFactor := s.checkFactor + 1 }
  else none

/-- The variables when the loop is entered. -/
def checkStart (periodNumerator periodDenominator tickResolutionNs : Uint32) : Check :=
  ⟨periodNumerator, periodDenominator * tickResolutionNs, 2⟩

/-- What `timebase_vxworks_Init` saves. -/
def save (periodNumerator periodDenominator : Uint32) (s : Check) : Global :=
  let ticksPerSec : BitVec 64 := 1000000000
  let ticksPerSec := ticksPerSec * periodDenominator.setWidth 64
  let ticksPerSec := ticksPerSec / periodNumerator.setWidth 64
  { osTimeConvNumerator := s.ratioN
    osTimeConvDenominator := s.ratioD
    ticksPerSecond := (ticksPerSec &&& 0xFFFFFFFF).setWidth 32 }

/-- `timebase_vxworks_Init`, with at most `fuel` tests of the loop. -/
def init (fuel : ℕ) (periodNumerator periodDenominator tickResolutionNs : Uint32) :
    Option Global :=
  (Loop.run checkTurn fuel
    (checkStart periodNumerator periodDenominator tickResolutionNs)).map
      (save periodNumerator periodDenominator)

/-- `CFE_PSP_GetTimerTicksPerSecond`. -/
def getTimerTicksPerSecond (g : Global) : Uint32 := g.ticksPerSecond

/-- The conversion of a `uint64` to the `int64` of an `OS_time_t`: numbers that both types have are
the same in both. -/
structure OsTime where
  ticks : BitVec 64 → ℤ
  ticks_of_lt : ∀ x, x.toNat < 2 ^ 63 → ticks x = x.toNat

/-- `CFE_PSP_GetTime`, with the words that `vxTimeBaseGet` reads. -/
def getTime (os : OsTime) (g : Global) (regUpper regLower : Uint32) : ℤ :=
  let normalizedTicks : BitVec 64 := regUpper.setWidth 64
  let normalizedTicks := normalizedTicks <<< 32
  let normalizedTicks := normalizedTicks ||| regLower.setWidth 64
  let normalizedTicks := normalizedTicks * g.osTimeConvNumerator.setWidth 64
  let normalizedTicks := normalizedTicks / g.osTimeConvDenominator.setWidth 64
  os.ticks normalizedTicks

/-! ## What it is to compute -/

/-- The 64-bit time base. -/
def timebase (regUpper regLower : Uint32) : ℕ := regUpper.toNat * 2 ^ 32 + regLower.toNat

/-- The ratio that was stored is `n / d` in lowest terms. -/
structure Reduced (n d : ℕ) (g : Global) : Prop where
  numerator : g.osTimeConvNumerator.toNat = n / Nat.gcd n d
  denominator : g.osTimeConvDenominator.toNat = d / Nat.gcd n d

/-! ## The loop is trial division -/

section Search

variable {s t : Check}

/-- What the variables stand for. -/
def Check.trial (s : Check) : Ratio.Trial :=
  ⟨s.ratioN.toNat, s.ratioD.toNat, s.checkFactor.toNat⟩

lemma Check.trial_injective : Function.Injective Check.trial := by
  intro s t h
  obtain ⟨hn, hd, hf⟩ := Ratio.Trial.mk.inj h
  exact Check.ext (BitVec.eq_of_toNat_eq hn) (BitVec.eq_of_toNat_eq hd) (BitVec.eq_of_toNat_eq hf)

/-- The test for a factor does not overflow. -/
lemma div_mul_eq_iff (x f : Uint32) : x / f * f = x ↔ f.toNat ∣ x.toNat := by
  have hle := Nat.div_mul_le_self x.toNat f.toNat
  have hx := x.isLt
  rw [← BitVec.toNat_inj, BitVec.toNat_mul, BitVec.toNat_udiv, Nat.mod_eq_of_lt (by omega)]
  constructor
  · intro h
    exact Dvd.intro_left _ h
  · exact Nat.div_mul_cancel

/-- A factor that is given up is not the largest word, for then it would be both terms. -/
lemma toNat_checkFactor_succ (hn : s.checkFactor ≤ s.ratioN) (hd : s.checkFactor ≤ s.ratioD)
    (hnot : ¬(s.checkFactor.toNat ∣ s.ratioN.toNat ∧ s.checkFactor.toNat ∣ s.ratioD.toNat)) :
    (s.checkFactor + 1).toNat = s.checkFactor.toNat + 1 := by
  have hn' : s.checkFactor.toNat ≤ s.ratioN.toNat := hn
  have hd' : s.checkFactor.toNat ≤ s.ratioD.toNat := hd
  have hltn := s.ratioN.isLt
  have hltd := s.ratioD.isLt
  have hone : (1 : Uint32).toNat = 1 := rfl
  rw [BitVec.toNat_add, hone]
  refine Nat.mod_eq_of_lt ?_
  by_contra hmax
  have heqn : s.ratioN.toNat = s.checkFactor.toNat := by omega
  have heqd : s.ratioD.toNat = s.checkFactor.toNat := by omega
  exact hnot ⟨heqn ▸ dvd_rfl, heqd ▸ dvd_rfl⟩

/-- **A turn of the loop** is a trial of the factor. -/
lemma checkTurn_eq (s : Check) : Ratio.turn s.trial = (checkTurn s).map Check.trial := by
  by_cases hle : s.checkFactor ≤ s.ratioN ∧ s.checkFactor ≤ s.ratioD
  · have hle' : s.trial.factor ≤ s.trial.numer ∧ s.trial.factor ≤ s.trial.denom := hle
    by_cases hdvd : s.checkFactor.toNat ∣ s.ratioN.toNat ∧ s.checkFactor.toNat ∣ s.ratioD.toNat
    · have hdvd' : s.trial.factor ∣ s.trial.numer ∧ s.trial.factor ∣ s.trial.denom := hdvd
      rw [Ratio.turn, if_pos hle', if_pos hdvd', checkTurn, if_pos hle]
      simp only [div_mul_eq_iff, if_pos hdvd, Option.map_some, Check.trial, BitVec.toNat_udiv]
    · have hdvd' : ¬(s.trial.factor ∣ s.trial.numer ∧ s.trial.factor ∣ s.trial.denom) := hdvd
      rw [Ratio.turn, if_pos hle', if_neg hdvd', checkTurn, if_pos hle]
      simp only [div_mul_eq_iff, if_neg hdvd, Option.map_some, Check.trial,
        toNat_checkFactor_succ hle.1 hle.2 hdvd]
  · have hle' : ¬(s.trial.factor ≤ s.trial.numer ∧ s.trial.factor ≤ s.trial.denom) := hle
    rw [Ratio.turn, if_neg hle', checkTurn, if_neg hle, Option.map_none]

/-- The trial factor never wraps: a turn leaves it alone, or the next one is one larger. -/
lemma checkFactor_exact (h : checkTurn s = some t) :
    t.checkFactor = s.checkFactor ∨ t.checkFactor.toNat = s.checkFactor.toNat + 1 := by
  have htrial : Ratio.turn s.trial = some t.trial := by rw [checkTurn_eq, h, Option.map_some]
  rcases Ratio.turn_cases htrial with ⟨-, -, ht⟩ | ⟨-, -, -, ht⟩
  · exact .inl (BitVec.eq_of_toNat_eq (congrArg Ratio.Trial.factor ht))
  · exact .inr (congrArg Ratio.Trial.factor ht)

end Search

/-! ## The initialisation and the time -/

section Time

variable {num den res : Uint32} {g : Global} {n d : ℕ}

/-- **The initialisation** ends with the ratio in lowest terms. -/
lemma exists_init (hnum : 0 < num.toNat) (hpos : 0 < den.toNat * res.toNat)
    (hsize : den.toNat * res.toNat < 2 ^ 32) :
    ∃ g, Reduced num.toNat (den.toNat * res.toNat) g ∧
      ∀ fuel, 2 ^ 34 < fuel → init fuel num den res = some g := by
  obtain ⟨t, hnumer, hdenom, hrun⟩ := Ratio.exists_run hnum hpos
  have hstart : (checkStart num den res).trial = ⟨num.toNat, den.toNat * res.toNat, 2⟩ := by
    rw [Check.trial, checkStart, BitVec.toNat_mul, Nat.mod_eq_of_lt hsize]
    rfl
  have hvariant : Ratio.variant num.toNat ⟨num.toNat, den.toNat * res.toNat, 2⟩ < 2 ^ 34 := by
    have hlt := num.isLt
    simp only [Ratio.variant]
    omega
  -- the loop over words is left in a state that stands for `t`
  have hleft : ∀ fuel, 2 ^ 34 < fuel →
      (Loop.run checkTurn fuel (checkStart num den res)).map Check.trial = some t := by
    intro fuel hfuel
    rw [← Loop.run_map checkTurn_eq, hstart]
    exact hrun fuel (hvariant.trans hfuel)
  obtain ⟨s, -, rfl⟩ := Option.map_eq_some_iff.1 (hleft (2 ^ 34 + 1) (Nat.lt_succ_self _))
  refine ⟨save num den s, ⟨hnumer, hdenom⟩, fun fuel hfuel => ?_⟩
  have hrun : Loop.run checkTurn fuel (checkStart num den res) = some s :=
    Option.map_injective Check.trial_injective (hleft fuel hfuel)
  rw [init, hrun, Option.map_some]

/-- The two words of the time base are joined. -/
lemma toNat_registers (regUpper regLower : Uint32) :
    (regUpper.setWidth 64 <<< 32 ||| regLower.setWidth 64).toNat = timebase regUpper regLower := by
  have hupper : (regUpper.setWidth 64).toNat = regUpper.toNat :=
    BitVec.toNat_setWidth_of_le (by omega)
  have hlower : (regLower.setWidth 64).toNat = regLower.toNat :=
    BitVec.toNat_setWidth_of_le (by omega)
  have hltu := regUpper.isLt
  have hltl := regLower.isLt
  rw [Field.toNat_shiftLeft_or (by omega) (by omega), hupper, hlower]
  rfl

/-- The time, as long as the product and the time fit their types. -/
lemma getTime_eq (os : OsTime) (g : Global) {regUpper regLower : Uint32}
    (hprod : timebase regUpper regLower * g.osTimeConvNumerator.toNat < 2 ^ 64)
    (htime : timebase regUpper regLower * g.osTimeConvNumerator.toNat /
      g.osTimeConvDenominator.toNat < 2 ^ 63) :
    getTime os g regUpper regLower =
      (timebase regUpper regLower * g.osTimeConvNumerator.toNat /
        g.osTimeConvDenominator.toNat : ℕ) := by
  have hnumer : (g.osTimeConvNumerator.setWidth 64).toNat = g.osTimeConvNumerator.toNat :=
    BitVec.toNat_setWidth_of_le (by omega)
  have hdenom : (g.osTimeConvDenominator.setWidth 64).toNat = g.osTimeConvDenominator.toNat :=
    BitVec.toNat_setWidth_of_le (by omega)
  have hticks : ((regUpper.setWidth 64 <<< 32 ||| regLower.setWidth 64) *
      g.osTimeConvNumerator.setWidth 64 / g.osTimeConvDenominator.setWidth 64).toNat =
        timebase regUpper regLower * g.osTimeConvNumerator.toNat /
          g.osTimeConvDenominator.toNat := by
    rw [BitVec.toNat_udiv, BitVec.toNat_mul, toNat_registers, hnumer, hdenom,
      Nat.mod_eq_of_lt hprod]
  rw [getTime, os.ticks_of_lt _ (by rwa [hticks]), hticks]

/-- The time at a value `t` of the time base, for the ratio `n / d`: it fits the types. -/
def Fits (n d t : ℕ) : Prop := t * (n / Nat.gcd n d) < 2 ^ 64 ∧ t * n / d < 2 ^ 63

instance (n d t : ℕ) : Decidable (Fits n d t) := inferInstanceAs (Decidable (_ ∧ _))

/-- With the reduced ratio the time is the exact one. -/
lemma Reduced.getTime_eq (os : OsTime) (h : Reduced n d g) (hn : 0 < n)
    {regUpper regLower : Uint32} (hfits : Fits n d (timebase regUpper regLower)) :
    getTime os g regUpper regLower = (timebase regUpper regLower * n / d : ℕ) := by
  obtain ⟨hprod, htime⟩ := hfits
  have hreduced := Ratio.mul_div_reduced (d := d) hn (timebase regUpper regLower)
  rw [← h.numerator, ← h.denominator] at hreduced
  rw [← h.numerator] at hprod
  rw [← hreduced] at htime ⊢
  exact Vxworks.getTime_eq os g hprod htime

/-- **The VxWorks time base.** For every period and every resolution of a tick whose product with
the denominator of the period has 32 bits, the initialisation ends with the ratio in lowest terms,
and its trial factor never wraps. The time is then the whole part of the exact quotient, wherever
the product with the reduced numerator has 64 bits and the quotient fits an `int64`, and it does not
go back there.

**Proof sketch.** The loop over words is trial division over numbers (`checkTurn_eq`). Reducing the
ratio does not change the quotient. -/
theorem timebase_exact (os : OsTime) (hnum : 1 ≤ num.toNat) (hden : 1 ≤ den.toNat)
    (hres : 1 ≤ res.toNat) (hsize : den.toNat * res.toNat < 2 ^ 32) :
    ∃ g, (∀ fuel, 2 ^ 34 < fuel → init fuel num den res = some g) ∧
      (∀ s t, checkTurn s = some t →
        t.checkFactor = s.checkFactor ∨ t.checkFactor.toNat = s.checkFactor.toNat + 1) ∧
      Reduced num.toNat (den.toNat * res.toNat) g ∧
      Nat.Coprime g.osTimeConvNumerator.toNat g.osTimeConvDenominator.toNat ∧
      (∀ regUpper regLower,
        Fits num.toNat (den.toNat * res.toNat) (timebase regUpper regLower) →
          getTime os g regUpper regLower =
            (timebase regUpper regLower * num.toNat / (den.toNat * res.toNat) : ℕ)) ∧
      ∀ regUpper regLower regUpper' regLower',
        timebase regUpper regLower ≤ timebase regUpper' regLower' →
        Fits num.toNat (den.toNat * res.toNat) (timebase regUpper' regLower') →
          getTime os g regUpper regLower ≤ getTime os g regUpper' regLower' := by
  obtain ⟨g, hreduced, hinit⟩ := exists_init hnum (Nat.mul_pos hden hres) hsize
  have htime : ∀ regUpper regLower,
      Fits num.toNat (den.toNat * res.toNat) (timebase regUpper regLower) →
        getTime os g regUpper regLower =
          (timebase regUpper regLower * num.toNat / (den.toNat * res.toNat) : ℕ) :=
    fun _ _ hfits => hreduced.getTime_eq os hnum hfits
  refine ⟨g, hinit, fun s t => checkFactor_exact, hreduced, ?_, htime, ?_⟩
  · rw [hreduced.numerator, hreduced.denominator]
    exact Nat.coprime_div_gcd_div_gcd (Nat.gcd_pos_of_pos_left _ hnum)
  · intro regUpper regLower regUpper' regLower' hle hfits
    -- what fits at the later value fits at the earlier one
    have hquotient := Nat.div_le_div_right (c := den.toNat * res.toNat)
      (Nat.mul_le_mul_right num.toNat hle)
    have hearlier : Fits num.toNat (den.toNat * res.toNat) (timebase regUpper regLower) :=
      ⟨(Nat.mul_le_mul_right _ hle).trans_lt hfits.1, hquotient.trans_lt hfits.2⟩
    rw [htime _ _ hearlier, htime _ _ hfits]
    exact Int.ofNat_le.2 hquotient

end Time

/-! ## Examples -/

/-- An `int64` that takes the bits of a `uint64`. -/
def int64 : OsTime where
  ticks := BitVec.toInt
  ticks_of_lt := fun x h => BitVec.toInt_eq_toNat_of_lt (by omega)

/-- A period of 240 ns in ticks of 100 ns: the ratio is 12/5. -/
theorem timebase_exact_of_reducible :
    ∃ g, init (2 ^ 34 + 1) 84000 350 100 = some g ∧ g.osTimeConvNumerator.toNat = 12 ∧
      g.osTimeConvDenominator.toNat = 5 ∧ getTime int64 g 0x10000000 0 = 2767011611056432742 := by
  obtain ⟨g, hinit, -, hreduced, -, htime, -⟩ := timebase_exact int64
    (show 1 ≤ (84000 : Uint32).toNat by decide) (show 1 ≤ (350 : Uint32).toNat by decide)
    (show 1 ≤ (100 : Uint32).toNat by decide) (by decide)
  exact ⟨g, hinit _ (Nat.lt_succ_self _), hreduced.numerator, hreduced.denominator,
    htime 0x10000000 0 (by decide)⟩

/-- With a period of one tick the time base itself is the time, and the time becomes negative when
the time base passes `2 ^ 63`. -/
theorem timebase_notExact :
    ∃ g, init 1 1 1 1 = some g ∧ timebase 0x80000000 0 * (1 / Nat.gcd 1 (1 * 1)) < 2 ^ 64 ∧
      getTime int64 g 0x80000000 0 ≠ (timebase 0x80000000 0 * 1 / (1 * 1) : ℕ) ∧
      timebase 0x7FFFFFFF 0 ≤ timebase 0x80000000 0 ∧
      getTime int64 g 0x80000000 0 < getTime int64 g 0x7FFFFFFF 0 := by
  refine ⟨⟨1000000000, 1, 1⟩, by decide, by decide, by decide, by decide, by decide⟩

end CfePsp.Timebase.Vxworks
