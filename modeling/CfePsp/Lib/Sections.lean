import CfePsp.Lib.Runs

set_option relaxedAutoImplicit false
set_option autoImplicit false

/-!
# Sections that exclude each other

Parties execute sections of code, each on one of several stores, turn by turn and interleaved with
the turns of the other parties. If a party only enters a section on a store where nobody is, the
store changes as if every section on it had run at once, in the order in which they were left.

## Main definitions

* `Sections.Body` — a section, turn by turn.
* `Sections.Body.Computes`, `Sections.Body.Serial` — what a section does by itself, and what
  sections do one after the other.
* `Sections.step` — the steps of the parties.
* `Sections.Inv` — the stores are those of sections that ran one after the other.

## Main results

* `Sections.Inv.step` — every step keeps that, if nobody enters where another party is.
* `Sections.visits_step`, `Sections.mem_log_step` — a step moves the party that does it, and records
  the result of a section that it leaves.
-/

namespace Sections

variable {ι κ γ σ ℓ ρ : Type}

/-- The code of sections: their local data at the start, a turn, and the result when they end. -/
structure Body (γ σ ℓ ρ : Type) where
  start : γ → ℓ
  turn : ℓ → σ → ℓ × σ
  done : ℓ → Option ρ

/-- A section that goes on from local data `l` on the store `x` ends with a result and a store. -/
inductive Body.Computes (b : Body γ σ ℓ ρ) : ℓ → σ → ρ → σ → Prop
  | done {l : ℓ} {x : σ} {v : ρ} (h : b.done l = some v) : b.Computes l x v x
  | turn {l : ℓ} {x y : σ} {v : ρ} (h : b.done l = none)
      (hrest : b.Computes (b.turn l x).1 (b.turn l x).2 v y) : b.Computes l x v y

/-- Sections run one after the other, with these results, and lead from one store to another. -/
def Body.Serial (b : Body γ σ ℓ ρ) : σ → List (γ × ρ) → σ → Prop
  | x, [], z => x = z
  | x, (c, v) :: log, z => ∃ y, b.Computes (b.start c) x v y ∧ b.Serial y log z

/-- A party inside a section: where, which one, and its local data. -/
structure Visit (κ γ ℓ : Type) where
  place : κ
  code : γ
  locals : ℓ

/-- The parties, the stores, and the sections that were left, with their results. -/
structure State (ι κ γ σ ℓ ρ : Type) where
  inside : ι → Option (Visit κ γ ℓ)
  store : κ → σ
  log : κ → List (γ × ρ)

/-- The steps of a party. -/
inductive Event (ι κ γ ρ : Type)
  | enter (i : ι) (k : κ) (c : γ)
  | turn (i : ι)
  | leave (i : ι) (v : ρ)

/-- Nobody is inside yet. -/
def init (store : κ → σ) : State ι κ γ σ ℓ ρ := ⟨fun _ => none, store, fun _ => []⟩

section Steps

variable [DecidableEq ι] [DecidableEq κ] [DecidableEq ρ]

/-- A step of a party. -/
def step (b : Body γ σ ℓ ρ) (s : State ι κ γ σ ℓ ρ) :
    Event ι κ γ ρ → Option (State ι κ γ σ ℓ ρ)
  | .enter i k c =>
      match s.inside i with
      | none => some { s with inside := Function.update s.inside i (some ⟨k, c, b.start c⟩) }
      | some _ => none
  | .turn i =>
      (s.inside i).bind fun visit =>
        if b.done visit.locals = none then
          let (locals, x) := b.turn visit.locals (s.store visit.place)
          some { s with
            inside := Function.update s.inside i (some { visit with locals := locals })
            store := Function.update s.store visit.place x }
        else none
  | .leave i v =>
      (s.inside i).bind fun visit =>
        if b.done visit.locals = some v then
          some { s with
            inside := Function.update s.inside i none
            log := Function.update s.log visit.place
              (s.log visit.place ++ [(visit.code, v)]) }
        else none

/-- The steps as a relation, a rule for each thing that can happen. -/
inductive Step (b : Body γ σ ℓ ρ) (s : State ι κ γ σ ℓ ρ) :
    Event ι κ γ ρ → State ι κ γ σ ℓ ρ → Prop
  | enter (i : ι) (k : κ) (c : γ) (hout : s.inside i = none) :
      Step b s (.enter i k c)
        { s with inside := Function.update s.inside i (some ⟨k, c, b.start c⟩) }
  | turn (i : ι) (visit : Visit κ γ ℓ) (hin : s.inside i = some visit)
      (hdone : b.done visit.locals = none) :
      Step b s (.turn i) { s with
        inside := Function.update s.inside i
          (some { visit with locals := (b.turn visit.locals (s.store visit.place)).1 })
        store := Function.update s.store visit.place
          (b.turn visit.locals (s.store visit.place)).2 }
  | leave (i : ι) (v : ρ) (visit : Visit κ γ ℓ) (hin : s.inside i = some visit)
      (hdone : b.done visit.locals = some v) :
      Step b s (.leave i v) { s with
        inside := Function.update s.inside i none
        log := Function.update s.log visit.place (s.log visit.place ++ [(visit.code, v)]) }

/-- Every step is one of these. -/
lemma step_cases {b : Body γ σ ℓ ρ} {s t : State ι κ γ σ ℓ ρ} {e : Event ι κ γ ρ}
    (hs : step b s e = some t) : Step b s e t := by
  cases e with
  | enter i k c =>
    cases hin : s.inside i with
    | none =>
      simp only [step, hin] at hs
      cases hs
      exact .enter i k c hin
    | some visit =>
      simp only [step, hin] at hs
      cases hs
  | turn i =>
    obtain ⟨visit, hin, hturn⟩ := Option.bind_eq_some_iff.1 hs
    split at hturn
    next hdone =>
      cases hturn
      exact .turn i visit hin hdone
    · cases hturn
  | leave i v =>
    obtain ⟨visit, hin, hleave⟩ := Option.bind_eq_some_iff.1 hs
    split at hleave
    next hdone =>
      cases hleave
      exact .leave i v visit hin hdone
    · cases hleave

end Steps

/-- Where the parties are, and in which sections. -/
def State.visits (s : State ι κ γ σ ℓ ρ) (i : ι) : Option (κ × γ) :=
  (s.inside i).map fun visit => (visit.place, visit.code)

/-- What a step makes of that. -/
def Event.visits [DecidableEq ι] (f : ι → Option (κ × γ)) :
    Event ι κ γ ρ → ι → Option (κ × γ)
  | .enter i k c => Function.update f i (some (k, c))
  | .turn _ => f
  | .leave i _ => Function.update f i none

/-- The party is inside a section on the store `k`. -/
def State.At (s : State ι κ γ σ ℓ ρ) (k : κ) (i : ι) : Prop :=
  ∃ visit, s.inside i = some visit ∧ visit.place = k

/-- A party enters only where nobody is. -/
def Alone (s : State ι κ γ σ ℓ ρ) : Event ι κ γ ρ → Prop
  | .enter _ k _ => ∀ j, ¬s.At k j
  | _ => True

/-- The store `x` is the one before the section in which a party is, if any. -/
structure Before (b : Body γ σ ℓ ρ) (s : State ι κ γ σ ℓ ρ) (k : κ) (x : σ) : Prop where
  free : (∀ i, ¬s.At k i) → s.store k = x
  busy : ∀ i visit, s.inside i = some visit → visit.place = k → ∀ v y,
    b.Computes visit.locals (s.store k) v y → b.Computes (b.start visit.code) x v y

/-- Nobody is where another party is, and every store is that of the sections that were left, one
after the other, but for the section in which a party is. -/
structure Inv (b : Body γ σ ℓ ρ) (store : κ → σ) (s : State ι κ γ σ ℓ ρ) : Prop where
  exclusive : ∀ k i j, s.At k i → s.At k j → i = j
  serial : ∀ k, ∃ x, b.Serial (store k) (s.log k) x ∧ Before b s k x

lemma at_iff {s : State ι κ γ σ ℓ ρ} {k : κ} {i : ι} :
    s.At k i ↔ ∃ c, s.visits i = some (k, c) := by
  constructor
  · rintro ⟨visit, hvisit, rfl⟩
    exact ⟨visit.code, by rw [State.visits, hvisit]; rfl⟩
  · rintro ⟨c, hc⟩
    obtain ⟨visit, hvisit, heq⟩ := Option.map_eq_some_iff.1 hc
    exact ⟨visit, hvisit, congrArg Prod.fst heq⟩

section Places

variable {s t : State ι κ γ σ ℓ ρ} {i j : ι} {k : κ} {w : Option (Visit κ γ ℓ)} [DecidableEq ι]

/-- The party itself after a step. -/
lemma at_self (ht : t.inside = Function.update s.inside i w) :
    t.At k i ↔ ∃ visit, w = some visit ∧ visit.place = k := by
  rw [State.At, ht, Function.update_self]

/-- The other parties stay where they are. -/
lemma at_of_ne (ht : t.inside = Function.update s.inside i w) (hj : j ≠ i) :
    t.At k j ↔ s.At k j := by
  rw [State.At, State.At, ht, Function.update_of_ne hj]

/-- A party that is alone where it goes keeps the parties apart. -/
lemma exclusive_of_update (h : ∀ k i j, s.At k i → s.At k j → i = j)
    (ht : t.inside = Function.update s.inside i w)
    (halone : ∀ visit, w = some visit → ∀ j, j ≠ i → ¬s.At visit.place j) :
    ∀ k j j', t.At k j → t.At k j' → j = j' := by
  -- nobody else is where the party is
  have hself : ∀ k j, t.At k i → t.At k j → j = i := by
    intro k j hi hj
    by_contra hne
    obtain ⟨visit, hvisit, rfl⟩ := (at_self ht).1 hi
    exact halone visit hvisit j hne ((at_of_ne ht hne).1 hj)
  intro k j j' hj hj'
  by_cases hji : j = i
  · subst hji
    exact (hself k j' hj hj').symm
  · by_cases hji' : j' = i
    · subst hji'
      exact hself k j hj' hj
    · exact h k j j' ((at_of_ne ht hji).1 hj) ((at_of_ne ht hji').1 hj')

/-- A step of a party elsewhere. -/
lemma Before.of_update {b : Body γ σ ℓ ρ} {x : σ} (h : Before b s k x)
    (ht : t.inside = Function.update s.inside i w) (hstore : t.store k = s.store k)
    (hold : ¬s.At k i) (hnew : ¬t.At k i) : Before b t k x := by
  constructor
  · intro hfree
    rw [hstore]
    refine h.free fun j hj => ?_
    by_cases hji : j = i
    · subst hji
      exact hold hj
    · exact hfree j ((at_of_ne ht hji).2 hj)
  · intro j visit hvisit hplace v y hcomputes
    have hji : j ≠ i := by
      rintro rfl
      exact hnew ⟨visit, hvisit, hplace⟩
    rw [ht, Function.update_of_ne hji] at hvisit
    rw [hstore] at hcomputes
    exact h.busy j visit hvisit hplace v y hcomputes

end Places

section Serial

variable {b : Body γ σ ℓ ρ} {store : κ → σ} {s t : State ι κ γ σ ℓ ρ} {x y : σ} {c : γ} {v : ρ}
  {i : ι} {k : κ} {log : List (γ × ρ)} {visit : Visit κ γ ℓ}

/-- One section more. -/
lemma Body.Serial.concat (h : b.Serial x log y) {z : σ} (hlast : b.Computes (b.start c) y v z) :
    b.Serial x (log ++ [(c, v)]) z := by
  induction log generalizing x with
  | nil =>
    obtain rfl : x = y := h
    exact ⟨z, hlast, rfl⟩
  | cons entry log ih =>
    obtain ⟨w, hfirst, hrest⟩ := h
    exact ⟨w, hfirst, ih hrest⟩

lemma inv_init : Inv b store (init store : State ι κ γ σ ℓ ρ) where
  exclusive := by
    rintro k i j ⟨visit, hvisit, -⟩
    cases hvisit
  serial k := ⟨store k, rfl, ⟨fun _ => rfl, fun i visit hvisit => by cases hvisit⟩⟩

/-- A party that is inside does not go where others are. -/
lemma Inv.ne_at (h : Inv b store s) (hin : s.inside i = some visit) :
    ∀ j, j ≠ i → ¬s.At visit.place j :=
  fun j hj hat => hj (h.exclusive _ j i hat ⟨visit, hin, rfl⟩)

variable [DecidableEq ι]

/-- A party enters where nobody is. -/
lemma Inv.enter (h : Inv b store s) (hout : s.inside i = none) (halone : ∀ j, ¬s.At k j) :
    Inv b store { s with inside := Function.update s.inside i (some ⟨k, c, b.start c⟩) } := by
  refine ⟨exclusive_of_update h.exclusive rfl ?_, fun k' => ?_⟩
  · rintro visit hvisit j -
    cases hvisit
    exact halone j
  · obtain ⟨x, hserial, hbefore⟩ := h.serial k'
    refine ⟨x, hserial, ?_⟩
    by_cases hk : k = k'
    · subst hk
      refine ⟨fun hfree => (hfree i ⟨_, Function.update_self _ _ _, rfl⟩).elim, ?_⟩
      intro j visit hvisit hplace v y hcomputes
      have hj : j = i := by
        by_contra hne
        exact halone j ((at_of_ne rfl hne).1 ⟨visit, hvisit, hplace⟩)
      subst hj
      have hsame := (Function.update_self j _ s.inside).symm.trans hvisit
      cases hsame
      rw [← hbefore.free halone]
      exact hcomputes
    · refine hbefore.of_update rfl rfl ?_ ?_
      · rintro ⟨visit, hvisit, -⟩
        rw [hout] at hvisit
        cases hvisit
      · intro hat
        obtain ⟨visit, hvisit, hplace⟩ := (at_self rfl).1 hat
        cases hvisit
        exact hk hplace

variable [DecidableEq κ]

/-- A party does a turn. -/
lemma Inv.turn (h : Inv b store s) (hin : s.inside i = some visit)
    (hdone : b.done visit.locals = none) :
    Inv b store { s with
      inside := Function.update s.inside i
        (some { visit with locals := (b.turn visit.locals (s.store visit.place)).1 })
      store := Function.update s.store visit.place
        (b.turn visit.locals (s.store visit.place)).2 } := by
  have halone := h.ne_at hin
  refine ⟨exclusive_of_update h.exclusive rfl ?_, fun k => ?_⟩
  · rintro visit' hvisit'
    cases hvisit'
    exact halone
  · obtain ⟨x, hserial, hbefore⟩ := h.serial k
    refine ⟨x, hserial, ?_⟩
    by_cases hk : visit.place = k
    · subst hk
      refine ⟨fun hfree => (hfree i ⟨_, Function.update_self _ _ _, rfl⟩).elim, ?_⟩
      intro j visit' hvisit' hplace v y hcomputes
      have hj : j = i := by
        by_contra hne
        exact halone j hne ((at_of_ne rfl hne).1 ⟨visit', hvisit', hplace⟩)
      subst hj
      have hsame := (Function.update_self j _ s.inside).symm.trans hvisit'
      cases hsame
      have hrest : b.Computes (b.turn visit.locals (s.store visit.place)).1
          (b.turn visit.locals (s.store visit.place)).2 v y := by
        simpa only [Function.update_self] using hcomputes
      exact hbefore.busy j visit hin rfl v y (.turn hdone hrest)
    · refine hbefore.of_update rfl (Function.update_of_ne (Ne.symm hk) _ _) ?_ ?_
      · rintro ⟨visit', hvisit', hplace⟩
        rw [hin] at hvisit'
        cases hvisit'
        exact hk hplace
      · intro hat
        obtain ⟨visit', hvisit', hplace⟩ := (at_self rfl).1 hat
        cases hvisit'
        exact hk hplace

/-- A party leaves. -/
lemma Inv.leave (h : Inv b store s) (hin : s.inside i = some visit)
    (hdone : b.done visit.locals = some v) :
    Inv b store { s with
      inside := Function.update s.inside i none
      log := Function.update s.log visit.place (s.log visit.place ++ [(visit.code, v)]) } := by
  refine ⟨exclusive_of_update h.exclusive rfl (fun _ hvisit => nomatch hvisit), fun k => ?_⟩
  obtain ⟨x, hserial, hbefore⟩ := h.serial k
  by_cases hk : visit.place = k
  · subst hk
    -- the section that is left ran at once from the store before it
    have hlast := hbefore.busy i visit hin rfl v _ (.done hdone)
    refine ⟨s.store visit.place, ?_, fun _ => rfl, ?_⟩
    · show b.Serial _ (Function.update s.log visit.place _ visit.place) _
      rw [Function.update_self]
      exact hserial.concat hlast
    · intro j visit' hvisit' hplace
      have hj : j ≠ i := by
        rintro rfl
        have hout := (Function.update_self j none s.inside).symm.trans hvisit'
        cases hout
      exact absurd ((at_of_ne rfl hj).1 ⟨visit', hvisit', hplace⟩) (h.ne_at hin j hj)
  · refine ⟨x, ?_, hbefore.of_update rfl rfl ?_ ?_⟩
    · show b.Serial _ (Function.update s.log visit.place _ k) _
      rw [Function.update_of_ne (Ne.symm hk)]
      exact hserial
    · rintro ⟨visit', hvisit', hplace⟩
      rw [hin] at hvisit'
      cases hvisit'
      exact hk hplace
    · intro hat
      obtain ⟨visit', hvisit', -⟩ := (at_self rfl).1 hat
      cases hvisit'

variable [DecidableEq ρ] {e : Event ι κ γ ρ}

/-- **Every step keeps the stores serial**, if nobody enters where another party is. -/
theorem Inv.step (h : Inv b store s) (halone : Alone s e) (hs : Sections.step b s e = some t) :
    Inv b store t := by
  cases step_cases hs with
  | enter i k c hout => exact h.enter hout halone
  | turn i visit hin hdone => exact h.turn hin hdone
  | leave i v visit hin hdone => exact h.leave hin hdone

/-- A step moves the party that does it. -/
lemma visits_step (hs : Sections.step b s e = some t) : t.visits = e.visits s.visits := by
  have hmap : ∀ (i : ι) (w : Option (Visit κ γ ℓ)),
      (fun j => (Function.update s.inside i w j).map fun visit => (visit.place, visit.code)) =
        Function.update s.visits i (w.map fun visit => (visit.place, visit.code)) := by
    intro i w
    funext j
    by_cases hj : j = i
    · subst hj
      rw [Function.update_self, Function.update_self]
    · rw [Function.update_of_ne hj, Function.update_of_ne hj]
      rfl
  cases step_cases hs with
  | enter i k c hout => exact hmap i _
  | turn i visit hin hdone =>
    refine (hmap i _).trans ?_
    rw [Event.visits, Function.update_eq_self_iff, State.visits, hin]
    rfl
  | leave i v visit hin hdone => exact hmap i none

/-- A step that leaves a section records its result, the others record nothing. -/
lemma mem_log_step (hs : Sections.step b s e = some t) {entry : γ × ρ} :
    entry ∈ t.log k ↔ entry ∈ s.log k ∨
      ∃ i v c, e = .leave i v ∧ s.visits i = some (k, c) ∧ entry = (c, v) := by
  cases step_cases hs with
  | enter i k' c hout => simp
  | turn i visit hin hdone => simp
  | leave i v visit hin hdone =>
    have hvisits : s.visits i = some (visit.place, visit.code) := by
      rw [State.visits, hin]
      rfl
    by_cases hk : k = visit.place
    · subst hk
      simp only [Function.update_self, List.mem_append, List.mem_singleton]
      refine or_congr_right ⟨?_, ?_⟩
      · rintro rfl
        exact ⟨i, v, visit.code, rfl, hvisits, rfl⟩
      · rintro ⟨i', v', c, heq, hc, rfl⟩
        cases heq
        rw [hvisits] at hc
        cases hc
        rfl
    · simp only [Function.update_of_ne hk]
      refine (or_iff_left ?_).symm
      rintro ⟨i', v', c, heq, hc, -⟩
      cases heq
      rw [hvisits] at hc
      cases hc
      exact hk rfl

end Serial

end Sections
