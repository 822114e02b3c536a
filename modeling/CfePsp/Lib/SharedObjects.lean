import Mathlib.Logic.Function.Basic
import Mathlib.Tactic.Common

set_option relaxedAutoImplicit false
set_option autoImplicit false

/-!
# Objects shared by name

A system keeps objects that outlive the processes using them. A process gets hold of an object by a
name, which creates a new object if there is none of that name, and uses it by its number from then
on. Removing an object frees its name; whoever has its number goes on using it.

## Main definitions

* `SharedObjects.Table` — the objects, and which of them has which name.
* `SharedObjects.Table.Valid` — the names are those of different objects that exist.
* `SharedObjects.Table.get` — getting hold of an object by its name.
* `SharedObjects.Table.modify`, `SharedObjects.Table.unlink` — using and removing it.
* `SharedObjects.Table.Extends` — a table with the objects of another, and new ones.

## Main results

* `SharedObjects.Table.get_eq_some` — what a process gets is the object of that name, or a new one.
* `SharedObjects.Table.Valid.extends_get` — getting an object leaves the others as they are.
-/

namespace SharedObjects

variable {κ α : Type*}

/-- The objects by their numbers, and the numbers by their names. -/
structure Table (κ α : Type*) where
  object : ℕ → α
  idOf : κ → Option ℕ
  /-- The number of the next object. -/
  next : ℕ

namespace Table

/-- The names are those of different objects that exist. -/
structure Valid (t : Table κ α) : Prop where
  lt_next : ∀ {k id}, t.idOf k = some id → id < t.next
  injective : ∀ {k k' id}, t.idOf k = some id → t.idOf k' = some id → k = k'

/-- Change an object. -/
def modify (f : α → α) (id : ℕ) (t : Table κ α) : Table κ α :=
  { t with object := Function.update t.object id (f (t.object id)) }

/-- Remove an object. -/
def unlink (id : ℕ) (t : Table κ α) : Table κ α :=
  { t with idOf := fun k => if t.idOf k = some id then none else t.idOf k }

variable {t u : Table κ α} {k k' : κ} {id id' : ℕ} {f : α → α}

@[simp] lemma modify_idOf : (t.modify f id).idOf = t.idOf := rfl

lemma modify_object_self : (t.modify f id).object id = f (t.object id) := Function.update_self _ _ _

lemma modify_object_of_ne (h : id' ≠ id) : (t.modify f id).object id' = t.object id' :=
  Function.update_of_ne h _ _

lemma unlink_idOf_self (h : t.idOf k = some id) : (t.unlink id).idOf k = none := if_pos h

lemma unlink_idOf_of_ne (h : t.idOf k ≠ some id) : (t.unlink id).idOf k = t.idOf k := if_neg h

/-- Using an object keeps the table valid. -/
lemma Valid.modify (ht : t.Valid) (f : α → α) (id : ℕ) : (t.modify f id).Valid :=
  ⟨ht.lt_next, ht.injective⟩

/-- A name that is left after a removal was there before. -/
lemma idOf_of_unlink (h : (t.unlink id).idOf k = some id') : t.idOf k = some id' := by
  by_cases hk : t.idOf k = some id
  · rw [unlink_idOf_self hk] at h
    exact absurd h nofun
  · rwa [unlink_idOf_of_ne hk] at h

/-- Removing an object keeps the table valid. -/
lemma Valid.unlink (ht : t.Valid) (id : ℕ) : (t.unlink id).Valid :=
  ⟨fun h => ht.lt_next (idOf_of_unlink h),
    fun h₁ h₂ => ht.injective (idOf_of_unlink h₁) (idOf_of_unlink h₂)⟩

variable [DecidableEq κ]

/-- Get the object of a name: the one there is if it will do, and a new one if there is none and one
can be made. -/
def get (willDo : α → Bool) (new : Option α) (k : κ) (t : Table κ α) : Option (ℕ × Table κ α) :=
  match t.idOf k with
  | some id => if willDo (t.object id) then some (id, t) else none
  | none => new.map fun x =>
      (t.next, ⟨Function.update t.object t.next x, Function.update t.idOf k (some t.next),
        t.next + 1⟩)

variable {willDo : α → Bool} {new : Option α}

/-- What a process gets: the object of that name if there is one, and a new one otherwise. -/
lemma get_eq_some : t.get willDo new k = some (id, u) ↔
    (t.idOf k = some id ∧ willDo (t.object id) = true ∧ u = t) ∨
      ∃ x, t.idOf k = none ∧ new = some x ∧ id = t.next ∧
        u = ⟨Function.update t.object t.next x, Function.update t.idOf k (some t.next),
          t.next + 1⟩ := by
  cases hk : t.idOf k with
  | none =>
    simp only [get, hk, Option.map_eq_some_iff, Prod.mk.injEq, reduceCtorEq, false_and, true_and,
      false_or]
    exact exists_congr fun x => and_congr_right fun _ => and_congr eq_comm eq_comm
  | some id' =>
    have hget : t.get willDo new k = if willDo (t.object id') then some (id', t) else none := by
      simp only [get, hk]
    rw [hget]
    constructor
    · intro h
      split_ifs at h with hdo
      obtain ⟨rfl, rfl⟩ := Prod.mk.inj (Option.some.inj h)
      exact .inl ⟨rfl, hdo, rfl⟩
    · rintro (⟨h, hdo, rfl⟩ | ⟨x, h, -⟩)
      · obtain rfl := Option.some.inj h
        exact if_pos hdo
      · exact absurd h nofun

/-- An object that was got has its name. -/
lemma idOf_of_get (h : t.get willDo new k = some (id, u)) : u.idOf k = some id := by
  rcases get_eq_some.1 h with ⟨hk, -, rfl⟩ | ⟨x, -, -, rfl, rfl⟩
  · exact hk
  · exact Function.update_self _ _ _

/-- Getting an object does not change what the other names stand for. -/
lemma idOf_of_get_of_ne (h : t.get willDo new k = some (id, u)) (hne : k' ≠ k) :
    u.idOf k' = t.idOf k' := by
  rcases get_eq_some.1 h with ⟨-, -, rfl⟩ | ⟨x, -, -, rfl, rfl⟩
  · rfl
  · exact Function.update_of_ne hne _ _

/-- Getting an object does not change those there were. -/
lemma object_of_get (h : t.get willDo new k = some (id, u)) (hlt : id' < t.next) :
    u.object id' = t.object id' := by
  rcases get_eq_some.1 h with ⟨-, -, rfl⟩ | ⟨x, -, -, rfl, rfl⟩
  · rfl
  · exact Function.update_of_ne (Nat.ne_of_lt hlt) _ _

/-- The objects only become more. -/
lemma next_le_of_get (h : t.get willDo new k = some (id, u)) : t.next ≤ u.next := by
  rcases get_eq_some.1 h with ⟨-, -, rfl⟩ | ⟨x, -, -, rfl, rfl⟩
  · exact Nat.le_refl _
  · exact Nat.le_succ _

/-- The table has the objects of another under their names, and under names that were free nothing
but objects with `P`. -/
structure Extends (P : α → Prop) (t u : Table κ α) : Prop where
  valid : u.Valid
  next_le : t.next ≤ u.next
  kept : ∀ {k id}, t.idOf k = some id → u.idOf k = some id ∧ u.object id = t.object id
  new : ∀ {k id}, t.idOf k = none → u.idOf k = some id → P (u.object id)

/-- **Getting an object keeps the table valid.** -/
lemma Valid.get (ht : t.Valid) (h : t.get willDo new k = some (id, u)) : u.Valid := by
  rcases get_eq_some.1 h with ⟨-, -, rfl⟩ | ⟨x, -, -, rfl, rfl⟩
  · exact ht
  · have hold : ∀ {k' id}, Function.update t.idOf k (some t.next) k' = some id →
        k' = k ∧ id = t.next ∨ t.idOf k' = some id := by
      intro k' id hk'
      by_cases hkk : k' = k
      · subst hkk
        rw [Function.update_self] at hk'
        exact .inl ⟨rfl, (Option.some.inj hk').symm⟩
      · rw [Function.update_of_ne hkk] at hk'
        exact .inr hk'
    constructor
    · intro k' id hk'
      rcases hold hk' with ⟨-, rfl⟩ | hk'
      · exact Nat.lt_succ_self _
      · exact Nat.lt_succ_of_lt (ht.lt_next hk')
    · intro k₁ k₂ id h₁ h₂
      rcases hold h₁ with ⟨rfl, rfl⟩ | hold₁
      · rcases hold h₂ with ⟨rfl, -⟩ | hold₂
        · rfl
        · exact absurd (ht.lt_next hold₂) (Nat.lt_irrefl _)
      · rcases hold h₂ with ⟨rfl, rfl⟩ | hold₂
        · exact absurd (ht.lt_next hold₁) (Nat.lt_irrefl _)
        · exact ht.injective hold₁ hold₂

omit [DecidableEq κ] in
lemma Extends.refl {P : α → Prop} (ht : t.Valid) : Extends P t t :=
  ⟨ht, Nat.le_refl _, fun h => ⟨h, rfl⟩, fun hnone h => absurd (hnone.symm.trans h) nofun⟩

omit [DecidableEq κ] in
/-- Extending a table twice. -/
lemma Extends.trans {P : α → Prop} {v : Table κ α} (h : Extends P t u) (h' : Extends P u v) :
    Extends P t v where
  valid := h'.valid
  next_le := Nat.le_trans h.next_le h'.next_le
  kept := fun hk => by
    obtain ⟨hu, hobject⟩ := h.kept hk
    obtain ⟨hv, hobject'⟩ := h'.kept hu
    exact ⟨hv, hobject'.trans hobject⟩
  new := fun {k id} hk hv => by
    cases hu : u.idOf k with
    | none => exact h'.new hu hv
    | some id' =>
      obtain ⟨hv', hobject⟩ := h'.kept hu
      obtain rfl := Option.some.inj (hv'.symm.trans hv)
      rw [hobject]
      exact h.new hk hu

/-- **Getting an object extends the table**, by an object that was made for it at most. -/
lemma Valid.extends_get {P : α → Prop} (ht : t.Valid) (h : t.get willDo new k = some (id, u))
    (hnew : ∀ x, new = some x → P x) : Extends P t u where
  valid := ht.get h
  next_le := next_le_of_get h
  kept := fun {k' id'} hk' => by
    refine ⟨?_, object_of_get h (ht.lt_next hk')⟩
    by_cases hkk : k' = k
    · subst hkk
      rcases get_eq_some.1 h with ⟨-, -, rfl⟩ | ⟨x, hnone, -⟩
      · exact hk'
      · exact absurd (hnone.symm.trans hk') nofun
    · rwa [idOf_of_get_of_ne h hkk]
  new := fun {k' id'} hnone hk' => by
    rcases get_eq_some.1 h with ⟨-, -, rfl⟩ | ⟨x, -, hx, rfl, rfl⟩
    · exact absurd (hnone.symm.trans hk') nofun
    · by_cases hkk : k' = k
      · subst hkk
        dsimp only at hk' ⊢
        rw [Function.update_self] at hk'
        obtain rfl := Option.some.inj hk'
        rw [Function.update_self]
        exact hnew x hx
      · dsimp only at hk'
        rw [Function.update_of_ne hkk] at hk'
        exact absurd (hnone.symm.trans hk') nofun

end Table

end SharedObjects
