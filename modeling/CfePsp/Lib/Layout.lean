import Mathlib.Data.Set.Lattice
import Mathlib.Order.CompletePartialOrder
import Mathlib.Order.Interval.Set.Basic
import CfePsp.Lib.Fields

set_option relaxedAutoImplicit false
set_option autoImplicit false

/-!
# Areas laid out one after another

A block of memory is often divided by a cursor: an area is placed at the cursor, and the cursor
moves past it, rounded up to the next multiple of a power of two. Rounding the size before it is
added or the address after it makes no difference to what matters: the areas are disjoint and lie
between the first and the last position of the cursor. The machine computes all this modulo the size
of the address space.

## Main definitions

* `Layout.Area` — an area of memory, and its bytes.
* `Layout.alignUp`, `Layout.roundUp` — rounding up, of numbers and of words.
* `Layout.Ordered` — areas one after another.
* `Layout.place`, `Layout.finish` — the areas a cursor places, and where it ends.
* `Layout.afterSize`, `Layout.afterAddress` — the two cursors that round up.

## Main results

* `Layout.roundUp_ofNat` — the words round up as the numbers do.
* `Layout.Ordered.pairwise`, `Layout.ordered_place` — areas placed by a cursor do not overlap.
* `Layout.Area.bytes_wrap` — an area that ends in the address space is where the machine puts it.
* `Layout.fits_of_wrap` — areas that are apart and in range for the machine are so in exact numbers.
-/

namespace Layout

/-! ## Areas -/

/-- An area of memory: its first address and its size. -/
@[ext]
structure Area where
  start : ℕ
  size : ℕ
  deriving DecidableEq

/-- The addresses of an area. -/
def Area.bytes (x : Area) : Set ℕ := Set.Ico x.start (x.start + x.size)

@[simp] lemma Area.mem_bytes {x : Area} {a : ℕ} :
    a ∈ x.bytes ↔ x.start ≤ a ∧ a < x.start + x.size := Iff.rfl

/-- An area of size zero has no bytes. -/
lemma Area.bytes_of_size_zero {x : Area} (h : x.size = 0) : x.bytes = ∅ := by
  unfold bytes
  rw [h, Nat.add_zero, Set.Ico_self]

/-- An area that ends before another begins shares no byte with it. -/
lemma Area.disjoint_of_le {x y : Area} (h : x.start + x.size ≤ y.start) :
    Disjoint x.bytes y.bytes := by
  rw [Set.disjoint_left]
  intro a hx hy
  simp only [mem_bytes] at hx hy
  omega

/-- Two areas of a block with a common byte are not disjoint. -/
lemma Area.not_disjoint {x y : Area} {a : ℕ} (hx : a ∈ x.bytes) (hy : a ∈ y.bytes) :
    ¬Disjoint x.bytes y.bytes :=
  fun h => Set.disjoint_left.1 h hx hy

/-! ## Rounding up -/

section Rounding

variable {k w : ℕ}

/-- The least multiple of `2 ^ k` that is not below `n`. -/
def alignUp (k n : ℕ) : ℕ := n + (2 ^ k - 1) - (n + (2 ^ k - 1)) % 2 ^ k

lemma alignUp_mod (k n : ℕ) : alignUp k n % 2 ^ k = 0 := by
  rw [alignUp]
  exact Nat.mod_eq_zero_of_dvd (Nat.dvd_sub_mod _)

lemma le_alignUp (k n : ℕ) : n ≤ alignUp k n := by
  have hlt := Nat.mod_lt (n + (2 ^ k - 1)) (Nat.two_pow_pos k)
  rw [alignUp]
  omega

lemma alignUp_lt (k n : ℕ) : alignUp k n < n + 2 ^ k := by
  have hpos := Nat.two_pow_pos k
  rw [alignUp]
  omega

/-- No multiple of `2 ^ k` lies between a number and its rounding. -/
lemma alignUp_le {n m : ℕ} (h : n ≤ m) (hm : m % 2 ^ k = 0) : alignUp k n ≤ m := by
  obtain ⟨q, rfl⟩ := Nat.dvd_of_mod_eq_zero hm
  obtain ⟨p, hp⟩ := Nat.dvd_of_mod_eq_zero (alignUp_mod k n)
  have hlt := alignUp_lt k n
  rw [hp] at hlt ⊢
  refine Nat.mul_le_mul_left _ ?_
  by_contra hgt
  have hstep := Nat.mul_le_mul_left (2 ^ k) (Nat.succ_le_of_lt (not_le.1 hgt))
  rw [Nat.mul_succ] at hstep
  omega

/-- Rounding up a multiple of `2 ^ k` does nothing. -/
lemma alignUp_of_mod {n : ℕ} (h : n % 2 ^ k = 0) : alignUp k n = n :=
  le_antisymm (alignUp_le le_rfl h) (le_alignUp k n)

/-- A multiple of `2 ^ k` can be added before or after rounding up. -/
lemma alignUp_add {m : ℕ} (n : ℕ) (hm : m % 2 ^ k = 0) : alignUp k (m + n) = m + alignUp k n := by
  have hmod : (m + n + (2 ^ k - 1)) % 2 ^ k = (n + (2 ^ k - 1)) % 2 ^ k := by
    rw [Nat.add_assoc, Nat.add_mod, hm, Nat.zero_add, Nat.mod_mod]
  have hle := Nat.mod_le (n + (2 ^ k - 1)) (2 ^ k)
  rw [alignUp, alignUp, hmod]
  omega

/-- Rounding up as it is computed: the mask is added and taken out. -/
def roundUp (mask x : BitVec w) : BitVec w := (x + mask) &&& ~~~mask

/-- **Words round up as the numbers do**, modulo the size of the word. -/
lemma roundUp_ofNat (hk : k ≤ w) (n : ℕ) :
    roundUp (BitVec.ofNat w (2 ^ k - 1)) (BitVec.ofNat w n) = BitVec.ofNat w (alignUp k n) := by
  apply BitVec.eq_of_toNat_eq
  rw [roundUp, Field.toNat_and_not_mask hk, ← BitVec.ofNat_add, BitVec.toNat_ofNat,
    BitVec.toNat_ofNat, alignUp, Nat.mod_mod_of_dvd _ (Nat.pow_dvd_pow 2 hk)]
  -- the multiples of the size of the word that were dropped are multiples of `2 ^ k` too
  set m := n + (2 ^ k - 1)
  have hmod : m % 2 ^ w % 2 ^ k = m % 2 ^ k := Nat.mod_mod_of_dvd _ (Nat.pow_dvd_pow 2 hk)
  have hle := Nat.mod_le (m % 2 ^ w) (2 ^ k)
  rw [hmod] at hle
  have hlt : m % 2 ^ w - m % 2 ^ k < 2 ^ w :=
    (Nat.sub_le _ _).trans_lt (Nat.mod_lt m (Nat.two_pow_pos w))
  calc m % 2 ^ w - m % 2 ^ k
      = (m % 2 ^ w - m % 2 ^ k + 2 ^ w * (m / 2 ^ w)) % 2 ^ w := by
        rw [Nat.add_mul_mod_self_left, Nat.mod_eq_of_lt hlt]
    _ = (m % 2 ^ w + 2 ^ w * (m / 2 ^ w) - m % 2 ^ k) % 2 ^ w := by
        rw [Nat.sub_add_comm hle]
    _ = (m - m % 2 ^ k) % 2 ^ w := by rw [Nat.mod_add_div]

lemma roundUp_eq (hk : k ≤ w) (s : BitVec w) :
    roundUp (BitVec.ofNat w (2 ^ k - 1)) s = BitVec.ofNat w (alignUp k s.toNat) := by
  rw [← roundUp_ofNat hk, BitVec.ofNat_toNat, BitVec.setWidth_eq]

/-- A word that was rounded up is a multiple of `2 ^ k`, also when it came round. -/
lemma dvd_toNat_roundUp (hk : k ≤ w) (x : BitVec w) :
    2 ^ k ∣ (roundUp (BitVec.ofNat w (2 ^ k - 1)) x).toNat := by
  rw [roundUp_eq hk, BitVec.toNat_ofNat, Nat.dvd_mod_iff (Nat.pow_dvd_pow 2 hk)]
  exact Nat.dvd_of_mod_eq_zero (alignUp_mod k x.toNat)

/-- Adding a size that was rounded up keeps how far a word is from a multiple of `2 ^ k`. -/
lemma dvd_toNat_add_roundUp_iff (hk : k ≤ w) (x s : BitVec w) :
    2 ^ k ∣ (x + roundUp (BitVec.ofNat w (2 ^ k - 1)) s).toNat ↔ 2 ^ k ∣ x.toNat := by
  rw [BitVec.toNat_add, Nat.dvd_mod_iff (Nat.pow_dvd_pow 2 hk)]
  exact (Nat.dvd_add_iff_left (dvd_toNat_roundUp hk s)).symm

/-- An address is rounded up after the size was added to it. -/
lemma roundUp_add (hk : k ≤ w) (c : ℕ) (s : BitVec w) :
    roundUp (BitVec.ofNat w (2 ^ k - 1)) (BitVec.ofNat w c + s) =
      BitVec.ofNat w (alignUp k (c + s.toNat)) := by
  rw [← roundUp_ofNat hk, BitVec.ofNat_add, BitVec.ofNat_toNat, BitVec.setWidth_eq]

/-- A size is rounded up before it is added to the address. -/
lemma add_roundUp (hk : k ≤ w) (c : ℕ) (s : BitVec w) :
    BitVec.ofNat w c + roundUp (BitVec.ofNat w (2 ^ k - 1)) s =
      BitVec.ofNat w (c + alignUp k s.toNat) := by
  rw [BitVec.ofNat_add, roundUp_eq hk]

end Rounding

/-! ## Areas one after another -/

/-- The areas lie one after another between `c` and `e`. -/
def Ordered : ℕ → List Area → ℕ → Prop
  | c, [], e => c ≤ e
  | c, x :: rest, e => c ≤ x.start ∧ Ordered (x.start + x.size) rest e

section Ordered

variable {c e : ℕ} {l : List Area}

lemma Ordered.le (h : Ordered c l e) : c ≤ e := by
  induction l generalizing c with
  | nil => exact h
  | cons x rest ih =>
    have hrest := ih h.2
    have hstart := h.1
    omega

/-- Each area lies between the ends. -/
lemma Ordered.bounds (h : Ordered c l e) {x : Area} (hx : x ∈ l) :
    c ≤ x.start ∧ x.start + x.size ≤ e := by
  induction l generalizing c with
  | nil => simp at hx
  | cons y rest ih =>
    rcases List.mem_cons.1 hx with rfl | hx
    · exact ⟨h.1, h.2.le⟩
    · have hrest := ih h.2 hx
      have hstart := h.1
      exact ⟨by omega, hrest.2⟩

/-- **No two of the areas overlap.** -/
lemma Ordered.pairwise (h : Ordered c l e) : l.Pairwise fun x y => Disjoint x.bytes y.bytes := by
  induction l generalizing c with
  | nil => exact List.Pairwise.nil
  | cons x rest ih =>
    exact List.Pairwise.cons (fun y hy => Area.disjoint_of_le (h.2.bounds hy).1) (ih h.2)

end Ordered

/-! ## The cursor -/

section Cursor

variable {next : ℕ → ℕ → ℕ}

/-- The areas placed by a cursor that starts at `c` and moves to `next c s` past an area of size
`s`. -/
def place (next : ℕ → ℕ → ℕ) : ℕ → List ℕ → List Area
  | _, [] => []
  | c, s :: rest => ⟨c, s⟩ :: place next (next c s) rest

/-- Where the cursor ends. -/
def finish (next : ℕ → ℕ → ℕ) (c : ℕ) (sizes : List ℕ) : ℕ := sizes.foldl next c

@[simp] lemma place_nil (c : ℕ) : place next c [] = [] := rfl

@[simp] lemma place_cons (c s : ℕ) (rest : List ℕ) :
    place next c (s :: rest) = ⟨c, s⟩ :: place next (next c s) rest := rfl

@[simp] lemma finish_nil (c : ℕ) : finish next c [] = c := rfl

@[simp] lemma finish_cons (c s : ℕ) (rest : List ℕ) :
    finish next c (s :: rest) = finish next (next c s) rest := rfl

/-- The areas have the sizes that were asked for. -/
lemma map_size_place (c : ℕ) (sizes : List ℕ) : (place next c sizes).map Area.size = sizes := by
  induction sizes generalizing c with
  | nil => rfl
  | cons s rest ih => rw [place_cons, List.map_cons, ih]

lemma Ordered.mono {c c' e : ℕ} {l : List Area} (hc : c' ≤ c) (h : Ordered c l e) :
    Ordered c' l e := by
  cases l with
  | nil => exact hc.trans h
  | cons x rest => exact ⟨hc.trans h.1, h.2⟩

/-- A cursor that moves past each area places the areas one after another. -/
lemma ordered_place (hnext : ∀ c s, c + s ≤ next c s) (c : ℕ) (sizes : List ℕ) :
    Ordered c (place next c sizes) (finish next c sizes) := by
  induction sizes generalizing c with
  | nil => exact le_rfl
  | cons s rest ih => exact ⟨le_rfl, (ih (next c s)).mono (hnext c s)⟩

end Cursor

/-! ## Rounding cursors -/

section Rounded

variable {k : ℕ}

/-- The cursor that rounds the size of an area up. -/
def afterSize (k c s : ℕ) : ℕ := c + alignUp k s

/-- The cursor that rounds the address after an area up. -/
def afterAddress (k c s : ℕ) : ℕ := alignUp k (c + s)

lemma ordered_afterSize (k c : ℕ) (sizes : List ℕ) :
    Ordered c (place (afterSize k) c sizes) (finish (afterSize k) c sizes) :=
  ordered_place (fun c s => Nat.add_le_add_left (le_alignUp k s) c) c sizes

lemma ordered_afterAddress (k c : ℕ) (sizes : List ℕ) :
    Ordered c (place (afterAddress k) c sizes) (finish (afterAddress k) c sizes) :=
  ordered_place (fun c s => le_alignUp k (c + s)) c sizes

@[simp] lemma afterSize_zero (c : ℕ) : afterSize k c 0 = c := by
  rw [afterSize, alignUp_of_mod (Nat.zero_mod _), Nat.add_zero]

lemma afterSize_add (b c s : ℕ) : afterSize k (b + c) s = b + afterSize k c s :=
  Nat.add_assoc b c _

/-- The area `b` further on. -/
def Area.shift (b : ℕ) (x : Area) : Area := ⟨b + x.start, x.size⟩

/-- Where sizes are rounded, a layout can be moved as a whole. -/
lemma place_add (b c : ℕ) (sizes : List ℕ) :
    place (afterSize k) (b + c) sizes = (place (afterSize k) c sizes).map (Area.shift b) := by
  induction sizes generalizing c with
  | nil => rfl
  | cons s rest ih =>
    rw [place_cons, place_cons, List.map_cons, afterSize_add, ih]
    rfl

lemma finish_add (b c : ℕ) (sizes : List ℕ) :
    finish (afterSize k) (b + c) sizes = b + finish (afterSize k) c sizes := by
  induction sizes generalizing c with
  | nil => rfl
  | cons s rest ih => rw [finish_cons, finish_cons, afterSize_add, ih]

/-- An area that does not start where the layout does has a non-empty area before it. -/
lemma exists_first {c : ℕ} {sizes : List ℕ} {x : Area} (hx : x ∈ place (afterSize k) c sizes)
    (hstart : x.start ≠ c) : ∃ y ∈ place (afterSize k) c sizes, y.start = c ∧ 0 < y.size := by
  induction sizes generalizing c with
  | nil => simp at hx
  | cons s rest ih =>
    rcases List.mem_cons.1 hx with rfl | hx
    · exact absurd rfl hstart
    · rcases Nat.eq_zero_or_pos s with rfl | hpos
      · rw [afterSize_zero] at hx
        obtain ⟨y, hy, hfirst⟩ := ih hx hstart
        refine ⟨y, ?_, hfirst⟩
        rw [place_cons, afterSize_zero]
        exact List.mem_cons_of_mem _ hy
      · exact ⟨⟨c, s⟩, List.mem_cons_self, rfl, hpos⟩

end Rounded

/-! ## Areas of the machine -/

/-- The area as the machine sees it, whose addresses are words. -/
def Area.wrap (w : ℕ) (x : Area) : Area := ⟨x.start % 2 ^ w, x.size⟩

/-- An area that ends in the address space is where the machine puts it. -/
lemma Area.bytes_wrap {w : ℕ} {x : Area} (h : x.start + x.size ≤ 2 ^ w) :
    (x.wrap w).bytes = x.bytes := by
  rcases Nat.eq_zero_or_pos x.size with hzero | hpos
  · rw [bytes_of_size_zero hzero, bytes_of_size_zero (x := x.wrap w) hzero]
  · have hlt : x.start < 2 ^ w := by omega
    ext a
    simp only [mem_bytes, wrap, Nat.mod_eq_of_lt hlt]

/-- An area with bytes that lies in the `R` bytes from `b` on, for the machine, is as far behind `b`
as its own address says, modulo the size of the address space. -/
lemma wrap_shift_of_subset {w b R : ℕ} {x : Area} (hpos : 0 < x.size)
    (h : ((x.shift b).wrap w).bytes ⊆ (⟨b, R⟩ : Area).bytes) :
    ((x.shift b).wrap w).start = b + (x.wrap w).start ∧ (x.wrap w).start + x.size ≤ R := by
  have hfirst : b ≤ (b + x.start) % 2 ^ w := (h ⟨le_rfl, Nat.lt_add_of_pos_right hpos⟩).1
  have hlast : (b + x.start) % 2 ^ w + x.size - 1 < b + R := by
    have hmem : (b + x.start) % 2 ^ w + x.size - 1 ∈ ((x.shift b).wrap w).bytes := by
      show (b + x.start) % 2 ^ w ≤ _ ∧ _ < (b + x.start) % 2 ^ w + x.size
      omega
    exact (h hmem).2
  have hmod : (b + x.start) % 2 ^ w = b + x.start % 2 ^ w := by
    rw [← Nat.add_mod_mod] at hfirst ⊢
    have hlt := Nat.mod_lt x.start (Nat.two_pow_pos w)
    rcases Nat.lt_or_ge (b + x.start % 2 ^ w) (2 ^ w) with hsmall | hlarge
    · exact Nat.mod_eq_of_lt hsmall
    · rw [Nat.mod_eq_sub_mod hlarge, Nat.mod_eq_of_lt (by omega)] at hfirst
      omega
  refine ⟨hmod, ?_⟩
  show x.start % 2 ^ w + x.size ≤ R
  omega

/-- **A cursor that seems to stay in range does.** Let the non-empty areas, as the machine sees
them, end below `R`, and let none of them but the first start at zero. Then no area was moved by the
wrapping of the cursor.

**Proof sketch.** The cursor is a multiple of `2 ^ k` and never beyond `R` rounded up, so it wraps
at most once, and then to exactly zero, where only the first area may start. -/
lemma fits_of_wrap {k w R c : ℕ} {sizes : List ℕ} (hR : alignUp k R ≤ 2 ^ w)
    (hmod : c % 2 ^ k = 0) (hc : c ≤ alignUp k R)
    (h : ∀ x ∈ place (afterSize k) c sizes, 0 < x.size →
      (x.wrap w).start + x.size ≤ R ∧ ((x.wrap w).start = 0 → x.start = 0)) :
    ∀ x ∈ place (afterSize k) c sizes, 0 < x.size → x.start + x.size ≤ R := by
  induction sizes generalizing c with
  | nil => simp
  | cons s rest ih =>
    rcases Nat.eq_zero_or_pos s with rfl | hpos
    · -- an empty area does not move the cursor
      intro x hx hsize
      rw [place_cons, afterSize_zero] at hx h
      rcases List.mem_cons.1 hx with rfl | hx
      · exact absurd hsize (lt_irrefl 0)
      · exact ih hmod hc (fun y hy => h y (List.mem_cons_of_mem _ hy)) x hx hsize
    · obtain ⟨hend, hzero⟩ := h ⟨c, s⟩ List.mem_cons_self hpos
      have hlt : c < 2 ^ w := by
        refine lt_of_le_of_ne (hc.trans hR) fun heq => ?_
        have hstart : c = 0 := hzero (by rw [Area.wrap, heq, Nat.mod_self])
        have hpow := Nat.two_pow_pos w
        omega
      simp only [Area.wrap, Nat.mod_eq_of_lt hlt] at hend
      have hnext : afterSize k c s = alignUp k (c + s) := (alignUp_add s hmod).symm
      have hnext_le : afterSize k c s ≤ alignUp k R := by
        rw [hnext]
        exact alignUp_le (hend.trans (le_alignUp k R)) (alignUp_mod k R)
      intro x hx hsize
      rcases List.mem_cons.1 hx with rfl | hx
      · exact hend
      · refine ih ?_ hnext_le (fun y hy => h y (List.mem_cons_of_mem _ hy)) x hx hsize
        rw [hnext]
        exact alignUp_mod k _

end Layout
