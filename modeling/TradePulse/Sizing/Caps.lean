/-
**Sizing under caps.**

A size is cut down by a sequence of caps, one after another.  Some caps round their bound down to a
grid of `1 / p` before they compare, some compare the size as it is and round only when it is too
large, and some are switched off.  The module proves what the whole sequence does: the size never
grows, it stays under every bound, a smaller size that the sequence would have left is left alone,
and tighter caps leave a smaller size.  The last is not a property of each cap by itself: a size
that a tight cap leaves alone may lie above the grid point a loose cap cuts to, unless it is on the
grid already.

Main definitions:

* `floorTo p x` — the largest multiple of `1 / p` below `x`, zero for a negative `x`;
* `OnGrid p a` — rounding leaves `a` alone;
* `Cap`, `Cap.apply`, `sizeBy` — one cap, and a sequence of caps;
* `Cap.Tighter` — the first cap bounds at least as tightly as the second.

Main results:

* `sizeBy_le` — the size only shrinks;
* `sizeBy_le_bound` — a positive size is under the bound of every cap;
* `sizeBy_of_le` — a positive size below the result passes every cap unchanged;
* `sizeBy_mono` — tighter caps, cap by cap, leave a smaller size.
-/

import Mathlib.Algebra.Order.Floor.Ring
import Mathlib.Algebra.Order.Field.Basic
import Mathlib.Data.List.Forall2
import Mathlib.Tactic.GCongr
import Mathlib.Tactic.Linarith
import Mathlib.Tactic.FieldSimp

set_option autoImplicit false

namespace Sizing

/-! ### Rounding down to a grid -/

section Floor

variable {K : Type} [Field K] [LinearOrder K] [FloorRing K]

/-- The largest multiple of `1 / p` that is at most `x`, or zero when `x` is negative. -/
def floorTo (p x : K) : K := (⌊max x 0 * p⌋ : K) / p

/-- Rounding leaves the value alone. -/
def OnGrid (p a : K) : Prop := floorTo p a = a

variable [IsStrictOrderedRing K] {p : K}

theorem floorTo_nonneg (hp : 0 < p) (x : K) : 0 ≤ floorTo p x := by
  have hx : 0 ≤ max x 0 * p := mul_nonneg (le_max_right x 0) hp.le
  exact div_nonneg (by exact_mod_cast Int.floor_nonneg.2 hx) hp.le

theorem floorTo_le_max (hp : 0 < p) (x : K) : floorTo p x ≤ max x 0 :=
  (div_le_iff₀ hp).2 (Int.floor_le _)

theorem floorTo_of_nonpos {x : K} (h : x ≤ 0) : floorTo p x = 0 := by
  simp [floorTo, max_eq_right h]

/-- A positive rounded value comes from a positive value, and is below it. -/
theorem floorTo_le (hp : 0 < p) {x : K} (h : 0 < floorTo p x) : floorTo p x ≤ x := by
  rcases le_or_gt x 0 with hx | hx
  · rw [floorTo_of_nonpos hx] at h
    exact absurd h (lt_irrefl 0)
  · simpa [max_eq_left hx.le] using floorTo_le_max hp x

theorem floorTo_mono (hp : 0 < p) {x y : K} (h : x ≤ y) : floorTo p x ≤ floorTo p y := by
  have hfloor : ⌊max x 0 * p⌋ ≤ ⌊max y 0 * p⌋ :=
    Int.floor_le_floor (mul_le_mul_of_nonneg_right (max_le_max h le_rfl) hp.le)
  exact div_le_div_of_nonneg_right (by exact_mod_cast hfloor) hp.le

theorem onGrid_floorTo (hp : 0 < p) (x : K) : OnGrid p (floorTo p x) := by
  unfold OnGrid
  have hmul : floorTo p x * p = (⌊max x 0 * p⌋ : K) := div_mul_cancel₀ _ hp.ne'
  conv_lhs => rw [floorTo, max_eq_left (floorTo_nonneg hp x), hmul, Int.floor_intCast]
  rfl

/-- A value on the grid that is below `x` is below `x` rounded. -/
theorem OnGrid.le_floorTo (hp : 0 < p) {a x : K} (ha : OnGrid p a) (h : a ≤ x) :
    a ≤ floorTo p x :=
  ha.symm.le.trans (floorTo_mono hp h)

end Floor

/-! ### Caps -/

/-- One cap on a size. -/
inductive Cap (K : Type)
  /-- Take the smaller of the size and the rounded bound. -/
  | always (bound : K)
  /-- Leave a size within the bound alone; cut a larger one to the rounded bound. -/
  | above (bound : K)
  | off

namespace Cap

section Bounds

variable {K : Type} [LinearOrder K]

/-- The size is within the bound, if there is one. -/
def Holds : Cap K → K → Prop
  | always b, a => a ≤ b
  | above b, a => a ≤ b
  | off, _ => True

/-- The first cap bounds at least as tightly as the second, and in the same way. -/
def Tighter : Cap K → Cap K → Prop
  | always b, always b' => b ≤ b'
  | above b, above b' => b ≤ b'
  | _, off => True
  | _, _ => False

@[simp] theorem holds_always (b a : K) : (always b).Holds a ↔ a ≤ b := Iff.rfl

@[simp] theorem holds_above (b a : K) : (above b).Holds a ↔ a ≤ b := Iff.rfl

@[simp] theorem tighter_always (b b' : K) : (always b).Tighter (always b') ↔ b ≤ b' := Iff.rfl

@[simp] theorem tighter_above (b b' : K) : (above b).Tighter (above b') ↔ b ≤ b' := Iff.rfl

@[simp] theorem tighter_off (c : Cap K) : c.Tighter off := by cases c <;> trivial

theorem Holds.of_le {c : Cap K} {a a' : K} (h : c.Holds a) (hle : a' ≤ a) : c.Holds a' := by
  cases c with
  | always b => exact hle.trans h
  | above b => exact hle.trans h
  | off => trivial

end Bounds

section Apply

variable {K : Type} [Field K] [LinearOrder K] [FloorRing K] {p : K}

/-- The size a cap leaves. -/
def apply (p : K) : Cap K → K → K
  | always b, a => min a (floorTo p b)
  | above b, a => if a ≤ b then a else floorTo p b
  | off, a => a

@[simp] theorem apply_off (a : K) : (off : Cap K).apply p a = a := rfl

theorem apply_above_of_le {b a : K} (h : a ≤ b) : (above b).apply p a = a := if_pos h

theorem apply_above_of_lt {b a : K} (h : b < a) : (above b).apply p a = floorTo p b :=
  if_neg h.not_ge

variable [IsStrictOrderedRing K]

theorem apply_nonneg (hp : 0 < p) (c : Cap K) {a : K} (ha : 0 ≤ a) : 0 ≤ c.apply p a := by
  cases c with
  | always b => exact le_min ha (floorTo_nonneg hp b)
  | above b =>
      rcases le_or_gt a b with h | h
      · rwa [apply_above_of_le h]
      · rw [apply_above_of_lt h]
        exact floorTo_nonneg hp b
  | off => exact ha

theorem apply_le (hp : 0 < p) (c : Cap K) {a : K} (ha : 0 ≤ a) : c.apply p a ≤ a := by
  cases c with
  | always b => exact min_le_left _ _
  | above b =>
      rcases le_or_gt a b with h | h
      · rw [apply_above_of_le h]
      · rw [apply_above_of_lt h]
        exact (floorTo_le_max hp b).trans (max_le h.le ha)
  | off => exact le_rfl

theorem holds_apply (hp : 0 < p) (c : Cap K) {a : K} (h : 0 < c.apply p a) :
    c.Holds (c.apply p a) := by
  cases c with
  | always b =>
      have hb : 0 < floorTo p b := h.trans_le (min_le_right _ _)
      exact (min_le_right _ _).trans (floorTo_le hp hb)
  | above b =>
      rcases le_or_gt a b with hab | hab
      · rwa [apply_above_of_le hab]
      · rw [apply_above_of_lt hab] at h ⊢
        exact floorTo_le hp h
  | off => trivial

/-- A positive size below what a cap leaves passes the cap unchanged. -/
theorem apply_of_le (hp : 0 < p) (c : Cap K) {a r : K} (hr : 0 < r) (hle : r ≤ c.apply p a) :
    c.apply p r = r := by
  cases c with
  | always b => exact min_eq_left (hle.trans (min_le_right _ _))
  | above b =>
      have hholds : r ≤ b := hle.trans (holds_apply hp (above b) (hr.trans_le hle))
      exact apply_above_of_le hholds
  | off => rfl

/-- A cap leaves the size alone, or leaves a value on the grid. -/
theorem apply_eq_or_onGrid (hp : 0 < p) (c : Cap K) (a : K) :
    c.apply p a = a ∨ OnGrid p (c.apply p a) := by
  cases c with
  | always b =>
      rcases min_choice a (floorTo p b) with h | h
      · exact .inl h
      · refine .inr ?_
        rw [apply, h]
        exact onGrid_floorTo hp b
  | above b =>
      rcases le_or_gt a b with h | h
      · exact .inl (apply_above_of_le h)
      · refine .inr ?_
        rw [apply_above_of_lt h]
        exact onGrid_floorTo hp b
  | off => exact .inl rfl

/-- One step of two sequences: the tighter cap, on the smaller size, leaves the smaller size.  The
smaller size must be on the grid or be the size the sequence began with. -/
theorem Tighter.apply_le_apply (hp : 0 < p) {c c' : Cap K} (h : c.Tighter c') {q a a' : K}
    (ha : 0 ≤ a) (hle : a ≤ a') (hq : a' ≤ q) (hgrid : a = q ∨ OnGrid p a) :
    c.apply p a ≤ c'.apply p a' := by
  have hself : c.apply p a ≤ a := apply_le hp c ha
  match c, c', h with
  | always b, always b', h => exact min_le_min hle (floorTo_mono hp h)
  | c, off, _ => exact hself.trans hle
  | above b, above b', h =>
      rcases le_or_gt a' b' with hab | hab
      · rw [apply_above_of_le hab]
        exact hself.trans hle
      rw [apply_above_of_lt hab]
      rcases le_or_gt a b with hlow | hlow
      · -- the tight size passes, so it is not the one both began with, and lies on the grid
        rw [apply_above_of_le hlow]
        have hb : a ≤ b' := hlow.trans h
        rcases hgrid with rfl | hgrid
        · exact absurd (hq.trans hb) hab.not_ge
        · exact hgrid.le_floorTo hp hb
      · rw [apply_above_of_lt hlow]
        exact floorTo_mono hp h

end Apply

end Cap

/-! ### Sequences of caps -/

section Sequences

variable {K : Type} [Field K] [LinearOrder K] [FloorRing K]

/-- The size that a sequence of caps leaves. -/
def sizeBy (p : K) (caps : List (Cap K)) (q : K) : K := caps.foldl (fun a c => c.apply p a) q

@[simp] theorem sizeBy_cons (p q : K) (c : Cap K) (caps : List (Cap K)) :
    sizeBy p (c :: caps) q = sizeBy p caps (c.apply p q) := rfl

variable [IsStrictOrderedRing K] {p : K}

theorem sizeBy_le (hp : 0 < p) (caps : List (Cap K)) {q : K} (hq : 0 ≤ q) :
    sizeBy p caps q ≤ q := by
  induction caps generalizing q with
  | nil => exact le_rfl
  | cons c caps ih => exact (ih (c.apply_nonneg hp hq)).trans (c.apply_le hp hq)

/-- **A positive size respects every cap of the sequence**, whichever of them cut it. -/
theorem sizeBy_le_bound (hp : 0 < p) {caps : List (Cap K)} {q : K} (hq : 0 ≤ q)
    (h : 0 < sizeBy p caps q) : ∀ c ∈ caps, c.Holds (sizeBy p caps q) := by
  induction caps generalizing q with
  | nil => simp
  | cons c caps ih =>
      have hnonneg := c.apply_nonneg hp hq
      intro d hd
      rcases List.mem_cons.1 hd with rfl | hd
      · have hle := sizeBy_le hp caps hnonneg
        exact (d.holds_apply hp (h.trans_le hle)).of_le hle
      · exact ih hnonneg h d hd

/-- **A smaller positive size passes unchanged**: no cap touches a size that the sequence would
have left. -/
theorem sizeBy_of_le (hp : 0 < p) {caps : List (Cap K)} {q r : K} (hq : 0 ≤ q) (hr : 0 < r)
    (hle : r ≤ sizeBy p caps q) : sizeBy p caps r = r := by
  induction caps generalizing q with
  | nil => rfl
  | cons c caps ih =>
      have hnonneg := c.apply_nonneg hp hq
      have hstep : c.apply p r = r :=
        c.apply_of_le hp hr (hle.trans (sizeBy_le hp caps hnonneg))
      rw [sizeBy_cons, hstep]
      exact ih hnonneg hle

/-- **Tighter caps leave a smaller size.** -/
theorem sizeBy_mono (hp : 0 < p) {tight loose : List (Cap K)}
    (h : List.Forall₂ Cap.Tighter tight loose) {q : K} (hq : 0 ≤ q) :
    sizeBy p tight q ≤ sizeBy p loose q := by
  -- along both sequences the tight size is the smaller one, and unchanged or on the grid
  suffices key : ∀ a a', 0 ≤ a → a ≤ a' → a' ≤ q → (a = q ∨ OnGrid p a) →
      sizeBy p tight a ≤ sizeBy p loose a' from key q q hq le_rfl le_rfl (.inl rfl)
  induction h with
  | nil => exact fun a a' _ hle _ _ => hle
  | @cons c c' _ _ hcap _ ih =>
      intro a a' ha hle hbelow hgrid
      have hnext : c.apply p a = q ∨ OnGrid p (c.apply p a) := by
        rcases c.apply_eq_or_onGrid hp a with hsame | hcut
        · rwa [hsame]
        · exact .inr hcut
      exact ih _ _ (c.apply_nonneg hp ha) (hcap.apply_le_apply hp ha hle hbelow hgrid)
        ((c'.apply_le hp (ha.trans hle)).trans hbelow) hnext

end Sequences

end Sizing
