/-
**Splitting an amount in proportion to weights.**

An amount is to be split over some targets in whole units, and nothing may be lost or made up by the
rounding.  There are two ways.  Either every part is rounded toward zero and the last one takes what
remains; or every part is rounded down and the units that are left over go, one each, to the targets
whose parts were cut down most, and among equals to the smaller name.

Main definitions:

* `Exact` — the parts sum to the amount, are whole units of it, and share its sign;
* `downTo`, `remainderToLast` — the first way;
* `LargerBy`, `largestRemainder` — the second.

Main results:

* `exact_remainderToLast`, `exact_largestRemainder` — **both are exact**;
* `le_remaining` — the first never hands out more than remains;
* `abs_largestRemainder_sub_le` — the second stays within one unit of the exact proportion;
* `largestRemainder_perm` — and does not depend on the order of the targets.
-/

import Mathlib.Algebra.BigOperators.Group.List.Lemmas
import Mathlib.Algebra.Order.BigOperators.Group.List
import Mathlib.Algebra.Order.Field.Basic
import Mathlib.Algebra.Order.Floor.Ring
import Mathlib.Data.List.Sort
import Mathlib.Tactic.FieldSimp
import Mathlib.Tactic.Linarith
import Mathlib.Tactic.Ring

set_option autoImplicit false

namespace Sizing

variable {K : Type} [Field K]

/-- A whole number of units. -/
def WholeUnits (unit x : K) : Prop := ∃ n : ℤ, x = n * unit

theorem WholeUnits.sub {unit x y : K} (hx : WholeUnits unit x) (hy : WholeUnits unit y) :
    WholeUnits unit (x - y) := by
  obtain ⟨m, rfl⟩ := hx
  obtain ⟨n, rfl⟩ := hy
  exact ⟨m - n, by push_cast; ring⟩

theorem WholeUnits.neg {unit x : K} (hx : WholeUnits unit x) : WholeUnits unit (-x) := by
  obtain ⟨m, rfl⟩ := hx
  exact ⟨-m, by push_cast; ring⟩

/-! ### Proportions -/

section Quotas

variable {κ : Type} {units : ℤ} {weights : List (κ × K)}

/-- The exact proportions. -/
def quotas (units : ℤ) (weights : List (κ × K)) : List (κ × K) :=
  weights.map fun e => (e.1, units * e.2 / (weights.map Prod.snd).sum)

theorem keys_quotas : (quotas units weights).map Prod.fst = weights.map Prod.fst := by
  simp [quotas, Function.comp_def]

theorem sum_quotas (h : (weights.map Prod.snd).sum ≠ 0) :
    ((quotas units weights).map Prod.snd).sum = units := by
  have hsum : ∀ (l : List (κ × K)) (t : K),
      ((l.map fun e => (e.1, (units : K) * e.2 / t)).map Prod.snd).sum =
        units * (l.map Prod.snd).sum / t := by
    intro l t
    induction l with
    | nil => simp
    | cons e rest ih =>
        simp only [List.map_cons, List.sum_cons, ih]
        ring
  rw [quotas, hsum]
  exact mul_div_cancel_right₀ _ h

end Quotas

/-! ### Exact splits -/

variable [LinearOrder K]

/-- The parts sum to the amount, none has the opposite sign, and each is a whole number of units. -/
structure Exact (unit amount : K) (parts : List K) : Prop where
  sum_eq : parts.sum = amount
  nonneg : 0 ≤ amount → ∀ p ∈ parts, 0 ≤ p
  nonpos : amount ≤ 0 → ∀ p ∈ parts, p ≤ 0
  whole : ∀ p ∈ parts, WholeUnits unit p

/-! ### The remainder to the last -/

section Down

variable [FloorRing K]

def downTo (unit x : K) : K := if 0 ≤ x then ⌊x / unit⌋ * unit else ⌈x / unit⌉ * unit

theorem wholeUnits_downTo (unit x : K) : WholeUnits unit (downTo unit x) := by
  unfold downTo
  split
  · exact ⟨_, rfl⟩
  · exact ⟨_, rfl⟩

/-- Each part is rounded toward zero; the last takes what remains. -/
def remainderToLast (unit amount total : K) : K → List K → List K
  | _, [] => []
  | remaining, w :: rest =>
      let part := if rest.isEmpty then remaining else downTo unit (amount * w / total)
      part :: remainderToLast unit amount total (remaining - part) rest

variable {unit amount total remaining : K} {weights : List K}

theorem remainderToLast_singleton (w : K) :
    remainderToLast unit amount total remaining [w] = [remaining] := rfl

theorem remainderToLast_cons_cons (w w' : K) (rest : List K) :
    remainderToLast unit amount total remaining (w :: w' :: rest) =
      downTo unit (amount * w / total) ::
        remainderToLast unit amount total (remaining - downTo unit (amount * w / total))
          (w' :: rest) := rfl

theorem sum_remainderToLast (h : weights ≠ []) :
    (remainderToLast unit amount total remaining weights).sum = remaining := by
  induction weights generalizing remaining with
  | nil => exact absurd rfl h
  | cons w rest ih =>
      cases rest with
      | nil => simp [remainderToLast_singleton]
      | cons w' rest =>
          rw [remainderToLast_cons_cons, List.sum_cons, ih (by simp)]
          ring

theorem wholeUnits_remainderToLast (h : WholeUnits unit remaining) :
    ∀ p ∈ remainderToLast unit amount total remaining weights, WholeUnits unit p := by
  induction weights generalizing remaining with
  | nil => intro p hp; cases hp
  | cons w rest ih =>
      cases rest with
      | nil =>
          intro p hp
          rw [remainderToLast_singleton, List.mem_singleton] at hp
          rwa [hp]
      | cons w' rest =>
          intro p hp
          rw [remainderToLast_cons_cons, List.mem_cons] at hp
          have hpart := wholeUnits_downTo unit (amount * w / total)
          rcases hp with rfl | hp
          · exact hpart
          · exact ih (h.sub hpart) p hp

variable [IsStrictOrderedRing K]

theorem downTo_nonneg (hunit : 0 < unit) {x : K} (hx : 0 ≤ x) : 0 ≤ downTo unit x := by
  rw [downTo, if_pos hx]
  exact mul_nonneg (by exact_mod_cast Int.floor_nonneg.2 (div_nonneg hx hunit.le)) hunit.le

theorem downTo_le (hunit : 0 < unit) {x : K} (hx : 0 ≤ x) : downTo unit x ≤ x := by
  rw [downTo, if_pos hx]
  exact (le_div_iff₀ hunit).1 (Int.floor_le _)

theorem downTo_neg (unit x : K) : downTo unit (-x) = -downTo unit x := by
  unfold downTo
  rcases lt_trichotomy x 0 with hx | rfl | hx
  · rw [if_pos (neg_nonneg.2 hx.le), if_neg (not_le.2 hx), neg_div, Int.floor_neg]
    push_cast
    ring
  · simp
  · rw [if_neg (by simpa using hx), if_pos hx.le, neg_div, Int.ceil_neg]
    push_cast
    ring

/-- A part that is rounded leaves its weight's worth for those that follow. -/
theorem remaining_sub (hunit : 0 < unit) (hamount : 0 ≤ amount) (htotal : 0 < total) {w : K}
    (hw : 0 ≤ w) {others : K} (h : amount * (w + others) / total ≤ remaining) :
    amount * others / total ≤ remaining - downTo unit (amount * w / total) := by
  have hpart := downTo_le hunit (div_nonneg (mul_nonneg hamount hw) htotal.le)
  have hsplit : amount * (w + others) / total = amount * w / total + amount * others / total := by
    rw [mul_add, add_div]
  linarith

theorem le_remaining (hunit : 0 < unit) (hamount : 0 ≤ amount) (htotal : 0 < total) {w : K}
    {rest : List K} (hweights : ∀ x ∈ w :: rest, 0 ≤ x)
    (h : amount * (w :: rest).sum / total ≤ remaining) :
    0 ≤ (if rest.isEmpty then remaining else downTo unit (amount * w / total)) ∧
      (if rest.isEmpty then remaining else downTo unit (amount * w / total)) ≤ remaining := by
  have hsum : 0 ≤ (w :: rest).sum := List.sum_nonneg hweights
  have hrest : 0 ≤ rest.sum := List.sum_nonneg fun x hx => hweights x (List.mem_cons_of_mem _ hx)
  have hw : 0 ≤ w := hweights w List.mem_cons_self
  have hquota : 0 ≤ amount * w / total := div_nonneg (mul_nonneg hamount hw) htotal.le
  split
  · exact ⟨(div_nonneg (mul_nonneg hamount hsum) htotal.le).trans h, le_rfl⟩
  · refine ⟨downTo_nonneg hunit hquota, (downTo_le hunit hquota).trans (le_trans ?_ h)⟩
    rw [List.sum_cons]
    gcongr
    linarith

theorem remainderToLast_nonneg (hunit : 0 < unit) (hamount : 0 ≤ amount) (htotal : 0 < total)
    (hweights : ∀ w ∈ weights, 0 ≤ w) (h : amount * weights.sum / total ≤ remaining) :
    ∀ p ∈ remainderToLast unit amount total remaining weights, 0 ≤ p := by
  induction weights generalizing remaining with
  | nil => intro p hp; cases hp
  | cons w rest ih =>
      have hfirst := le_remaining hunit hamount htotal hweights h
      intro p hp
      rcases List.mem_cons.1 hp with rfl | hp
      · exact hfirst.1
      · cases rest with
        | nil => cases hp
        | cons w' rest =>
            rw [List.sum_cons] at h
            exact ih (fun x hx => hweights x (List.mem_cons_of_mem _ hx))
              (remaining_sub hunit hamount htotal (hweights w List.mem_cons_self) h) p hp

theorem remainderToLast_neg :
    remainderToLast unit (-amount) total (-remaining) weights =
      (remainderToLast unit amount total remaining weights).map Neg.neg := by
  induction weights generalizing remaining with
  | nil => rfl
  | cons w rest ih =>
      cases rest with
      | nil => simp [remainderToLast_singleton]
      | cons w' rest =>
          have hpart : downTo unit (-amount * w / total) = -downTo unit (amount * w / total) := by
            rw [neg_mul, neg_div, downTo_neg]
          rw [remainderToLast_cons_cons, remainderToLast_cons_cons, List.map_cons, hpart, ← ih]
          congr 2
          ring

/-- **Giving the remainder to the last is exact.** -/
theorem exact_remainderToLast (hunit : 0 < unit) (hwhole : WholeUnits unit amount)
    (hne : weights ≠ []) (hweights : ∀ w ∈ weights, 0 ≤ w) (htotal : 0 < weights.sum) :
    Exact unit amount (remainderToLast unit amount weights.sum amount weights) where
  sum_eq := sum_remainderToLast hne
  nonneg hamount := remainderToLast_nonneg hunit hamount htotal hweights
    (mul_div_cancel_right₀ _ htotal.ne').le
  nonpos hamount p hp := by
    have hneg : -p ∈ remainderToLast unit (-amount) weights.sum (-amount) weights := by
      rw [remainderToLast_neg]
      exact List.mem_map_of_mem hp
    exact neg_nonneg.1 (remainderToLast_nonneg hunit (neg_nonneg.2 hamount) htotal hweights
      (mul_div_cancel_right₀ _ htotal.ne').le _ hneg)
  whole := wholeUnits_remainderToLast hwhole

end Down

/-! ### The favoured -/

section Favoured

variable {κ R : Type} [LinearOrder κ] [LinearOrder R] {exact : List (κ × R)} {left : ℕ}

/-- What the function makes larger comes first; among equals, the smaller name. -/
def LargerBy (f : R → R) (a b : κ × R) : Prop :=
  f b.2 < f a.2 ∨ (f a.2 = f b.2 ∧ a.1 ≤ b.1)

instance (f : R → R) : DecidableRel (LargerBy f : κ × R → κ × R → Prop) :=
  fun _ _ => inferInstanceAs (Decidable (_ ∨ _))

instance (f : R → R) : Std.Total (LargerBy f : κ × R → κ × R → Prop) := ⟨fun a b => by
  rcases lt_trichotomy (f a.2) (f b.2) with h | h | h
  · exact .inr (.inl h)
  · rcases le_total a.1 b.1 with hle | hle
    · exact .inl (.inr ⟨h, hle⟩)
    · exact .inr (.inr ⟨h.symm, hle⟩)
  · exact .inl (.inl h)⟩

instance (f : R → R) : IsTrans (κ × R) (LargerBy f) := ⟨fun a b c hab hbc => by
  rcases hab with hab | ⟨hab, hab'⟩ <;> rcases hbc with hbc | ⟨hbc, hbc'⟩
  · exact .inl (hbc.trans hab)
  · exact .inl (hbc ▸ hab)
  · exact .inl (hab ▸ hbc)
  · exact .inr ⟨hab.trans hbc, hab'.trans hbc'⟩⟩

theorem LargerBy.fst_eq {f : R → R} {a b : κ × R} (h : LargerBy f a b) (h' : LargerBy f b a) :
    a.1 = b.1 := by
  rcases h with h | ⟨h, hle⟩ <;> rcases h' with h' | ⟨h', hle'⟩
  · exact absurd h h'.not_gt
  · exact absurd h' h.ne
  · exact absurd h h'.ne
  · exact le_antisymm hle hle'

/-- The names of those who get one of the units that are left over. -/
def favoured (f : R → R) (left : ℕ) (exact : List (κ × R)) : List κ :=
  ((exact.insertionSort (LargerBy f)).take left).map Prod.fst

omit [LinearOrder κ] [LinearOrder R] in
theorem sum_indicator (g : κ × R → ℤ) (p : κ × R → Prop) [DecidablePred p] :
    (exact.map fun e => (g e + if p e then 1 else 0 : ℤ)).sum =
      (exact.map g).sum + exact.countP (fun e => decide (p e)) := by
  induction exact with
  | nil => simp
  | cons e rest ih =>
      by_cases h : p e
      · simp only [List.map_cons, List.sum_cons, ih, List.countP_cons, h, if_true, decide_true]
        omega
      · simp [h, ih]
        omega

theorem countP_favoured (f : R → R) (hnodup : (exact.map Prod.fst).Nodup)
    (hle : left ≤ exact.length) :
    exact.countP (fun e => decide (e.1 ∈ favoured f left exact)) = left := by
  set sorted := exact.insertionSort (LargerBy f) with hsorted
  have hperm : sorted.Perm exact := List.perm_insertionSort _ _
  have hkeys : (sorted.map Prod.fst).Nodup := (hperm.map _).nodup_iff.2 hnodup
  rw [← List.take_append_drop left sorted, List.map_append, List.nodup_append] at hkeys
  -- those at the head of the order are favoured, and none of the others
  have hhead : (sorted.take left).countP (fun e => decide (e.1 ∈ favoured f left exact)) =
      (sorted.take left).length := by
    refine List.countP_eq_length.2 fun e he => ?_
    exact decide_eq_true (List.mem_map_of_mem he)
  have htail : (sorted.drop left).countP (fun e => decide (e.1 ∈ favoured f left exact)) = 0 := by
    refine List.countP_eq_zero.2 fun e he hmem => ?_
    exact hkeys.2.2 _ (by simpa [favoured, hsorted] using hmem) _ (List.mem_map_of_mem he) rfl
  rw [← hperm.countP_eq, ← List.take_append_drop left sorted, List.countP_append, hhead, htail,
    List.length_take, hperm.length_eq]
  omega

theorem sum_favoured (f : R → R) (g : κ × R → ℤ) (hnodup : (exact.map Prod.fst).Nodup)
    (hle : left ≤ exact.length) :
    (exact.map fun e => g e + if e.1 ∈ favoured f left exact then 1 else 0).sum =
      (exact.map g).sum + left := by
  refine (sum_indicator g fun e => e.1 ∈ favoured f left exact).trans ?_
  rw [countP_favoured f hnodup hle]

theorem insertionSort_largerBy_perm (f : R → R) {exact' : List (κ × R)}
    (hnodup : (exact.map Prod.fst).Nodup) (h : exact.Perm exact') :
    exact.insertionSort (LargerBy f) = exact'.insertionSort (LargerBy f) := by
  refine List.Perm.eq_of_pairwise ?_ (List.pairwise_insertionSort _ _)
    (List.pairwise_insertionSort _ _)
    ((List.perm_insertionSort _ _).trans (h.trans (List.perm_insertionSort _ _).symm))
  intro a b ha hb hab hba
  have hmem : a ∈ exact := (List.perm_insertionSort _ _).mem_iff.1 ha
  have hmem' : b ∈ exact := h.mem_iff.2 ((List.perm_insertionSort _ _).mem_iff.1 hb)
  exact List.inj_on_of_nodup_map hnodup hmem hmem' (hab.fst_eq hba)

end Favoured

/-! ### The largest remainder -/

section Largest

variable {κ : Type} [FloorRing K] {units : ℤ} {weights : List (κ × K)} {exact : List (κ × K)}

/-- The units that rounding down leaves over. -/
def leftOver (units : ℤ) (exact : List (κ × K)) : ℤ := units - (exact.map fun e => ⌊e.2⌋).sum

theorem sum_fract : (exact.map fun e => Int.fract e.2).sum =
    (exact.map Prod.snd).sum - ((exact.map fun e => ⌊e.2⌋).sum : ℤ) := by
  induction exact with
  | nil => simp
  | cons e rest ih =>
      simp only [List.map_cons, List.sum_cons, ih]
      rw [Int.fract]
      push_cast
      ring

section Bounds

variable [IsStrictOrderedRing K]

/-- No more units are left over than there are targets. -/
theorem leftOver_bounds (h : (exact.map Prod.snd).sum = (units : K)) :
    0 ≤ leftOver units exact ∧ leftOver units exact ≤ exact.length := by
  have hleft : ((leftOver units exact : ℤ) : K) = (exact.map fun e => Int.fract e.2).sum := by
    rw [sum_fract, h, leftOver]
    push_cast
    ring
  have hnonneg : 0 ≤ (exact.map fun e => Int.fract e.2).sum := by
    refine List.sum_nonneg fun x hx => ?_
    obtain ⟨e, -, rfl⟩ := List.mem_map.1 hx
    exact Int.fract_nonneg _
  have hle : (exact.map fun e => Int.fract e.2).sum ≤ (exact.length : K) := by
    have hbound := List.sum_le_card_nsmul (exact.map fun e => Int.fract e.2) 1 fun x hx => by
      obtain ⟨e, -, rfl⟩ := List.mem_map.1 hx
      exact (Int.fract_lt_one _).le
    simpa using hbound
  rw [← hleft] at hnonneg hle
  exact ⟨by exact_mod_cast hnonneg, by exact_mod_cast hle⟩

end Bounds

variable [LinearOrder κ]

/-- Each part is rounded down; what is left over goes to the largest fractions. -/
def largestRemainder (units : ℤ) (weights : List (κ × K)) : List (κ × ℤ) :=
  let exact := quotas units weights
  exact.map fun e =>
    (e.1, ⌊e.2⌋ + if e.1 ∈ favoured Int.fract (leftOver units exact).toNat exact then 1 else 0)

theorem largestRemainder_perm {weights' : List (κ × K)} (hnodup : (weights.map Prod.fst).Nodup)
    (h : weights.Perm weights') :
    (largestRemainder units weights).Perm (largestRemainder units weights') := by
  have hquotas : (quotas units weights).Perm (quotas units weights') := by
    rw [quotas, quotas, (h.map Prod.snd).sum_eq]
    exact h.map _
  have hleft : leftOver units (quotas units weights) = leftOver units (quotas units weights') := by
    rw [leftOver, leftOver, (hquotas.map _).sum_eq]
  rw [largestRemainder, largestRemainder, hleft, favoured, favoured,
    insertionSort_largerBy_perm _ (by rwa [keys_quotas]) hquotas]
  exact hquotas.map _

/-- The parts of a signed amount, given its size in units. -/
def splitUnits (unit amount : K) (units : ℤ) (weights : List (κ × K)) : List (κ × K) :=
  (largestRemainder units weights).map fun e =>
    (e.1, (if amount < 0 then -1 else 1) * (e.2 : K) * unit)

theorem mem_largestRemainder {e : κ × ℤ} (h : e ∈ largestRemainder units weights) :
    ∃ w, (e.1, w) ∈ weights ∧
      (e.2 = ⌊units * w / (weights.map Prod.snd).sum⌋ ∨
        e.2 = ⌊units * w / (weights.map Prod.snd).sum⌋ + 1) := by
  obtain ⟨q, hq, rfl⟩ := List.mem_map.1 h
  obtain ⟨⟨k, w⟩, hmem, rfl⟩ := List.mem_map.1 hq
  refine ⟨w, hmem, ?_⟩
  by_cases hfavoured :
      k ∈ favoured Int.fract (leftOver units (quotas units weights)).toNat (quotas units weights)
  · exact .inr (by simp only [if_pos hfavoured])
  · exact .inl (by simp only [if_neg hfavoured, add_zero])

variable [IsStrictOrderedRing K] {unit amount : K}

theorem sum_largestRemainder (hnodup : (weights.map Prod.fst).Nodup)
    (htotal : (weights.map Prod.snd).sum ≠ 0) :
    ((largestRemainder units weights).map Prod.snd).sum = units := by
  have hquotas : ((quotas units weights).map Prod.snd).sum = (units : K) := sum_quotas htotal
  have hbounds := leftOver_bounds hquotas
  have hnames : ((quotas units weights).map Prod.fst).Nodup := by rwa [keys_quotas]
  have hleft : (leftOver units (quotas units weights)).toNat ≤ (quotas units weights).length := by
    omega
  have hsum : ((largestRemainder units weights).map Prod.snd).sum =
      ((quotas units weights).map fun e => ⌊e.2⌋).sum + leftOver units (quotas units weights) := by
    rw [largestRemainder, List.map_map]
    refine (sum_favoured Int.fract (fun e => ⌊e.2⌋) hnames hleft).trans ?_
    omega
  rw [hsum, leftOver]
  ring

theorem largestRemainder_nonneg (hunits : 0 ≤ units) (hweights : ∀ e ∈ weights, 0 ≤ e.2)
    {e : κ × ℤ} (h : e ∈ largestRemainder units weights) : 0 ≤ e.2 := by
  obtain ⟨w, hw, hpart⟩ := mem_largestRemainder h
  have htotal : 0 ≤ (weights.map Prod.snd).sum := by
    refine List.sum_nonneg fun x hx => ?_
    obtain ⟨f, hf, rfl⟩ := List.mem_map.1 hx
    exact hweights f hf
  have hfloor : 0 ≤ ⌊units * w / (weights.map Prod.snd).sum⌋ := Int.floor_nonneg.2
    (div_nonneg (mul_nonneg (by exact_mod_cast hunits) (hweights _ hw)) htotal)
  omega

theorem abs_largestRemainder_sub_le {e : κ × ℤ} (h : e ∈ largestRemainder units weights) :
    ∃ w, (e.1, w) ∈ weights ∧ |(e.2 : K) - units * w / (weights.map Prod.snd).sum| ≤ 1 := by
  obtain ⟨w, hw, hpart⟩ := mem_largestRemainder h
  have hfloor := Int.floor_le ((units : K) * w / (weights.map Prod.snd).sum)
  have hlt := Int.lt_floor_add_one ((units : K) * w / (weights.map Prod.snd).sum)
  refine ⟨w, hw, abs_le.2 ?_⟩
  rcases hpart with hpart | hpart
  · rw [hpart]
    constructor <;> linarith
  · rw [hpart]
    push_cast
    constructor <;> linarith

theorem unitsOf_nonneg (hunit : 0 < unit) (hunits : 0 ≤ units) (hweights : ∀ e ∈ weights, 0 ≤ e.2)
    {e : κ × ℤ} (h : e ∈ largestRemainder units weights) : (0 : K) ≤ e.2 * unit :=
  mul_nonneg (by exact_mod_cast largestRemainder_nonneg hunits hweights h) hunit.le

theorem largestRemainder_zero (hnodup : (weights.map Prod.fst).Nodup)
    (hweights : ∀ e ∈ weights, 0 ≤ e.2) (htotal : (weights.map Prod.snd).sum ≠ 0) {e : κ × ℤ}
    (h : e ∈ largestRemainder 0 weights) : e.2 = 0 := by
  have hnonneg := fun f => largestRemainder_nonneg (e := f) le_rfl hweights
  have hle : e.2 ≤ ((largestRemainder 0 weights).map Prod.snd).sum := by
    refine List.single_le_sum (fun n hn => ?_) _ (List.mem_map_of_mem h)
    obtain ⟨f, hf, rfl⟩ := List.mem_map.1 hn
    exact hnonneg f hf
  rw [sum_largestRemainder hnodup htotal] at hle
  exact le_antisymm hle (hnonneg e h)

omit κ [FloorRing K] in
theorem signed_abs (amount : K) : (if amount < 0 then -1 else 1) * |amount| = amount := by
  rcases lt_or_ge amount 0 with hneg | hpos
  · rw [if_pos hneg, abs_of_neg hneg, neg_one_mul, neg_neg]
  · rw [if_neg (not_lt.2 hpos), abs_of_nonneg hpos, one_mul]

theorem sum_splitUnits (hamount : |amount| = units * unit) (hnodup : (weights.map Prod.fst).Nodup)
    (htotal : (weights.map Prod.snd).sum ≠ 0) :
    ((splitUnits unit amount units weights).map Prod.snd).sum = amount := by
  have hscale : ∀ (l : List (κ × ℤ)) (s : K),
      ((l.map fun e => (e.1, s * (e.2 : K) * unit)).map Prod.snd).sum =
        s * (((l.map Prod.snd).sum : ℤ) * unit) := by
    intro l s
    induction l with
    | nil => simp
    | cons e rest ih =>
        simp only [List.map_cons, List.sum_cons, ih]
        push_cast
        ring
  rw [splitUnits, hscale, sum_largestRemainder hnodup htotal, ← hamount, signed_abs]

/-- **Giving what is left over to the largest remainders is exact.** -/
theorem exact_largestRemainder (hunit : 0 < unit) (hamount : |amount| = units * unit)
    (hnodup : (weights.map Prod.fst).Nodup) (hweights : ∀ e ∈ weights, 0 ≤ e.2)
    (htotal : 0 < (weights.map Prod.snd).sum) :
    Exact unit amount ((splitUnits unit amount units weights).map Prod.snd) := by
  have hunits : 0 ≤ units := by
    have hnonneg : 0 ≤ (units : K) := nonneg_of_mul_nonneg_left (hamount ▸ abs_nonneg amount) hunit
    exact_mod_cast hnonneg
  have hparts : ∀ p ∈ (splitUnits unit amount units weights).map Prod.snd,
      ∃ e ∈ largestRemainder units weights, p = (if amount < 0 then -1 else 1) * (e.2 * unit) := by
    intro p hp
    obtain ⟨f, hf, rfl⟩ := List.mem_map.1 hp
    obtain ⟨e, he, rfl⟩ := List.mem_map.1 hf
    exact ⟨e, he, mul_assoc _ _ _⟩
  refine ⟨sum_splitUnits hamount hnodup htotal.ne', fun hsign p hp => ?_, fun hsign p hp => ?_,
    fun p hp => ?_⟩ <;> obtain ⟨e, he, rfl⟩ := hparts p hp
  · rw [if_neg (not_lt.2 hsign), one_mul]
    exact unitsOf_nonneg hunit hunits hweights he
  · rcases hsign.lt_or_eq with hneg | hzero
    · rw [if_pos hneg, neg_one_mul, neg_nonpos]
      exact unitsOf_nonneg hunit hunits hweights he
    · -- nothing to split: every part is zero
      obtain rfl : units = 0 := by
        rw [hzero, abs_zero, eq_comm, mul_eq_zero] at hamount
        exact_mod_cast hamount.resolve_right hunit.ne'
      rw [largestRemainder_zero hnodup hweights htotal.ne' he]
      simp
  · exact ⟨(if amount < 0 then -1 else 1) * e.2, by push_cast; ring⟩

theorem abs_splitUnits_sub_le (hunit : 0 < unit) (hamount : |amount| = units * unit) {e : κ × K}
    (h : e ∈ splitUnits unit amount units weights) :
    ∃ w, (e.1, w) ∈ weights ∧ |e.2 - amount * w / (weights.map Prod.snd).sum| ≤ unit := by
  obtain ⟨f, hf, rfl⟩ := List.mem_map.1 h
  obtain ⟨w, hw, hle⟩ := abs_largestRemainder_sub_le hf
  refine ⟨w, hw, ?_⟩
  set sign : K := if amount < 0 then -1 else 1 with hsign
  have hone : |sign| = 1 := by
    rw [hsign]
    split <;> simp
  have hsigned : amount = sign * (units * unit) := by rw [← hamount, signed_abs]
  have hscaled : sign * (f.2 : K) * unit - amount * w / (weights.map Prod.snd).sum =
      sign * (((f.2 : K) - units * w / (weights.map Prod.snd).sum) * unit) := by
    rw [hsigned]
    ring
  rw [hscaled, abs_mul, hone, one_mul, abs_mul, abs_of_pos hunit]
  exact mul_le_of_le_one_left hunit.le hle

end Largest

end Sizing
