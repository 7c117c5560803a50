/-
**The groups that dividends are attributed in** (`_groups` of
`reconciliation/dividend_attribution.py`).

The activities of one instrument and one day of credit belong together, reversals apart from the
rest.  Where exactly one of them is an income, it leads a group with everything that was withheld of
it; any other activity is a group of its own.  The groups are formed anew from all receipts whenever
they are asked for, so a group may take in an activity that arrives later, and falls apart when a
second income arrives.

Main definitions:

* `Received` — a receipt with what else is read of its activity;
* `groups` — the groups of the receipts;
* `Led` — a group that an income leads.

Main results:

* `flatten_groups_perm` — the groups partition the receipts;
* `groups_cases` — a group is one activity, or is led by the only income of its key;
* `exists_group_of_subset` — two activities of one group were in one group before, if the receipts
  had an income of theirs by then.
-/

import TradePulse.Reconciliation.DividendAttribution
import Mathlib.Data.List.Sort

set_option autoImplicit false

namespace TradePulse

open HistoricalFees Storage

namespace Dividends

/-- A receipt, with the withheld amount that its activity names. -/
structure Received extends DividendReceipt where
  withheld : Option DecimalText := none
  deriving DecidableEq

instance : Record Received where
  recordId r := r.activityId
  uniqueValue _ := none

namespace Received

def isIncome (r : Received) : Bool := r.economicType = "dividend_income"

def isWithholding (r : Received) : Bool := r.economicType = "dividend_withholding"

theorem isWithholding_of_isIncome {r : Received} (h : r.isIncome = true) :
    r.isWithholding = false := by
  have hincome : r.economicType = "dividend_income" := by simpa [isIncome] using h
  simp [isWithholding, hincome]

/-- What is grouped together: the symbol, the day of credit, and whether it is a reversal. -/
def groupKey (r : Received) : String × Option String × Bool := (r.symbol, r.creditDate, r.reversal)

/-- `_member`. -/
def member (r : Received) : Member where
  activityId := r.activityId
  component := if r.isIncome then .income else .withholding
  amount := r.amount
  qty := r.qty
  rate := r.perShareAmount
  withheld := r.withheld

end Received

/-- `sorted(receipts.items())`. -/
def byIdentity (receipts : List Received) : List Received :=
  receipts.insertionSort fun a b => a.activityId ≤ b.activityId

/-- The keys in the order of their first activity. -/
def firstKeys (receipts : List Received) : List (String × Option String × Bool) :=
  ((receipts.map Received.groupKey).reverse.dedup).reverse

/-- The groups of the activities of one key. -/
def groupsOfKey (activities : List Received) : List (List Received) :=
  let others := activities.filter (!·.isIncome)
  match activities.filter Received.isIncome with
  | [income] =>
      (income :: others.filter Received.isWithholding) ::
        (others.filter (!·.isWithholding)).map ([·])
  | _ => activities.map ([·])

/-- The activities of a key. -/
def ofKey (receipts : List Received) (key : String × Option String × Bool) : List Received :=
  receipts.filter (·.groupKey = key)

/-- `_groups`. -/
def groups (receipts : List Received) : List (List Received) :=
  let inOrder := byIdentity receipts
  (firstKeys inOrder).flatMap fun key => groupsOfKey (ofKey inOrder key)

/-! ### The groups partition the receipts -/

theorem flatten_map_singleton {α : Type} (l : List α) : (l.map ([·])).flatten = l := by
  induction l with
  | nil => rfl
  | cons a l ih => rw [List.map_cons, List.flatten_cons, ih, List.singleton_append]

theorem flatten_groupsOfKey_perm (activities : List Received) :
    (groupsOfKey activities).flatten.Perm activities := by
  unfold groupsOfKey
  dsimp only
  split
  · rename_i income hincome
    rw [List.flatten_cons, flatten_map_singleton, List.cons_append]
    have hothers := List.filter_append_perm Received.isWithholding
      (activities.filter (!·.isIncome))
    have hall := List.filter_append_perm Received.isIncome activities
    rw [hincome, List.singleton_append] at hall
    exact (hothers.cons income).trans hall
  · rw [flatten_map_singleton]

/-- A list is what its keys have of it, one key after the other. -/
theorem flatMap_filter_perm {α κ : Type} [DecidableEq κ] (f : α → κ) :
    ∀ {keys : List κ} {l : List α}, keys.Nodup → (∀ a ∈ l, f a ∈ keys) →
      (keys.flatMap fun k => l.filter (f · = k)).Perm l
  | [], l, _, hall => by
      cases l with
      | nil => exact .nil
      | cons a l => exact absurd (hall a List.mem_cons_self) List.not_mem_nil
  | k :: keys, l, hnodup, hall => by
      rw [List.nodup_cons] at hnodup
      -- The other keys find the same among what is not of this key.
      have hothers : ∀ k' ∈ keys, l.filter (f · = k') =
          (l.filter fun a => !decide (f a = k)).filter (f · = k') := by
        intro k' hk'
        rw [List.filter_filter]
        refine List.filter_congr fun a _ => ?_
        by_cases ha : f a = k'
        · have hne : f a ≠ k := fun he => hnodup.1 ((he.symm.trans ha) ▸ hk')
          simp [ha, ha ▸ hne]
        · simp [ha]
      have hrest := flatMap_filter_perm f (l := l.filter fun a => !decide (f a = k)) hnodup.2
        fun a ha => by
          obtain ⟨hmem, hne⟩ := List.mem_filter.1 ha
          rcases List.mem_cons.1 (hall a hmem) with he | hin
          · simp [he] at hne
          · exact hin
      rw [List.flatMap_cons, List.flatMap_congr hothers]
      exact (hrest.append_left _).trans (List.filter_append_perm (fun a => decide (f a = k)) l)

theorem byIdentity_perm (receipts : List Received) : (byIdentity receipts).Perm receipts :=
  List.perm_insertionSort _ _

theorem mem_byIdentity {receipts : List Received} {r : Received} :
    r ∈ byIdentity receipts ↔ r ∈ receipts :=
  (byIdentity_perm receipts).mem_iff

theorem mem_firstKeys {receipts : List Received} {key : String × Option String × Bool} :
    key ∈ firstKeys receipts ↔ ∃ r ∈ receipts, r.groupKey = key := by
  simp [firstKeys, List.mem_dedup]

theorem mem_ofKey {receipts : List Received} {key : String × Option String × Bool} {r : Received} :
    r ∈ ofKey (byIdentity receipts) key ↔ r ∈ receipts ∧ r.groupKey = key := by
  simp [ofKey, mem_byIdentity]

/-- **The groups partition the receipts.** -/
theorem flatten_groups_perm (receipts : List Received) :
    (groups receipts).flatten.Perm receipts := by
  unfold groups
  dsimp only
  rw [List.flatten_eq_flatMap, List.flatMap_assoc]
  simp only [← List.flatten_eq_flatMap]
  have hkeys : (firstKeys (byIdentity receipts)).Nodup :=
    List.nodup_reverse.2 (List.nodup_dedup _)
  refine (List.Perm.flatMap_left _ fun key _ => flatten_groupsOfKey_perm _).trans ?_
  refine (flatMap_filter_perm Received.groupKey hkeys fun r hr => ?_).trans
    (byIdentity_perm receipts)
  exact mem_firstKeys.2 ⟨r, hr, rfl⟩

theorem mem_of_mem_groups {receipts : List Received} {g : List Received} (hg : g ∈ groups receipts)
    {r : Received} (hr : r ∈ g) : r ∈ receipts :=
  (flatten_groups_perm receipts).subset (List.mem_flatten.2 ⟨g, hg, hr⟩)

theorem exists_group {receipts : List Received} {r : Received} (hr : r ∈ receipts) :
    ∃ g ∈ groups receipts, r ∈ g :=
  List.mem_flatten.1 ((flatten_groups_perm receipts).symm.subset hr)

theorem nodup_flatten_groups {receipts : List Received} (h : receipts.Nodup) :
    (groups receipts).flatten.Nodup :=
  (flatten_groups_perm receipts).nodup_iff.2 h

theorem eq_of_mem_groups {receipts : List Received} (h : receipts.Nodup) {g g' : List Received}
    (hg : g ∈ groups receipts) (hg' : g' ∈ groups receipts) {r : Received} (hr : r ∈ g)
    (hr' : r ∈ g') : g = g' := by
  by_contra hne
  have hsymm : Std.Symm (List.Disjoint (α := Received)) := ⟨fun _ _ hd => hd.symm⟩
  exact (List.nodup_flatten.1 (nodup_flatten_groups h)).2.forall hg hg' hne hr hr'

/-! ### Groups that an income leads -/

/-- The group of an income that is the only one of its key: itself, and all that was withheld. -/
structure Led (receipts g : List Received) (a : Received) : Prop where
  mem : a ∈ receipts
  income : a.isIncome = true
  only : ∀ b ∈ receipts, b.isIncome = true → b.groupKey = a.groupKey → b = a
  mem_iff : ∀ r, r ∈ g ↔
    r = a ∨ (r ∈ receipts ∧ r.groupKey = a.groupKey ∧ r.isWithholding = true)

theorem Led.groupKey_eq {receipts g : List Received} {a r : Received} (h : Led receipts g a)
    (hr : r ∈ g) : r.groupKey = a.groupKey := by
  rcases (h.mem_iff r).1 hr with rfl | hr
  · rfl
  · exact hr.2.1

/-- The first group of a key with one income is led by it. -/
theorem led_of_filter {receipts : List Received} {key : String × Option String × Bool}
    {a : Received}
    (h : (ofKey (byIdentity receipts) key).filter Received.isIncome = [a]) :
    Led receipts
      (a :: ((ofKey (byIdentity receipts) key).filter (!·.isIncome)).filter Received.isWithholding)
      a := by
  have hmem : ∀ b, b ∈ receipts ∧ b.groupKey = key ∧ b.isIncome = true ↔ b = a := by
    intro b
    have hb : b ∈ (ofKey (byIdentity receipts) key).filter Received.isIncome ↔ b = a := by
      rw [h, List.mem_singleton]
    rw [← hb, List.mem_filter, mem_ofKey, and_assoc]
  obtain ⟨ha, hkey, hincome⟩ := (hmem a).2 rfl
  refine ⟨ha, hincome, fun b hb hi hk => (hmem b).1 ⟨hb, hk.trans hkey, hi⟩, fun r => ?_⟩
  rw [List.mem_cons, List.mem_filter, List.mem_filter, mem_ofKey, hkey]
  refine or_congr_right ⟨fun hr => ⟨hr.1.1.1, hr.1.1.2, hr.2⟩, fun hr => ?_⟩
  refine ⟨⟨⟨hr.1, hr.2.1⟩, ?_⟩, hr.2.2⟩
  by_contra hnot
  have hi : r.isIncome = true := by simpa using hnot
  rw [Received.isWithholding_of_isIncome hi] at hr
  exact absurd hr.2.2 (by decide)

/-- **A group is one activity, or is led by the only income of its key.** -/
theorem groups_cases {receipts g : List Received} (hg : g ∈ groups receipts) :
    (∃ r ∈ receipts, g = [r]) ∨ ∃ a, Led receipts g a := by
  obtain ⟨key, -, hkey⟩ := List.mem_flatMap.1 hg
  unfold groupsOfKey at hkey
  dsimp only at hkey
  split at hkey
  · rename_i income hincome
    rcases List.mem_cons.1 hkey with rfl | hsingle
    · exact .inr ⟨income, led_of_filter hincome⟩
    · obtain ⟨r, hr, rfl⟩ := List.mem_map.1 hsingle
      exact .inl ⟨r, (mem_ofKey.1 (List.mem_of_mem_filter (List.mem_of_mem_filter hr))).1, rfl⟩
  · obtain ⟨r, hr, rfl⟩ := List.mem_map.1 hkey
    exact .inl ⟨r, (mem_ofKey.1 hr).1, rfl⟩

theorem groupKey_eq_of_mem {receipts g : List Received} (hg : g ∈ groups receipts)
    {r r' : Received} (hr : r ∈ g) (hr' : r' ∈ g) : r.groupKey = r'.groupKey := by
  rcases groups_cases hg with ⟨x, -, rfl⟩ | ⟨a, ha⟩
  · rw [List.mem_singleton.1 hr, List.mem_singleton.1 hr']
  · rw [ha.groupKey_eq hr, ha.groupKey_eq hr']

theorem exists_led {receipts : List Received} (hnodup : receipts.Nodup) {a : Received}
    (ha : a ∈ receipts) (hincome : a.isIncome = true)
    (honly : ∀ b ∈ receipts, b.isIncome = true → b.groupKey = a.groupKey → b = a) :
    ∃ g ∈ groups receipts, Led receipts g a := by
  have hone : (ofKey (byIdentity receipts) a.groupKey).filter Received.isIncome = [a] := by
    refine List.perm_singleton.1 ((List.perm_ext_iff_of_nodup ?_ (List.nodup_singleton a)).2 ?_)
    · exact ((((byIdentity_perm receipts).nodup_iff.2 hnodup).filter _).filter _)
    · intro b
      rw [List.mem_filter, mem_ofKey, List.mem_singleton]
      constructor
      · rintro ⟨⟨hb, hk⟩, hi⟩
        exact honly b hb hi hk
      · rintro rfl
        exact ⟨⟨ha, rfl⟩, hincome⟩
  refine ⟨_, List.mem_flatMap.2 ⟨a.groupKey, mem_firstKeys.2 ⟨a, mem_byIdentity.2 ha, rfl⟩, ?_⟩,
    led_of_filter hone⟩
  unfold groupsOfKey
  dsimp only
  rw [hone]
  exact List.mem_cons_self

/-- **Two activities of one group were in one group before**, if the receipts had an income of their
key by then. -/
theorem exists_group_of_subset {earlier receipts : List Received} (hnodup : earlier.Nodup)
    (hsub : earlier ⊆ receipts) {g : List Received} (hg : g ∈ groups receipts) {x y a : Received}
    (hx : x ∈ g) (hy : y ∈ g) (hx' : x ∈ earlier) (hy' : y ∈ earlier) (ha : a ∈ earlier)
    (hincome : a.isIncome = true) (hkey : a.groupKey = x.groupKey) :
    ∃ g' ∈ groups earlier, x ∈ g' ∧ y ∈ g' := by
  rcases groups_cases hg with ⟨z, -, rfl⟩ | ⟨b, hb⟩
  · have hxy : y = x := (List.mem_singleton.1 hy).trans (List.mem_singleton.1 hx).symm
    obtain ⟨g', hg', hin⟩ := exists_group hx'
    exact ⟨g', hg', hin, hxy ▸ hin⟩
  · have hab : a = b := hb.only a (hsub ha) hincome (hkey.trans (hb.groupKey_eq hx))
    obtain ⟨g', hg', hled⟩ := exists_led hnodup ha hincome fun c hc hi hk =>
      (hb.only c (hsub hc) hi (hk.trans (congrArg _ hab))).trans hab.symm
    have hin : ∀ r ∈ g, r ∈ earlier → r ∈ g' := by
      intro r hr hr'
      rcases (hb.mem_iff r).1 hr with rfl | ⟨-, hk, hw⟩
      · exact (hled.mem_iff r).2 (.inl hab.symm)
      · exact (hled.mem_iff r).2 (.inr ⟨hr', hk.trans (congrArg _ hab.symm), hw⟩)
    exact ⟨g', hg', hin x hx hx', hin y hy hy'⟩

end Dividends

end TradePulse
