/-
**Keyed tables.**

A table of a relational store, as the programs above it see one: rows with a primary key and, for
some tables, a second column with a uniqueness constraint.  Both constraints are fields of the
table, so a table that violates them cannot be built; the four ways of writing (insert-or-ignore,
update, delete, and a read-decide-write of one row) keep them.

Main definitions:

* `Record` — the key columns of a row type;
* `Table`, `Table.get?`, `Table.findByUnique` — tables and lookups;
* `Table.createOnce`, `Table.put`, `Table.upsert`, `Table.delete` — the writes;
* `Table.sum` — the sum of a column.

Main results:

* `Table.get?_eq_some_iff` — a lookup finds exactly the row with the key;
* `Table.mem_createOnce`, `Table.mem_put`, `Table.mem_delete` — the rows after a write;
* `Table.sum_createOnce`, `Table.sum_put` — what a write adds to a column's sum.
-/

import Mathlib.Algebra.BigOperators.Group.List.Basic
import Mathlib.Data.List.Pairwise
import Mathlib.Tactic.Abel

set_option autoImplicit false

namespace Storage

/-- The key columns of a row type. -/
class Record (α : Type) where
  recordId : α → String
  /-- The value of the column with a uniqueness constraint; `none` is the database's null. -/
  uniqueValue : α → Option String

open Record

variable {α : Type} [Record α]

/-- Two rows that may stand in one table. -/
def Apart (a b : α) : Prop :=
  recordId a ≠ recordId b ∧ (uniqueValue a = none ∨ uniqueValue a ≠ uniqueValue b)

instance (a b : α) : Decidable (Apart a b) := inferInstanceAs (Decidable (_ ∧ _))

theorem Apart.symm {a b : α} (h : Apart a b) : Apart b a := by
  refine ⟨h.1.symm, ?_⟩
  rcases h.2 with ha | ha
  · by_cases hb : uniqueValue b = none
    · exact .inl hb
    · exact .inr fun he => hb (he.trans ha)
  · exact .inr ha.symm

instance : Std.Symm (@Apart α _) := ⟨fun _ _ => Apart.symm⟩

/-- Two rows with the same key columns. -/
def SameKeys (a b : α) : Prop := recordId a = recordId b ∧ uniqueValue a = uniqueValue b

instance (a b : α) : Decidable (SameKeys a b) := inferInstanceAs (Decidable (_ ∧ _))

/-- A table: rows in the order of insertion, no two of them with the same key. -/
structure Table (α : Type) [Record α] where
  rows : List α
  keyed : rows.Pairwise Apart

namespace Table

instance : Inhabited (Table α) := ⟨⟨[], .nil⟩⟩

instance : Membership α (Table α) := ⟨fun t a => a ∈ t.rows⟩

theorem mem_def {t : Table α} {a : α} : a ∈ t ↔ a ∈ t.rows := Iff.rfl

@[ext] theorem ext {t u : Table α} (h : t.rows = u.rows) : t = u := by
  cases t
  cases u
  congr

instance (t : Table α) (p : α → Prop) [DecidablePred p] : Decidable (∀ a ∈ t, p a) :=
  inferInstanceAs (Decidable (∀ a ∈ t.rows, p a))

/-- The row with the given primary key. -/
def get? (t : Table α) (id : String) : Option α := t.rows.find? fun a => recordId a = id

/-- The row with the given value in the unique column. -/
def findByUnique (t : Table α) (v : String) : Option α :=
  t.rows.find? fun a => uniqueValue a = some v

theorem eq_of_recordId {t : Table α} {a b : α} (ha : a ∈ t) (hb : b ∈ t)
    (h : recordId a = recordId b) : a = b := by
  by_contra hne
  exact (t.keyed.forall ha hb hne).1 h

theorem eq_of_uniqueValue {t : Table α} {a b : α} {v : String} (ha : a ∈ t) (hb : b ∈ t)
    (hav : uniqueValue a = some v) (hbv : uniqueValue b = some v) : a = b := by
  by_contra hne
  rcases (t.keyed.forall ha hb hne).2 with h | h
  · rw [hav] at h
    cases h
  · exact h (hav.trans hbv.symm)

theorem get?_eq_some_iff {t : Table α} {id : String} {a : α} :
    t.get? id = some a ↔ a ∈ t ∧ recordId a = id := by
  constructor
  · intro h
    exact ⟨List.mem_of_find?_eq_some h, by simpa using List.find?_some h⟩
  · rintro ⟨ha, rfl⟩
    obtain ⟨b, hb⟩ : ∃ b, t.get? (recordId a) = some b := by
      refine Option.isSome_iff_exists.1 (List.find?_isSome.2 ⟨a, ha, by simp⟩)
    have hb' : b ∈ t ∧ recordId b = recordId a :=
      ⟨List.mem_of_find?_eq_some hb, by simpa using List.find?_some hb⟩
    rw [hb, eq_of_recordId hb'.1 ha hb'.2]

theorem get?_eq_none_iff {t : Table α} {id : String} :
    t.get? id = none ↔ ∀ a ∈ t, recordId a ≠ id := by
  simp [get?, List.find?_eq_none, mem_def]

theorem findByUnique_eq_some_iff {t : Table α} {v : String} {a : α} :
    t.findByUnique v = some a ↔ a ∈ t ∧ uniqueValue a = some v := by
  constructor
  · intro h
    exact ⟨List.mem_of_find?_eq_some h, by simpa using List.find?_some h⟩
  · rintro ⟨ha, hv⟩
    obtain ⟨b, hb⟩ : ∃ b, t.findByUnique v = some b :=
      Option.isSome_iff_exists.1 (List.find?_isSome.2 ⟨a, ha, by simpa using hv⟩)
    have hb' : b ∈ t ∧ uniqueValue b = some v :=
      ⟨List.mem_of_find?_eq_some hb, by simpa using List.find?_some hb⟩
    rw [hb, eq_of_uniqueValue hb'.1 ha hb'.2 hv]

theorem findByUnique_eq_none_iff {t : Table α} {v : String} :
    t.findByUnique v = none ↔ ∀ a ∈ t, uniqueValue a ≠ some v := by
  simp [findByUnique, List.find?_eq_none, mem_def]

/-! ### Insert or ignore -/

/-- No row of the table has a key of the new row. -/
def Admits (t : Table α) (r : α) : Prop := ∀ a ∈ t.rows, Apart a r

instance (t : Table α) (r : α) : Decidable (t.Admits r) :=
  inferInstanceAs (Decidable (∀ a ∈ t.rows, Apart a r))

/-- Insert a row unless one of its keys is taken. -/
def createOnce (t : Table α) (r : α) : Table α :=
  if h : t.Admits r then
    ⟨t.rows ++ [r], List.pairwise_append.2 ⟨t.keyed, List.pairwise_singleton _ _, by
      intro a ha b hb
      rw [List.mem_singleton.1 hb]
      exact h a ha⟩⟩
  else t

theorem rows_createOnce {t : Table α} {r : α} (h : t.Admits r) :
    (t.createOnce r).rows = t.rows ++ [r] := by
  simp [createOnce, h]

theorem createOnce_of_not_admits {t : Table α} {r : α} (h : ¬ t.Admits r) :
    t.createOnce r = t := by
  simp [createOnce, h]

theorem mem_createOnce {t : Table α} {r a : α} :
    a ∈ t.createOnce r ↔ a ∈ t ∨ (t.Admits r ∧ a = r) := by
  by_cases h : t.Admits r
  · simp [mem_def, rows_createOnce h, h]
  · simp [createOnce_of_not_admits h, h]

theorem mem_createOnce_of_mem {t : Table α} {r a : α} (h : a ∈ t) : a ∈ t.createOnce r :=
  mem_createOnce.2 (.inl h)

/-! ### Rows that were added -/

/-- Rows with a property were added, and nothing else was changed. -/
def ExtendedBy (P : α → Prop) (t u : Table α) : Prop :=
  ∃ added, u.rows = t.rows ++ added ∧ ∀ r ∈ added, P r

namespace ExtendedBy

variable {P Q : α → Prop} {t u v : Table α}

theorem refl (P : α → Prop) (t : Table α) : ExtendedBy P t t := ⟨[], by simp, by simp⟩

theorem trans (h : ExtendedBy P t u) (h' : ExtendedBy P u v) : ExtendedBy P t v := by
  obtain ⟨added, hrows, hadded⟩ := h
  obtain ⟨added', hrows', hadded'⟩ := h'
  refine ⟨added ++ added', by rw [hrows', hrows, List.append_assoc], fun r hr => ?_⟩
  exact (List.mem_append.1 hr).elim (hadded r) (hadded' r)

theorem mono (h : ExtendedBy P t u) (hPQ : ∀ r, P r → Q r) : ExtendedBy Q t u := by
  obtain ⟨added, hrows, hadded⟩ := h
  exact ⟨added, hrows, fun r hr => hPQ r (hadded r hr)⟩

theorem createOnce {r : α} (t : Table α) (h : P r) : ExtendedBy P t (t.createOnce r) := by
  by_cases hadmits : t.Admits r
  · refine ⟨[r], rows_createOnce hadmits, fun a ha => ?_⟩
    rw [List.mem_singleton.1 ha]
    exact h
  · rw [createOnce_of_not_admits hadmits]
    exact refl P t

theorem filter_eq {q : α → Bool} (h : ExtendedBy P t u) (hq : ∀ r, P r → q r = false) :
    u.rows.filter q = t.rows.filter q := by
  obtain ⟨added, hrows, hadded⟩ := h
  have hnone : added.filter q = [] :=
    List.filter_eq_nil_iff.2 fun r hr => by simp [hq r (hadded r hr)]
  rw [hrows, List.filter_append, hnone, List.append_nil]

theorem mem_iff {a : α} (h : ExtendedBy P t u) (ha : ¬ P a) : a ∈ u ↔ a ∈ t := by
  obtain ⟨added, hrows, hadded⟩ := h
  rw [mem_def, mem_def, hrows, List.mem_append]
  exact or_iff_left fun hmem => ha (hadded a hmem)

end ExtendedBy

/-! ### Update -/

/-- Write a row over the row with its keys, if there is one. -/
def put (t : Table α) (r : α) : Table α :=
  ⟨t.rows.map fun a => if SameKeys a r then r else a, by
    refine List.pairwise_map.2 (t.keyed.imp ?_)
    intro a b hab
    by_cases ha : SameKeys a r
    · by_cases hb : SameKeys b r
      · exact absurd (ha.1.trans hb.1.symm) hab.1
      · simpa only [ha, hb, if_true, if_false, Apart, ← ha.1, ← ha.2] using hab
    · by_cases hb : SameKeys b r
      · simpa only [ha, hb, if_true, if_false, Apart, ← hb.1, ← hb.2] using hab
      · simpa only [ha, hb, if_false] using hab⟩

theorem mem_put {t : Table α} {r old a : α} (hold : old ∈ t) (hk : SameKeys old r) :
    a ∈ t.put r ↔ a = r ∨ (a ∈ t ∧ a ≠ old) := by
  simp only [mem_def, put, List.mem_map]
  constructor
  · rintro ⟨b, hb, rfl⟩
    by_cases h : SameKeys b r
    · simp [h]
    · refine .inr ⟨by simpa [h] using hb, ?_⟩
      rintro hbo
      simp only [h, if_false] at hbo
      exact h (hbo ▸ hk)
  · rintro (rfl | ⟨ha, hne⟩)
    · exact ⟨old, hold, by simp [hk]⟩
    · refine ⟨a, ha, ?_⟩
      have hak : ¬ SameKeys a r := fun h => hne (eq_of_recordId ha hold (h.1.trans hk.1.symm))
      simp [hak]

theorem mem_put_imp {t : Table α} {r a : α} (h : a ∈ t.put r) : a = r ∨ a ∈ t := by
  simp only [mem_def, put, List.mem_map] at h
  obtain ⟨b, hb, rfl⟩ := h
  by_cases hk : SameKeys b r
  · simp [hk]
  · exact .inr (by rw [if_neg hk]; exact hb)

theorem mem_put_self {t : Table α} {r old : α} (hold : old ∈ t) (hk : SameKeys old r) :
    r ∈ t.put r :=
  List.mem_map.2 ⟨old, hold, if_pos hk⟩

theorem mem_put_of_not_sameKeys {t : Table α} {r a : α} (ha : a ∈ t) (hne : ¬ SameKeys a r) :
    a ∈ t.put r :=
  List.mem_map.2 ⟨a, ha, if_neg hne⟩

theorem mem_put_of_ne {t : Table α} {r a : α} (ha : a ∈ t) (hne : recordId a ≠ recordId r) :
    a ∈ t.put r :=
  mem_put_of_not_sameKeys ha fun h => hne h.1

/-- A row that is there already is put as it is. -/
theorem put_of_mem {t : Table α} {r : α} (h : r ∈ t) : t.put r = t := by
  refine Table.ext (List.map_congr_left (fun a ha => ?_) |>.trans (List.map_id _))
  by_cases hk : SameKeys a r
  · rw [if_pos hk, eq_of_recordId ha h hk.1]
    rfl
  · rw [if_neg hk]
    rfl

theorem map_put {β : Type*} {t : Table α} {r old : α} (hold : old ∈ t)
    (hk : recordId old = recordId r) {f : α → β} (hf : f r = f old) :
    (t.put r).rows.map f = t.rows.map f := by
  simp only [put, List.map_map]
  refine List.map_congr_left fun a ha => ?_
  rw [Function.comp_apply]
  by_cases h : SameKeys a r
  · rw [if_pos h, hf, eq_of_recordId ha hold (h.1.trans hk.symm)]
  · rw [if_neg h]

theorem exists_mem_put {t : Table α} {r a : α} (ha : a ∈ t) : ∃ b ∈ t.put r, SameKeys a b := by
  by_cases h : SameKeys a r
  · exact ⟨r, mem_put_self ha h, h⟩
  · exact ⟨a, mem_put_of_not_sameKeys ha h, rfl, rfl⟩

theorem exists_of_mem_put {t : Table α} {r b : α} (hb : b ∈ t.put r) : ∃ a ∈ t, SameKeys a b := by
  simp only [mem_def, put, List.mem_map] at hb
  obtain ⟨a, ha, rfl⟩ := hb
  refine ⟨a, ha, ?_⟩
  split
  · assumption
  · exact ⟨rfl, rfl⟩

theorem filter_put {t : Table α} {r : α} {p : α → Bool}
    (h : ∀ a ∈ t, SameKeys a r → p a = false) (hr : p r = false) :
    (t.put r).rows.filter p = t.rows.filter p := by
  obtain ⟨rows, hkeyed⟩ := t
  simp only [put, mem_def] at h ⊢
  clear hkeyed
  induction rows with
  | nil => rfl
  | cons a rows ih =>
      have hrows := ih fun b hb => h b (List.mem_cons_of_mem a hb)
      rw [List.map_cons]
      by_cases ha : SameKeys a r
      · rw [if_pos ha, List.filter_cons_of_neg (by simp [hr]),
          List.filter_cons_of_neg (by simp [h a List.mem_cons_self ha]), hrows]
      · rw [if_neg ha, List.filter_cons, List.filter_cons, hrows]

/-! ### Delete -/

/-- Delete the row with the given primary key. -/
def delete (t : Table α) (id : String) : Table α :=
  ⟨t.rows.filter fun a => recordId a ≠ id, t.keyed.filter _⟩

theorem mem_delete {t : Table α} {id : String} {a : α} :
    a ∈ t.delete id ↔ a ∈ t ∧ recordId a ≠ id := by
  simp [mem_def, delete]

/-! ### Lookups after a write -/

theorem get?_put_self {t : Table α} {r old : α} (hold : old ∈ t) (hk : SameKeys old r) :
    (t.put r).get? (recordId r) = some r :=
  get?_eq_some_iff.2 ⟨mem_put_self hold hk, rfl⟩

theorem get?_put_of_ne {t : Table α} {r : α} {id : String} (h : id ≠ recordId r) :
    (t.put r).get? id = t.get? id := by
  refine Option.ext fun a => ?_
  simp only [get?_eq_some_iff]
  constructor
  · rintro ⟨ha, rfl⟩
    rcases mem_put_imp ha with rfl | ha
    · exact absurd rfl h
    · exact ⟨ha, rfl⟩
  · rintro ⟨ha, rfl⟩
    exact ⟨mem_put_of_ne ha h, rfl⟩

theorem isSome_get?_put {t : Table α} {r : α} {id : String} (h : (t.get? id).isSome) :
    ((t.put r).get? id).isSome := by
  obtain ⟨a, ha⟩ := Option.isSome_iff_exists.1 h
  obtain ⟨hmem, hid⟩ := get?_eq_some_iff.1 ha
  obtain ⟨b, hb, hkeys⟩ := exists_mem_put (r := r) hmem
  rw [get?_eq_some_iff.2 ⟨hb, hkeys.1.symm.trans hid⟩]
  rfl

theorem isSome_get?_createOnce {t : Table α} {r : α} {id : String} (h : (t.get? id).isSome) :
    ((t.createOnce r).get? id).isSome := by
  obtain ⟨a, ha⟩ := Option.isSome_iff_exists.1 h
  obtain ⟨hmem, hid⟩ := get?_eq_some_iff.1 ha
  rw [get?_eq_some_iff.2 ⟨mem_createOnce_of_mem hmem, hid⟩]
  rfl

theorem get?_createOnce_self {t : Table α} {r : α} (h : t.Admits r) :
    (t.createOnce r).get? (recordId r) = some r :=
  get?_eq_some_iff.2 ⟨mem_createOnce.2 (.inr ⟨h, rfl⟩), rfl⟩

/-- Where only the primary key is unique, the key of an inserted row is there afterwards, whether
the row was new or not. -/
theorem isSome_get?_createOnce_self {t : Table α} {r : α} (h : ∀ a : α, uniqueValue a = none) :
    ((t.createOnce r).get? (recordId r)).isSome := by
  by_cases hadmits : t.Admits r
  · rw [get?_createOnce_self hadmits]
    rfl
  · rw [createOnce_of_not_admits hadmits]
    simp only [Admits, Apart, not_forall, h, true_or, and_true, not_not] at hadmits
    obtain ⟨old, hold, hid⟩ := hadmits
    rw [get?_eq_some_iff.2 ⟨hold, hid⟩]
    rfl

theorem get?_createOnce_of_ne {t : Table α} {r : α} {id : String} (h : id ≠ recordId r) :
    (t.createOnce r).get? id = t.get? id := by
  refine Option.ext fun a => ?_
  simp only [get?_eq_some_iff, mem_createOnce]
  constructor
  · rintro ⟨ha | ⟨-, rfl⟩, rfl⟩
    · exact ⟨ha, rfl⟩
    · exact absurd rfl h
  · rintro ⟨ha, rfl⟩
    exact ⟨.inl ha, rfl⟩

theorem get?_delete_self {t : Table α} {id : String} : (t.delete id).get? id = none :=
  get?_eq_none_iff.2 fun _ ha => (mem_delete.1 ha).2

theorem get?_delete_of_ne {t : Table α} {id id' : String} (h : id' ≠ id) :
    (t.delete id).get? id' = t.get? id' := by
  refine Option.ext fun a => ?_
  simp only [get?_eq_some_iff, mem_delete]
  constructor
  · rintro ⟨⟨ha, -⟩, hid⟩
    exact ⟨ha, hid⟩
  · rintro ⟨ha, rfl⟩
    exact ⟨⟨ha, h⟩, rfl⟩

/-! ### Insert or update -/

/-- Write a row over the row with its key, or insert it where there is none. -/
def upsert (t : Table α) (r : α) : Table α := (t.createOnce r).put r

theorem get?_upsert_self {t : Table α} {r : α} (h : ∀ a : α, uniqueValue a = none) :
    (t.upsert r).get? (recordId r) = some r := by
  obtain ⟨old, hold⟩ := Option.isSome_iff_exists.1 (isSome_get?_createOnce_self (t := t) (r := r) h)
  obtain ⟨hmem, hid⟩ := get?_eq_some_iff.1 hold
  exact get?_put_self hmem ⟨hid, (h old).trans (h r).symm⟩

theorem get?_upsert_of_ne {t : Table α} {r : α} {id : String} (h : id ≠ recordId r) :
    (t.upsert r).get? id = t.get? id := by
  unfold upsert
  rw [get?_put_of_ne h, get?_createOnce_of_ne h]

theorem mem_upsert {t : Table α} {r a : α} (h : ∀ a : α, uniqueValue a = none) :
    a ∈ t.upsert r ↔ a = r ∨ (a ∈ t ∧ recordId a ≠ recordId r) := by
  by_cases hid : recordId a = recordId r
  · have hget : (t.upsert r).get? (recordId a) = some r := by
      rw [hid]
      exact get?_upsert_self h
    constructor
    · intro ha
      have hsame : (t.upsert r).get? (recordId a) = some a := get?_eq_some_iff.2 ⟨ha, rfl⟩
      rw [hget] at hsame
      exact .inl (Option.some.inj hsame).symm
    · rintro (rfl | ⟨-, hne⟩)
      · exact (get?_eq_some_iff.1 hget).1
      · exact absurd hid hne
  · have hget : (t.upsert r).get? (recordId a) = t.get? (recordId a) := get?_upsert_of_ne hid
    constructor
    · intro ha
      have hsame : (t.upsert r).get? (recordId a) = some a := get?_eq_some_iff.2 ⟨ha, rfl⟩
      rw [hget] at hsame
      exact .inr ⟨(get?_eq_some_iff.1 hsame).1, hid⟩
    · rintro (rfl | ⟨ha, -⟩)
      · exact absurd rfl hid
      · have hsame : t.get? (recordId a) = some a := get?_eq_some_iff.2 ⟨ha, rfl⟩
        rw [← hget] at hsame
        exact (get?_eq_some_iff.1 hsame).1

/-! ### Column sums -/

def sum {M : Type} [AddCommGroup M] (t : Table α) (f : α → M) : M := (t.rows.map f).sum

variable {M : Type} [AddCommGroup M]

theorem sum_createOnce {t : Table α} {r : α} (f : α → M) (h : t.Admits r) :
    (t.createOnce r).sum f = t.sum f + f r := by
  simp [sum, rows_createOnce h]

theorem sum_put {t : Table α} {r old : α} (f : α → M) (hold : old ∈ t) (hk : SameKeys old r) :
    (t.put r).sum f = t.sum f - f old + f r := by
  obtain ⟨pre, post, hrows⟩ := List.append_of_mem (mem_def.1 hold)
  have hpw := t.keyed
  rw [hrows, List.pairwise_append, List.pairwise_cons] at hpw
  have hpre : ∀ a ∈ pre, ¬ SameKeys a r := fun a ha h =>
    (hpw.2.2 a ha old List.mem_cons_self).1 (h.1.trans hk.1.symm)
  have hpost : ∀ a ∈ post, ¬ SameKeys a r := fun a ha h =>
    (hpw.2.1.1 a ha).1 (hk.1.trans h.1.symm)
  have hmap : ∀ l : List α, (∀ a ∈ l, ¬ SameKeys a r) →
      (l.map fun a => if SameKeys a r then r else a) = l := fun l hl =>
    (List.map_congr_left fun a ha => by simp [hl a ha]).trans (List.map_id' l)
  simp only [sum, put, hrows, List.map_append, List.map_cons, hk, if_true, hmap pre hpre,
    hmap post hpost, List.sum_append, List.sum_cons]
  abel

theorem sum_delete {t : Table α} {r : α} (f : α → M) (hr : r ∈ t) :
    t.sum f = (t.delete (recordId r)).sum f + f r := by
  obtain ⟨pre, post, hrows⟩ := List.append_of_mem (mem_def.1 hr)
  have hpw := t.keyed
  rw [hrows, List.pairwise_append, List.pairwise_cons] at hpw
  have hkeep : ∀ l : List α, (∀ a ∈ l, recordId a ≠ recordId r) →
      (l.filter fun a => decide (recordId a ≠ recordId r)) = l := fun l hl =>
    List.filter_eq_self.2 fun a ha => by simpa using hl a ha
  have hpre := hkeep pre fun a ha => (hpw.2.2 a ha r List.mem_cons_self).1
  have hpost := hkeep post fun a ha => (hpw.2.1.1 a ha).1.symm
  simp only [sum, delete, hrows, List.filter_append, List.filter_cons, ne_eq, not_true_eq_false,
    decide_false, Bool.false_eq_true, if_false, List.map_append, List.map_cons, List.sum_append,
    List.sum_cons]
  simp only [ne_eq] at hpre hpost
  rw [hpre, hpost]
  abel

theorem sum_congr {t : Table α} {f g : α → M} (h : ∀ a ∈ t, f a = g a) : t.sum f = t.sum g := by
  unfold sum
  rw [List.map_congr_left h]

theorem sum_eq_zero {t : Table α} {f : α → M} (h : ∀ a ∈ t, f a = 0) : t.sum f = 0 := by
  rw [sum_congr h]
  simp [sum]

end Table

end Storage
