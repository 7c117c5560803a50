/-
**Trees of JSON, and dictionaries with text keys.**

A dictionary is kept by its items in the order of their keys: two dictionaries are compared
without regard to order, and a writer that sorts the keys writes them in this order.  What the
text of a tree is does not matter here, since reading it gives the tree back.

Main definitions:

* `Json`, `Json.object`, `Json.get?` — trees, an object with its keys sorted, a field of an object;
* `Mapping`, `Mapping.insert`, `Mapping.mapKeys` — dictionaries;
* `Mapping.toJson`, `Mapping.ofJson` — a dictionary as an object.

Main results:

* `get?_object` — the order in which fields are listed does not matter;
* `Mapping.ofJson_toJson` — a dictionary is read back when its values are;
* `Mapping.insert_insert`, `Mapping.mapKeys_mapKeys` — doing it again changes nothing.
-/

import Mathlib.Data.List.Sort
import Mathlib.Data.String.Basic
import Mathlib.Data.Rat.Defs

set_option autoImplicit false

namespace Encoding

/-- A tree of JSON; a number that is no integer is finite and kept by its value. -/
inductive Json
  | null
  | bool (b : Bool)
  | int (n : ℤ)
  | num (q : ℚ)
  | str (s : String)
  | arr (items : List Json)
  | obj (items : List (String × Json))

/-! ### Looking up -/

section Lookup

variable {α : Type}

theorem mem_of_lookup {l : List (String × α)} {k : String} {v : α} (h : l.lookup k = some v) :
    (k, v) ∈ l := by
  induction l with
  | nil => exact absurd h (by simp)
  | cons x l ih =>
      obtain ⟨k', v'⟩ := x
      rw [List.lookup_cons] at h
      by_cases hk : k = k'
      · subst hk
        rw [beq_self_eq_true] at h
        obtain rfl : v' = v := by simpa using h
        exact List.mem_cons_self
      · rw [beq_false_of_ne hk] at h
        exact List.mem_cons_of_mem _ (ih h)

theorem lookup_of_mem {l : List (String × α)} (hnodup : (l.map Prod.fst).Nodup) {k : String}
    {v : α} (h : (k, v) ∈ l) : l.lookup k = some v := by
  induction l with
  | nil => exact absurd h (by simp)
  | cons x l ih =>
      obtain ⟨k', v'⟩ := x
      rw [List.map_cons, List.nodup_cons] at hnodup
      rw [List.lookup_cons]
      rcases List.mem_cons.1 h with heq | hmem
      · obtain ⟨rfl, rfl⟩ := Prod.mk.inj heq
        rw [beq_self_eq_true]
      · have hne : k ≠ k' := by
          rintro rfl
          exact hnodup.1 (List.mem_map.2 ⟨_, hmem, rfl⟩)
        rw [beq_false_of_ne hne]
        exact ih hnodup.2 hmem

theorem lookup_perm {l m : List (String × α)} (hperm : l.Perm m)
    (hnodup : (m.map Prod.fst).Nodup) (k : String) : l.lookup k = m.lookup k := by
  have hl : (l.map Prod.fst).Nodup := (hperm.map Prod.fst).nodup_iff.2 hnodup
  cases hm : m.lookup k with
  | some v => exact lookup_of_mem hl (hperm.mem_iff.2 (mem_of_lookup hm))
  | none =>
      cases h : l.lookup k with
      | none => rfl
      | some v =>
          have := lookup_of_mem hnodup (hperm.mem_iff.1 (mem_of_lookup h))
          rw [hm] at this
          exact absurd this (by simp)

end Lookup

namespace Json

/-- Fields in the order of their keys. -/
def sortKeys (fields : List (String × Json)) : List (String × Json) :=
  fields.insertionSort fun a b => a.1 ≤ b.1

/-- An object with its keys sorted. -/
def object (fields : List (String × Json)) : Json := .obj (sortKeys fields)

/-- A field of an object. -/
def get? (key : String) : Json → Option Json
  | .obj items => items.lookup key
  | _ => none

/-- **The order in which fields are listed does not matter.** -/
theorem get?_object {fields : List (String × Json)} (hnodup : (fields.map Prod.fst).Nodup)
    (key : String) : (object fields).get? key = fields.lookup key :=
  lookup_perm (List.perm_insertionSort _ fields) hnodup key

end Json

/-! ### Dictionaries -/

/-- A dictionary with text keys, by its items in the order of the keys. -/
structure Mapping (α : Type) where
  items : List (String × α)
  sorted : (items.map Prod.fst).Pairwise (· < ·)

namespace Mapping

variable {α : Type}

theorem ext_items {m m' : Mapping α} (h : m.items = m'.items) : m = m' := by
  cases m
  cases m'
  cases h
  rfl

instance [DecidableEq α] : DecidableEq (Mapping α) := fun m m' =>
  decidable_of_iff (m.items = m'.items) ⟨ext_items, fun h => h ▸ rfl⟩

def empty : Mapping α := ⟨[], List.Pairwise.nil⟩

instance : Inhabited (Mapping α) := ⟨empty⟩

def get? (m : Mapping α) (k : String) : Option α := m.items.lookup k

/-- The items with one added, in place of one of the same key. -/
def insertItem (k : String) (v : α) : List (String × α) → List (String × α)
  | [] => [(k, v)]
  | (k', v') :: l =>
      if k < k' then (k, v) :: (k', v') :: l
      else if k = k' then (k, v) :: l
      else (k', v') :: insertItem k v l

theorem mem_keys_insertItem {k : String} {v : α} {l : List (String × α)} {x : String}
    (h : x ∈ (insertItem k v l).map Prod.fst) : x = k ∨ x ∈ l.map Prod.fst := by
  induction l with
  | nil => exact .inl (by simpa [insertItem] using h)
  | cons y l ih =>
      obtain ⟨k', v'⟩ := y
      simp only [insertItem] at h
      split at h
      · simpa using h
      split at h
      · rcases List.mem_cons.1 h with rfl | h
        · exact .inl rfl
        · exact .inr (List.mem_cons_of_mem _ h)
      · rcases List.mem_cons.1 h with rfl | h
        · exact .inr List.mem_cons_self
        · exact (ih h).imp_right (List.mem_cons_of_mem _)

theorem sorted_insertItem (k : String) (v : α) {l : List (String × α)}
    (h : (l.map Prod.fst).Pairwise (· < ·)) :
    ((insertItem k v l).map Prod.fst).Pairwise (· < ·) := by
  induction l with
  | nil => simp [insertItem]
  | cons y l ih =>
      obtain ⟨k', v'⟩ := y
      rw [List.map_cons, List.pairwise_cons] at h
      simp only [insertItem]
      split
      · rename_i hlt
        rw [List.map_cons, List.pairwise_cons, List.map_cons, List.pairwise_cons]
        refine ⟨fun x hx => ?_, h⟩
        rcases List.mem_cons.1 hx with rfl | hx
        · exact hlt
        · exact hlt.trans (h.1 x hx)
      split
      · rename_i heq
        rw [List.map_cons, List.pairwise_cons]
        exact ⟨fun x hx => heq ▸ h.1 x hx, h.2⟩
      · rename_i hnlt hne
        rw [List.map_cons, List.pairwise_cons]
        refine ⟨fun x hx => ?_, ih h.2⟩
        rcases mem_keys_insertItem hx with rfl | hx
        · exact lt_of_le_of_ne (not_lt.1 hnlt) (Ne.symm hne)
        · exact h.1 x hx

/-- `m[k] = v`. -/
def insert (m : Mapping α) (k : String) (v : α) : Mapping α :=
  ⟨insertItem k v m.items, sorted_insertItem k v m.sorted⟩

theorem insert_insert (m : Mapping α) (k : String) (v : α) :
    (m.insert k v).insert k v = m.insert k v := by
  apply ext_items
  change insertItem k v (insertItem k v m.items) = insertItem k v m.items
  induction m.items with
  | nil => simp [insertItem]
  | cons y l ih =>
      obtain ⟨k', v'⟩ := y
      by_cases hlt : k < k'
      · simp [insertItem, hlt]
      by_cases heq : k = k'
      · simp [insertItem, heq]
      · simp [insertItem, hlt, heq, ih]

/-- The dictionary of the same values under other keys; of two equal keys the later one counts. -/
def mapKeys (f : String → String) (m : Mapping α) : Mapping α :=
  m.items.foldl (fun acc x => acc.insert (f x.1) x.2) empty

theorem insertItem_last {k : String} {v : α} {l : List (String × α)}
    (h : ∀ x ∈ l.map Prod.fst, x < k) : insertItem k v l = l ++ [(k, v)] := by
  induction l with
  | nil => rfl
  | cons y l ih =>
      obtain ⟨k', v'⟩ := y
      have hlt : k' < k := h k' List.mem_cons_self
      simp only [insertItem, if_neg (not_lt.2 hlt.le), if_neg hlt.ne', List.cons_append]
      rw [ih fun x hx => h x (List.mem_cons_of_mem _ hx)]

theorem foldl_insert_items {f : String → String} {l : List (String × α)}
    (hf : ∀ x ∈ l.map Prod.fst, f x = x) (acc : Mapping α)
    (hsorted : ((acc.items ++ l).map Prod.fst).Pairwise (· < ·)) :
    (l.foldl (fun acc x => acc.insert (f x.1) x.2) acc).items = acc.items ++ l := by
  induction l generalizing acc with
  | nil => simp
  | cons y l ih =>
      obtain ⟨k, v⟩ := y
      have hk : f k = k := hf k List.mem_cons_self
      have hbefore : ∀ x ∈ acc.items.map Prod.fst, x < k := by
        intro x hx
        rw [List.map_append, List.pairwise_append] at hsorted
        exact hsorted.2.2 x hx k List.mem_cons_self
      have hitems : (acc.insert (f k) v).items = acc.items ++ [(k, v)] := by
        rw [hk]
        exact insertItem_last hbefore
      rw [List.foldl_cons, ih (fun x hx => hf x (List.mem_cons_of_mem _ hx)) _
        (by rw [hitems]; simpa using hsorted), hitems]
      simp

theorem mapKeys_eq_self {f : String → String} {m : Mapping α}
    (hf : ∀ x ∈ m.items.map Prod.fst, f x = x) : m.mapKeys f = m :=
  ext_items (foldl_insert_items hf empty m.sorted)

theorem mem_keys_foldl {f : String → String} {l : List (String × α)} {acc : Mapping α}
    {x : String}
    (h : x ∈ ((l.foldl (fun acc x => acc.insert (f x.1) x.2) acc).items).map Prod.fst) :
    x ∈ acc.items.map Prod.fst ∨ ∃ y, x = f y := by
  induction l generalizing acc with
  | nil => exact .inl h
  | cons z l ih =>
      rcases ih h with h | h
      · exact (mem_keys_insertItem h).symm.imp_right fun h => ⟨_, h⟩
      · exact .inr h

theorem mapKeys_mapKeys {f : String → String} (hf : ∀ x, f (f x) = f x) (m : Mapping α) :
    (m.mapKeys f).mapKeys f = m.mapKeys f := by
  refine mapKeys_eq_self fun x hx => ?_
  rcases mem_keys_foldl hx with h | ⟨y, rfl⟩
  · exact absurd h (by simp [empty])
  · exact hf y

/-- The dictionary with these items, when their keys are in order. -/
def ofItems (items : List (String × α)) : Option (Mapping α) :=
  if h : (items.map Prod.fst).Pairwise (· < ·) then some ⟨items, h⟩ else none

/-- A dictionary as an object. -/
def toJson (f : α → Json) (m : Mapping α) : Json := .obj (m.items.map fun x => (x.1, f x.2))

/-- An object as a dictionary. -/
def ofJson (g : Json → Option α) : Json → Option (Mapping α)
  | .obj items => (items.mapM fun x => (g x.2).map fun v => (x.1, v)).bind ofItems
  | _ => none

/-- **A dictionary is read back when its values are.** -/
theorem ofJson_toJson {f : α → Json} {g : Json → Option α} (hfg : ∀ a, g (f a) = some a)
    (m : Mapping α) : ofJson g (m.toJson f) = some m := by
  have hitems : ∀ l : List (String × α), (l.map fun x => (x.1, f x.2)).mapM
      (fun x : String × Json => (g x.2).map fun v => (x.1, v)) = some l := by
    intro l
    induction l with
    | nil => rfl
    | cons x l ih => simp [hfg, ih]
  simp only [toJson, ofJson, hitems, Option.bind_some]
  exact dif_pos m.sorted

end Mapping

end Encoding
