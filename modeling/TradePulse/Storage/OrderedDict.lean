/-
**Dictionaries that remember the order of insertion.**

Storing under a key that is there replaces the value where it stands; a new key goes to the end.

Main definitions:

* `OrderedDict`, `OrderedDict.get?`, `OrderedDict.insert` — dictionaries, lookup and storing;
* `OrderedDict.ofList` — the dictionary of a list of entries, of which the last with a key counts;
* `OrderedDict.mapValues` — a function that may raise, at every value.

Main results:

* `OrderedDict.get?_eq_some_iff` — a lookup finds exactly the entry with the key;
* `OrderedDict.get?_insert`, `OrderedDict.mem_of_get?_ofList` — what is found after storing;
* `OrderedDict.sum_insert` — what replacing a value does to a sum over the values;
* `OrderedDict.get?_mapValues` — what is found after a function was applied.
-/

import Mathlib.Algebra.BigOperators.Group.List.Basic
import Mathlib.Data.List.Nodup
import Mathlib.Data.List.Forall2
import Mathlib.Data.List.Induction
import Mathlib.Tactic.Abel

set_option autoImplicit false

namespace Storage

/-- Entries in the order of insertion, no two of them with one key. -/
structure OrderedDict (κ α : Type) where
  entries : List (κ × α)
  nodup : (entries.map Prod.fst).Nodup
  deriving DecidableEq

theorem forall₂_of_mapM {ε α β : Type} {f : α → Except ε β} :
    ∀ {l : List α} {bs : List β}, l.mapM f = .ok bs → List.Forall₂ (fun a b => f a = .ok b) l bs
  | [], bs, h => by
      rw [List.mapM_nil] at h
      cases h
      exact .nil
  | a :: l, bs, h => by
      rw [List.mapM_cons] at h
      cases ha : f a with
      | error e =>
          rw [ha] at h
          cases h
      | ok b =>
          rw [ha] at h
          cases hl : l.mapM f with
          | error e =>
              simp only [hl, bind, Except.bind] at h
              cases h
          | ok cs =>
              simp only [hl, bind, Except.bind] at h
              cases h
              exact .cons ha (forall₂_of_mapM hl)

theorem exists_left_of_forall₂ {α β : Type} {R : α → β → Prop} {l : List α} {bs : List β}
    (h : List.Forall₂ R l bs) {b : β} (hb : b ∈ bs) : ∃ a ∈ l, R a b := by
  induction h with
  | nil => cases hb
  | @cons a c l bs hac _ ih =>
      rcases List.mem_cons.1 hb with rfl | hmem
      · exact ⟨a, List.mem_cons_self, hac⟩
      · obtain ⟨x, hx, hR⟩ := ih hmem
        exact ⟨x, List.mem_cons_of_mem a hx, hR⟩

theorem map_eq_of_forall₂ {α β γ : Type} {R : α → β → Prop} {f : α → γ} {g : β → γ} {l : List α}
    {bs : List β} (h : List.Forall₂ R l bs) (hR : ∀ a b, R a b → f a = g b) :
    l.map f = bs.map g := by
  induction h with
  | nil => rfl
  | cons hab _ ih => rw [List.map_cons, List.map_cons, hR _ _ hab, ih]

namespace OrderedDict

variable {κ α β ε : Type}

def keys (d : OrderedDict κ α) : List κ := d.entries.map Prod.fst

theorem nodup_keys (d : OrderedDict κ α) : d.keys.Nodup := d.nodup

theorem mem_keys {d : OrderedDict κ α} {k : κ} : k ∈ d.keys ↔ ∃ v, (k, v) ∈ d.entries := by
  simp [keys]

/-- The values, in the order of insertion. -/
def values (d : OrderedDict κ α) : List α := d.entries.map Prod.snd

theorem mem_values {d : OrderedDict κ α} {v : α} : v ∈ d.values ↔ ∃ k, (k, v) ∈ d.entries := by
  simp [values]

def empty : OrderedDict κ α := ⟨[], List.nodup_nil⟩

theorem forall₂_mapM_mk {f : α → Except ε β} {l : List (κ × α)} {bs : List (κ × β)}
    (h : (l.mapM fun e => (f e.2).map (Prod.mk e.1)) = .ok bs) :
    List.Forall₂ (fun a b => a.1 = b.1 ∧ f a.2 = .ok b.2) l bs := by
  refine (forall₂_of_mapM h).imp fun a b hab => ?_
  cases hf : f a.2 with
  | error e => simp [hf, Except.map] at hab
  | ok c =>
      simp only [hf, Except.map, Except.ok.injEq] at hab
      rw [← hab]
      exact ⟨rfl, rfl⟩

theorem map_fst_of_mapM {f : α → Except ε β} {l : List (κ × α)} {bs : List (κ × β)}
    (h : (l.mapM fun e => (f e.2).map (Prod.mk e.1)) = .ok bs) :
    bs.map Prod.fst = l.map Prod.fst := by
  have hall := (forall₂_mapM_mk h).flip
  clear h
  induction hall with
  | nil => rfl
  | cons hab _ ih => rw [List.map_cons, List.map_cons, ih, hab.1]

/-- A function that may raise, at every value. -/
def mapValues (d : OrderedDict κ α) (f : α → Except ε β) : Except ε (OrderedDict κ β) :=
  match h : d.entries.mapM fun e => (f e.2).map (Prod.mk e.1) with
  | .error e => .error e
  | .ok entries => .ok ⟨entries, by rw [map_fst_of_mapM h]; exact d.nodup⟩

theorem forall₂_mapValues {d : OrderedDict κ α} {f : α → Except ε β} {d' : OrderedDict κ β}
    (h : d.mapValues f = .ok d') :
    List.Forall₂ (fun a b => a.1 = b.1 ∧ f a.2 = .ok b.2) d.entries d'.entries := by
  unfold mapValues at h
  split at h
  · cases h
  · rename_i entries hm
    cases h
    exact forall₂_mapM_mk hm

variable [DecidableEq κ]

/-- The value under a key. -/
def get? (d : OrderedDict κ α) (k : κ) : Option α :=
  (d.entries.find? fun e => e.1 = k).map Prod.snd

theorem get?_eq_some_iff {d : OrderedDict κ α} {k : κ} {v : α} :
    d.get? k = some v ↔ (k, v) ∈ d.entries := by
  unfold get?
  constructor
  · intro h
    obtain ⟨e, he, rfl⟩ := Option.map_eq_some_iff.1 h
    have hk : e.1 = k := by simpa using List.find?_some he
    rw [← hk]
    exact List.mem_of_find?_eq_some he
  · intro h
    cases hf : d.entries.find? fun e => e.1 = k with
    | none =>
        have := List.find?_eq_none.1 hf _ h
        simp at this
    | some e =>
        have hk : e.1 = k := by simpa using List.find?_some hf
        have he : e = (k, v) :=
          List.inj_on_of_nodup_map d.nodup (List.mem_of_find?_eq_some hf) h hk
        rw [he]
        rfl

theorem get?_eq_none_iff {d : OrderedDict κ α} {k : κ} : d.get? k = none ↔ k ∉ d.keys := by
  rw [mem_keys, Option.eq_none_iff_forall_ne_some]
  simp only [ne_eq, get?_eq_some_iff, not_exists]

theorem isSome_get? {d : OrderedDict κ α} {k : κ} : (d.get? k).isSome ↔ k ∈ d.keys := by
  rw [mem_keys, Option.isSome_iff_exists]
  simp only [get?_eq_some_iff]

/-- Store a value under a key. -/
def insert (d : OrderedDict κ α) (k : κ) (v : α) : OrderedDict κ α :=
  if h : k ∈ d.keys then
    ⟨d.entries.map fun e => if e.1 = k then (k, v) else e, by
      have hmap : (d.entries.map fun e => if e.1 = k then (k, v) else e).map Prod.fst
          = d.entries.map Prod.fst := by
        rw [List.map_map]
        refine List.map_congr_left fun e _ => ?_
        by_cases hk : e.1 = k <;> simp [hk]
      rw [hmap]
      exact d.nodup⟩
  else
    ⟨d.entries ++ [(k, v)], by
      rw [List.map_append, List.nodup_append]
      refine ⟨d.nodup, by simp, ?_⟩
      intro a ha b hb hab
      have hbk : b = k := by simpa using hb
      exact h (by simpa [keys, hab, hbk] using ha)⟩

theorem mem_insert {d : OrderedDict κ α} {k k' : κ} {v v' : α} :
    (k', v') ∈ (d.insert k v).entries ↔
      (k' = k ∧ v' = v) ∨ (k' ≠ k ∧ (k', v') ∈ d.entries) := by
  unfold insert
  split
  · rename_i h
    obtain ⟨w, hw⟩ := mem_keys.1 h
    simp only [List.mem_map, Prod.exists]
    constructor
    · rintro ⟨a, b, hab, he⟩
      split at he
      · cases he
        exact .inl ⟨rfl, rfl⟩
      · rename_i hne
        cases he
        exact .inr ⟨hne, hab⟩
    · rintro (⟨rfl, rfl⟩ | ⟨hne, hmem⟩)
      · exact ⟨k', w, hw, by simp⟩
      · exact ⟨k', v', hmem, by simp [hne]⟩
  · rename_i h
    simp only [List.mem_append, List.mem_singleton, Prod.mk.injEq]
    constructor
    · rintro (hmem | ⟨rfl, rfl⟩)
      · refine .inr ⟨?_, hmem⟩
        rintro rfl
        exact h (mem_keys.2 ⟨v', hmem⟩)
      · exact .inl ⟨rfl, rfl⟩
    · rintro (⟨rfl, rfl⟩ | ⟨_, hmem⟩)
      · exact .inr ⟨rfl, rfl⟩
      · exact .inl hmem

theorem get?_insert (d : OrderedDict κ α) (k k' : κ) (v : α) :
    (d.insert k v).get? k' = if k' = k then some v else d.get? k' := by
  ext v'
  simp only [get?_eq_some_iff, mem_insert]
  split
  · rename_i h
    simp [h, eq_comm]
  · rename_i h
    simp [h, get?_eq_some_iff]

theorem get?_perm {d d' : OrderedDict κ α} (h : d.entries.Perm d'.entries) (k : κ) :
    d.get? k = d'.get? k := by
  ext v
  simp only [get?_eq_some_iff, h.mem_iff]

theorem perm_insert {d d' : OrderedDict κ α} (h : d.entries.Perm d'.entries) (k : κ) (v : α) :
    (d.insert k v).entries.Perm (d'.insert k v).entries := by
  have hkeys : k ∈ d.keys ↔ k ∈ d'.keys := (h.map Prod.fst).mem_iff
  unfold insert
  by_cases hk : k ∈ d.keys
  · rw [dif_pos hk, dif_pos (hkeys.1 hk)]
    exact h.map _
  · rw [dif_neg hk, dif_neg fun hk' => hk (hkeys.2 hk')]
    exact h.append_right _

theorem entries_insert_of_notMem {d : OrderedDict κ α} {k : κ} {v : α} (h : k ∉ d.keys) :
    (d.insert k v).entries = d.entries ++ [(k, v)] := by
  unfold insert
  rw [dif_neg h]

theorem values_insert_of_notMem {d : OrderedDict κ α} {k : κ} {v : α} (h : k ∉ d.keys) :
    (d.insert k v).values = d.values ++ [v] := by
  unfold insert
  rw [dif_neg h]
  simp [values]

theorem mem_values_insert {d : OrderedDict κ α} {k : κ} {v w : α}
    (h : w ∈ (d.insert k v).values) : w = v ∨ ∃ k', k' ≠ k ∧ (k', w) ∈ d.entries := by
  obtain ⟨k', hk'⟩ := mem_values.1 h
  rcases mem_insert.1 hk' with ⟨-, rfl⟩ | ⟨hne, hmem⟩
  · exact .inl rfl
  · exact .inr ⟨k', hne, hmem⟩

theorem sum_insert {M : Type} [AddCommGroup M] {d : OrderedDict κ α} {k : κ} {v : α} (w : α)
    (f : α → M) (h : d.get? k = some v) :
    ((d.insert k w).values.map f).sum = (d.values.map f).sum - f v + f w := by
  have hmem : (k, v) ∈ d.entries := get?_eq_some_iff.1 h
  obtain ⟨pre, post, hentries⟩ := List.append_of_mem hmem
  have hnodup := d.nodup
  rw [hentries, List.map_append, List.map_cons, List.nodup_append, List.nodup_cons] at hnodup
  have hkeep : ∀ l : List (κ × α), (∀ e ∈ l, e.1 ≠ k) →
      (l.map fun e => if e.1 = k then (k, w) else e) = l := fun l hl =>
    (List.map_congr_left fun e he => by simp [hl e he]).trans (List.map_id' l)
  have hpre := hkeep pre fun e he heq =>
    hnodup.2.2 _ (List.mem_map_of_mem he) _ List.mem_cons_self heq
  have hpost := hkeep post fun e he heq => hnodup.2.1.1 (List.mem_map.2 ⟨e, he, heq⟩)
  have hk : k ∈ d.keys := mem_keys.2 ⟨v, hmem⟩
  have hins : (d.insert k w).entries = pre ++ (k, w) :: post := by
    unfold insert
    rw [dif_pos hk]
    simp only [hentries, List.map_append, List.map_cons, if_true, hpre, hpost]
  simp only [values, hins, hentries, List.map_append, List.map_cons, List.sum_append,
    List.sum_cons]
  abel

/-- The dictionary of a list of entries. -/
def ofList (l : List (κ × α)) : OrderedDict κ α := l.foldl (fun d e => d.insert e.1 e.2) empty

theorem ofList_append_singleton (l : List (κ × α)) (e : κ × α) :
    ofList (l ++ [e]) = (ofList l).insert e.1 e.2 := by
  simp [ofList]

theorem mem_of_mem_ofList {l : List (κ × α)} {e : κ × α} (h : e ∈ (ofList l).entries) :
    e ∈ l := by
  induction l using List.reverseRecOn with
  | nil => exact h
  | append_singleton l a ih =>
      rw [ofList_append_singleton] at h
      obtain ⟨k, v⟩ := e
      rcases mem_insert.1 h with ⟨rfl, rfl⟩ | ⟨_, hmem⟩
      · simp
      · exact List.mem_append_left _ (ih hmem)

theorem mem_keys_ofList {l : List (κ × α)} {k : κ} : k ∈ (ofList l).keys ↔ k ∈ l.map Prod.fst := by
  induction l using List.reverseRecOn with
  | nil => simp [ofList, empty, keys]
  | append_singleton l a ih =>
      rw [ofList_append_singleton, ← isSome_get?, get?_insert]
      by_cases h : k = a.1
      · simp [h]
      · rw [if_neg h, isSome_get?, ih]
        simp [h]

/-- Where no key is repeated, the entries are those of the list. -/
theorem entries_ofList {l : List (κ × α)} (h : (l.map Prod.fst).Nodup) :
    (ofList l).entries = l := by
  induction l using List.reverseRecOn with
  | nil => rfl
  | append_singleton l a ih =>
      rw [List.map_append, List.nodup_append] at h
      have hnew : a.1 ∉ (ofList l).keys := fun hmem =>
        h.2.2 _ (mem_keys_ofList.1 hmem) _ (by simp) rfl
      rw [ofList_append_singleton, entries_insert_of_notMem hnew, ih h.1]

theorem mem_of_get?_ofList {l : List (κ × α)} {k : κ} {v : α} (h : (ofList l).get? k = some v) :
    (k, v) ∈ l :=
  mem_of_mem_ofList (get?_eq_some_iff.1 h)

theorem get?_mapValues {d : OrderedDict κ α} {f : α → Except ε β} {d' : OrderedDict κ β}
    (h : d.mapValues f = .ok d') {k : κ} {b : β} :
    d'.get? k = some b ↔ ∃ a, d.get? k = some a ∧ f a = .ok b := by
  have hall := forall₂_mapValues h
  simp only [get?_eq_some_iff]
  constructor
  · intro hb
    obtain ⟨⟨k', a⟩, ha, hkey, hf⟩ := exists_left_of_forall₂ hall hb
    obtain rfl : k' = k := hkey
    exact ⟨a, ha, hf⟩
  · rintro ⟨a, ha, hf⟩
    obtain ⟨⟨k', b'⟩, hb, hkey, hf'⟩ := exists_left_of_forall₂ hall.flip ha
    obtain rfl : k = k' := hkey
    rw [hf, Except.ok.injEq] at hf'
    exact hf' ▸ hb

end OrderedDict

end Storage
