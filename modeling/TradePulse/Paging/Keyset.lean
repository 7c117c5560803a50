/-
**Reading a table in pages, by key.**

Every page holds the first rows past a cursor, in the order of their keys, and the next cursor is
the last key of the page.  Rows may be added and removed, and may change, between two pages.  A key
that is there at every page is found, wherever the others come and go: either it lies past the
cursor, or it was in the way of the cursor when that moved on.

Main definitions:

* `page`, `IsPage` — a page, and what a page holds;
* `Scanned` — what has been read when a page is about to be read;
* `past` — the keys of a list that lie past a cursor.

Main results:

* `isPage_page` — the rows past a cursor, sorted and cut off, are a page;
* `Scanned.next` — one page more keeps what is known;
* `Scanned.finish` — after a short page every key that was always there has been read;
* `past_lt` — a page that is not empty moves the cursor on.
-/

import Mathlib.Data.List.Sort
import Mathlib.Order.Lattice

set_option autoImplicit false

namespace Paging

section Page

variable {ρ κ : Type} [LinearOrder κ] (key : ρ → κ)

/-- The first rows past a cursor, in the order of their keys. -/
def page (rows : List ρ) (after : Option κ) (limit : ℕ) : List ρ :=
  ((rows.filter fun r => after.all fun c => decide (c < key r)).insertionSort
    fun a b => key a ≤ key b).take limit

/-- What a page holds. -/
structure IsPage (rows : List ρ) (after : Option κ) (limit : ℕ) (batch : List ρ) : Prop where
  sorted : batch.Pairwise fun a b => key a < key b
  mem : ∀ r ∈ batch, r ∈ rows
  later : ∀ r ∈ batch, ∀ c ∈ after, c < key r
  length_le : batch.length ≤ limit
  /-- What is missing on a page lies past it, and the page is full. -/
  complete : ∀ r ∈ rows, (∀ c ∈ after, c < key r) →
    r ∈ batch ∨ (batch.length = limit ∧ ∀ x ∈ batch, key x < key r)

theorem lt_of_mem_drop {l : List ρ} (h : l.Pairwise fun a b => key a < key b) {n : ℕ} {x r : ρ}
    (hx : x ∈ l.take n) (hr : r ∈ l.drop n) : key x < key r := by
  rw [← List.take_append_drop n l, List.pairwise_append] at h
  exact h.2.2 x hx r hr

theorem isPage_page {rows : List ρ} (hkeys : (rows.map key).Nodup) (after : Option κ) (limit : ℕ) :
    IsPage key rows after limit (page key rows after limit) := by
  let found := rows.filter fun r => after.all fun c => decide (c < key r)
  let sorted := found.insertionSort fun a b => key a ≤ key b
  have hperm : sorted.Perm found := List.perm_insertionSort _ found
  have hmem : ∀ r, r ∈ sorted ↔ r ∈ rows ∧ ∀ c ∈ after, c < key r := by
    intro r
    rw [hperm.mem_iff, List.mem_filter]
    cases after with
    | none => simp
    | some c => simp
  have hnodup : (sorted.map key).Nodup :=
    (hperm.map key).nodup_iff.2 (hkeys.sublist (List.filter_sublist.map key))
  have hsorted : sorted.Pairwise fun a b => key a < key b := by
    have hle : sorted.Pairwise fun a b => key a ≤ key b := List.pairwise_insertionSort _ found
    have hne : sorted.Pairwise fun a b => key a ≠ key b := List.pairwise_map.1 hnodup
    exact (hle.and hne).imp fun h => lt_of_le_of_ne h.1 h.2
  refine ⟨hsorted.sublist (List.take_sublist _ _), fun r hr => ?_, fun r hr => ?_,
    List.length_take_le _ _, fun r hr hlater => ?_⟩
  · exact ((hmem r).1 (List.mem_of_mem_take hr)).1
  · exact ((hmem r).1 (List.mem_of_mem_take hr)).2
  · have hfound : r ∈ sorted := (hmem r).2 ⟨hr, hlater⟩
    rw [← List.take_append_drop limit sorted] at hfound
    rcases List.mem_append.1 hfound with htake | hdrop
    · exact .inl htake
    · have hfull : limit < sorted.length := by
        have hpos := List.length_pos_of_mem hdrop
        rw [List.length_drop] at hpos
        omega
      refine .inr ⟨?_, fun x hx => lt_of_mem_drop key hsorted hx hdrop⟩
      exact List.length_take_of_le hfull.le

end Page

section Scan

variable {ρ κ : Type} [LinearOrder κ] {key : ρ → κ} {rows : ℕ → List ρ} {n limit : ℕ}
  {after : Option κ} {results batch : List ρ}

/-- What has been read when the page of a number is about to be read; `rows` is what there is to be
read at each page. -/
structure Scanned (key : ρ → κ) (rows : ℕ → List ρ) (n : ℕ) (after : Option κ)
    (results : List ρ) : Prop where
  sorted : results.Pairwise fun a b => key a < key b
  upTo : ∀ r ∈ results, ∃ c ∈ after, key r ≤ c
  sound : ∀ r ∈ results, ∃ m < n, r ∈ rows m
  complete : ∀ k, (∀ m < n, ∃ r ∈ rows m, key r = k) → (∃ c ∈ after, k ≤ c) →
    ∃ r ∈ results, key r = k

theorem Scanned.start (key : ρ → κ) (rows : ℕ → List ρ) : Scanned key rows 0 none [] where
  sorted := List.Pairwise.nil
  upTo _ h := absurd h List.not_mem_nil
  sound _ h := absurd h List.not_mem_nil
  complete _ _ h := by
    obtain ⟨c, hc, -⟩ := h
    cases hc

theorem Scanned.sorted_append (h : Scanned key rows n after results)
    (hpage : IsPage key (rows n) after limit batch) :
    (results ++ batch).Pairwise fun a b => key a < key b := by
  refine List.pairwise_append.2 ⟨h.sorted, hpage.sorted, fun a ha b hb => ?_⟩
  obtain ⟨c, hc, hle⟩ := h.upTo a ha
  exact hle.trans_lt (hpage.later b hb c hc)

theorem Scanned.sound_append (h : Scanned key rows n after results)
    (hpage : IsPage key (rows n) after limit batch) :
    ∀ r ∈ results ++ batch, ∃ m < n + 1, r ∈ rows m := by
  intro r hr
  rcases List.mem_append.1 hr with hr | hr
  · obtain ⟨m, hm, hrow⟩ := h.sound r hr
    exact ⟨m, by omega, hrow⟩
  · exact ⟨n, by omega, hpage.mem r hr⟩

/-- A key that was there at every page has been read, is on the page, or lies past a full one. -/
theorem Scanned.cases (h : Scanned key rows n after results)
    (hpage : IsPage key (rows n) after limit batch) {k : κ}
    (hthere : ∀ m < n + 1, ∃ r ∈ rows m, key r = k) :
    (∃ r ∈ results ++ batch, key r = k) ∨ (batch.length = limit ∧ ∀ x ∈ batch, key x < k) := by
  by_cases hbefore : ∃ c ∈ after, k ≤ c
  · obtain ⟨r, hr, hk⟩ := h.complete k (fun m hm => hthere m (by omega)) hbefore
    exact .inl ⟨r, List.mem_append_left _ hr, hk⟩
  · obtain ⟨r, hr, rfl⟩ := hthere n (by omega)
    have hlater : ∀ c ∈ after, c < key r := by
      intro c hc
      by_contra hle
      exact hbefore ⟨c, hc, not_lt.1 hle⟩
    rcases hpage.complete r hr hlater with hr | hfull
    · exact .inl ⟨r, List.mem_append_right _ hr, rfl⟩
    · exact .inr hfull

theorem le_getLast (hsorted : batch.Pairwise fun a b => key a < key b) (hne : batch ≠ []) :
    ∀ x ∈ batch, key x ≤ key (batch.getLast hne) := by
  intro x hx
  rw [← List.dropLast_append_getLast hne] at hsorted hx
  rcases List.mem_append.1 hx with hx | hx
  · exact ((List.pairwise_append.1 hsorted).2.2 x hx _ (List.mem_singleton.2 rfl)).le
  · rw [List.mem_singleton.1 hx]

/-- **One page more.** -/
theorem Scanned.next (h : Scanned key rows n after results)
    (hpage : IsPage key (rows n) after limit batch) (hne : batch ≠ []) :
    Scanned key rows (n + 1) (some (key (batch.getLast hne))) (results ++ batch) where
  sorted := h.sorted_append hpage
  upTo r hr := by
    refine ⟨_, rfl, ?_⟩
    rcases List.mem_append.1 hr with hr | hr
    · obtain ⟨c, hc, hle⟩ := h.upTo r hr
      exact (hle.trans_lt (hpage.later _ (List.getLast_mem hne) c hc)).le
    · exact le_getLast hpage.sorted hne r hr
  sound := h.sound_append hpage
  complete k hthere hbefore := by
    rcases h.cases hpage hthere with hfound | ⟨-, hpast⟩
    · exact hfound
    · obtain ⟨c, hc, hle⟩ := hbefore
      obtain rfl := Option.some.inj hc
      exact absurd (hpast _ (List.getLast_mem hne)) hle.not_gt

/-- **After a short page** every key that was there at every page has been read. -/
theorem Scanned.finish (h : Scanned key rows n after results)
    (hpage : IsPage key (rows n) after limit batch) (hshort : batch.length < limit) {k : κ}
    (hthere : ∀ m < n + 1, ∃ r ∈ rows m, key r = k) : ∃ r ∈ results ++ batch, key r = k :=
  (h.cases hpage hthere).resolve_right fun hfull => hshort.ne hfull.1

/-- The keys of a list that lie past a cursor. -/
def past (keys : List κ) (after : Option κ) : ℕ :=
  keys.countP fun k => after.all fun c => decide (c < k)

theorem past_lt {keys : List κ} {k : κ} (hk : k ∈ keys) (hlater : ∀ c ∈ after, c < k) :
    past keys (some k) < past keys after := by
  induction keys with
  | nil => cases hk
  | cons x keys ih =>
      have hmono : ∀ l : List κ, past l (some k) ≤ past l after := by
        intro l
        refine List.countP_mono_left fun y _ hy => ?_
        cases after with
        | none => rfl
        | some c => exact decide_eq_true ((hlater c rfl).trans (of_decide_eq_true hy))
      rw [past, past, List.countP_cons, List.countP_cons]
      rcases List.mem_cons.1 hk with rfl | hk
      · have hrest := hmono keys
        have hself : (Option.all (fun c => decide (c < k)) (some k)) = false := by simp
        have hold : (after.all fun c => decide (c < k)) = true := by
          cases after with
          | none => rfl
          | some c => exact decide_eq_true (hlater c rfl)
        rw [hself, hold]
        simp only [past] at hrest
        simp only [Bool.false_eq_true, if_false, if_true]
        omega
      · have hrest := ih hk
        have hself := hmono [x]
        simp only [past, List.countP_singleton] at hrest hself
        omega

end Scan

end Paging
