/-
**Numbered rows of a shared table.**

Writers that share a table append rows whose keys are a common text followed by a number of a fixed
width.  Each reads the row with the greatest such key and inserts the next number, unless somebody
else has inserted it in the meantime.  The keys are texts, and texts are compared as texts; that the
greatest key carries the greatest number is due to the width.

Nothing holds a lock between the read and the insertion.  What a writer knows when it inserts is
only that the row it read was there, and this is enough: the numbers have no gap, and each row
follows the one before it.

Main definitions:

* `numbered`, `numberOf` — the key with a number, and the number of a key;
* `lastByIdPrefix` — the row with the greatest key that starts with a text;
* `Unbroken` — the rows are numbered from 1 on without a gap, each linked to the one before it.

Main results:

* `isPrefix_of_idRange` — the keys of the range are those that start with the text;
* `Unbroken.last` — the row read is the one with the greatest number;
* `Unbroken.createOnce` — inserting the number after **any** row of the table keeps the rows
  unbroken, whether the number is still free or not;
* `Unbroken.other` — other rows do not matter.
-/

import Mathlib.Data.String.Basic
import TradePulse.Encoding.IsoOrder
import TradePulse.Storage.Journal
import TradePulse.Storage.Table

set_option autoImplicit false

namespace Storage

open Encoding Record

/-! ### Keys -/

/-- A text, and a number of a fixed width. -/
def numbered (pre : String) (width n : ℕ) : String := pre ++ String.ofList (pad width n)

/-- The first text after all that start with the text. -/
def idUpper (pre : String) : String :=
  String.ofList (pre.toList.dropLast ++
    (pre.toList.getLast?.map fun c => Char.ofNat (c.toNat + 1)).toList)

/-- `int(record_id.removeprefix(prefix))`, where the rest is made of digits. -/
def numberOf (pre id : String) : Option ℕ :=
  let rest := if pre.toList.isPrefixOf id.toList then id.toList.drop pre.toList.length else id.toList
  if rest ≠ [] ∧ rest.all Char.isDigit then some (Nat.ofDigitChars 10 rest 0) else none

theorem numberOf_numbered {pre : String} {width n : ℕ} (hwidth : 0 < width) (hn : n < 10 ^ width) :
    numberOf pre (numbered pre width n) = some n := by
  have hprefix : pre.toList.isPrefixOf (pre.toList ++ pad width n) = true :=
    List.isPrefixOf_iff_prefix.2 (List.prefix_append _ _)
  have hne : pad width n ≠ [] := by
    intro hnil
    have hlen := length_pad hwidth hn
    rw [hnil, List.length_nil] at hlen
    omega
  have hdigits : (pad width n).all Char.isDigit = true := List.all_eq_true.2 (allDigits_pad width n)
  simp only [numberOf, numbered, String.toList_append, String.toList_ofList, hprefix, if_true,
    List.drop_left]
  rw [if_pos ⟨hne, hdigits⟩, ofDigitChars_pad]

/-- `record_id >= prefix AND record_id < upper`. -/
def idRange (pre id : String) : Bool := pre ≤ id ∧ id < idUpper pre

/-- Texts between a text and the one with the next last letter start with the text. -/
theorem isPrefix_of_between {p l : List Char} {c d : Char} (hnext : d.toNat = c.toNat + 1)
    (hle : p ++ [c] ≤ l) (hlt : l < p ++ [d]) : p ++ [c] <+: l := by
  induction p generalizing l with
  | nil =>
      cases l with
      | nil => exact absurd hle (by simp)
      | cons x l =>
          rcases List.cons_lt_cons_iff.1 hlt with hx | ⟨rfl, htail⟩
          · rcases lt_or_eq_of_le hle with hlt' | heq
            · rcases List.cons_lt_cons_iff.1 hlt' with hcx | ⟨rfl, -⟩
              · -- no letter stands between a letter and the next
                have hx' : x.toNat < d.toNat := hx
                have hcx' : c.toNat < x.toNat := hcx
                omega
              · exact ⟨l, rfl⟩
            · exact ⟨[], by simpa using heq⟩
          · exact absurd htail (List.not_lt_nil l)
  | cons y p ih =>
      cases l with
      | nil => exact absurd hle (by simp)
      | cons x l =>
          rcases List.cons_lt_cons_iff.1 hlt with hx | ⟨rfl, htail⟩
          · rcases lt_or_eq_of_le hle with hlt' | heq
            · rcases List.cons_lt_cons_iff.1 hlt' with hyx | ⟨rfl, -⟩
              · exact absurd (lt_trans hyx hx) (lt_irrefl y)
              · exact absurd hx (lt_irrefl y)
            · exact heq ▸ List.prefix_rfl
          · have hle' : p ++ [c] ≤ l := by
              rcases lt_or_eq_of_le hle with hlt' | heq
              · rcases List.cons_lt_cons_iff.1 hlt' with hxx | ⟨-, h⟩
                · exact absurd hxx (lt_irrefl x)
                · exact h.le
              · exact le_of_eq (List.cons.inj heq).2
            exact List.cons_prefix_cons.2 ⟨rfl, ih hle' htail⟩

/-- The text ends with a letter that has a next one. -/
structure Bounded (pre : String) (init : List Char) (c : Char) : Prop where
  ends : pre.toList = init ++ [c]
  small : c.toNat + 1 < 0xd800

section Range

variable {pre id : String} {init : List Char} {c : Char}

theorem Bounded.next (h : Bounded pre init c) :
    (Char.ofNat (c.toNat + 1)).toNat = c.toNat + 1 := by
  have hvalid : (c.toNat + 1).isValidChar := .inl h.small
  rw [Char.ofNat, dif_pos hvalid]
  rfl

theorem Bounded.toList_idUpper (h : Bounded pre init c) :
    (idUpper pre).toList = init ++ [Char.ofNat (c.toNat + 1)] := by
  simp [idUpper, h.ends]

/-- **The keys of the range start with the text.** -/
theorem Bounded.isPrefix (h : Bounded pre init c) (hid : idRange pre id = true) :
    pre.toList <+: id.toList := by
  simp only [idRange, decide_eq_true_eq] at hid
  obtain ⟨hle, hlt⟩ := hid
  have hle' : pre.toList ≤ id.toList := by
    refine not_lt.1 fun hgt => ?_
    have hgt' : id < pre := hgt
    exact absurd hle (not_le.2 hgt')
  have hlt' : id.toList < (idUpper pre).toList := hlt
  rw [h.toList_idUpper] at hlt'
  rw [h.ends] at hle' ⊢
  exact isPrefix_of_between h.next hle' hlt'

/-- What starts with the text is in the range. -/
theorem Bounded.idRange_append (h : Bounded pre init c) (rest : String) :
    idRange pre (pre ++ rest) = true := by
  simp only [idRange, decide_eq_true_eq]
  constructor
  · refine not_lt.1 fun hlt => ?_
    have hlt' : pre.toList ++ rest.toList < pre.toList := by
      have hl : (pre ++ rest).toList < pre.toList := hlt
      rwa [String.toList_append] at hl
    have hpre : pre.toList <+: pre.toList ++ rest.toList := List.prefix_append _ _
    exact absurd hlt' (List.not_lt.2 hpre.le)
  · have hlt : (pre ++ rest).toList < (idUpper pre).toList := by
      rw [h.toList_idUpper, String.toList_append, h.ends, List.append_assoc]
      refine List.append_left_lt (List.cons_lt_cons_iff.2 (.inl ?_))
      have hnext := h.next
      change c.toNat < (Char.ofNat (c.toNat + 1)).toNat
      omega
    exact hlt

end Range

/-! ### Rows -/

section Rows

variable {α : Type} [Record α] {pre : String} {width m n count : ℕ}

theorem numbered_lt_iff (hwidth : 0 < width) (hm : m < 10 ^ width) (hn : n < 10 ^ width) :
    numbered pre width m < numbered pre width n ↔ m < n := by
  have hchars : numbered pre width m < numbered pre width n ↔
      (numbered pre width m).toList < (numbered pre width n).toList := Iff.rfl
  rw [hchars, numbered, numbered, String.toList_append, String.toList_append,
    String.toList_ofList, String.toList_ofList, append_lt_append_iff rfl]
  simp only [lt_irrefl, false_or, true_and]
  exact pad_lt_iff hwidth hm hn

theorem numbered_inj (hwidth : 0 < width) (hm : m < 10 ^ width) (hn : n < 10 ^ width)
    (h : numbered pre width m = numbered pre width n) : m = n := by
  rcases lt_trichotomy m n with hlt | heq | hgt
  · exact absurd h (ne_of_lt ((numbered_lt_iff hwidth hm hn).2 hlt))
  · exact heq
  · exact absurd h.symm (ne_of_lt ((numbered_lt_iff hwidth hn hm).2 hgt))

/-- `ORDER BY record_id DESC LIMIT 1`, of the rows whose keys start with a text. -/
def lastByIdPrefix (t : Table α) (pre : String) : Option α :=
  latest (fun a => idRange pre (recordId a)) (byStamp recordId t.rows)

/-- The row before the next one, where so many are there. -/
def before (pre : String) (width : ℕ) (t : Table α) (n : ℕ) : Option α :=
  if n = 0 then none else t.get? (numbered pre width n)

/-- The rows whose keys start with a text are numbered from 1 on without a gap, and each of them
is linked to the one before it. -/
structure Unbroken (link : Option α → α → Prop) (pre : String) (width : ℕ) (t : Table α)
    (count : ℕ) : Prop where
  small : count < 10 ^ width
  linked : ∀ n, n < count →
    ∃ a, t.get? (numbered pre width (n + 1)) = some a ∧ link (before pre width t n) a
  only : ∀ a ∈ t, idRange pre (recordId a) = true →
    ∃ n, n < count ∧ recordId a = numbered pre width (n + 1)

namespace Unbroken

variable {link link' : Option α → α → Prop} {t : Table α} {r : α} {init : List Char} {c : Char}

theorem mono (h : Unbroken link pre width t count) (hle : ∀ p a, link p a → link' p a) :
    Unbroken link' pre width t count where
  small := h.small
  linked n hn := by
    obtain ⟨a, ha, hlink⟩ := h.linked n hn
    exact ⟨a, ha, hle _ a hlink⟩
  only := h.only

theorem none (h : ∀ a ∈ t, idRange pre (recordId a) = false) : Unbroken link pre width t 0 where
  small := Nat.pos_of_ne_zero (by simp)
  linked n hn := absurd hn (Nat.not_lt_zero n)
  only a ha hid := by
    rw [h a ha] at hid
    cases hid

/-- **The row with the greatest key is the one with the greatest number.** -/
theorem last (h : Unbroken link pre width t count) (hwidth : 0 < width)
    (hpre : Bounded pre init c) : lastByIdPrefix t pre = before pre width t count := by
  unfold before
  split
  · rename_i hzero
    refine latest_eq_none_iff.2 fun a ha => ?_
    by_contra hid
    obtain ⟨n, hn, -⟩ := h.only a (mem_byStamp.1 ha) (by simpa using hid)
    omega
  · rename_i hpos
    obtain ⟨a, ha, -⟩ := h.linked (count - 1) (by omega)
    have hnumber : count - 1 + 1 = count := by omega
    rw [hnumber] at ha
    obtain ⟨hmem, hid⟩ := Table.get?_eq_some_iff.1 ha
    have hrange : idRange pre (recordId a) = true := by
      rw [hid]
      exact hpre.idRange_append _
    cases hlast : lastByIdPrefix t pre with
    | none =>
        have hnone := latest_eq_none_iff.1 hlast a (mem_byStamp.2 hmem)
        rw [hrange] at hnone
        cases hnone
    | some x =>
        obtain ⟨hx, hxrange⟩ := mem_of_latest hlast
        obtain ⟨n, hn, hxid⟩ := h.only x (mem_byStamp.1 hx) hxrange
        have hle := le_of_latest_byStamp hlast hmem hrange
        rw [hid, hxid] at hle
        -- a smaller number would be a smaller key
        have hcount : count = n + 1 := by
          by_contra hne
          have hsmall := h.small
          exact absurd hle (not_le.2 ((numbered_lt_iff hwidth (by omega) (by omega)).2 (by omega)))
        rw [hcount, ← hxid]
        exact (Table.get?_eq_some_iff.2 ⟨mem_byStamp.1 hx, rfl⟩).symm

theorem le_count (h : Unbroken link pre width t count) (hwidth : 0 < width)
    (hpre : Bounded pre init c) (hm : m < 10 ^ width)
    (hread : (t.get? (numbered pre width m)).isSome = true) : m ≤ count := by
  obtain ⟨a, ha⟩ := Option.isSome_iff_exists.1 hread
  obtain ⟨hmem, hid⟩ := Table.get?_eq_some_iff.1 ha
  have hrange : idRange pre (recordId a) = true := by
    rw [hid]
    exact hpre.idRange_append _
  obtain ⟨n, hn, hnid⟩ := h.only a hmem hrange
  have hsmall := h.small
  have heq : m = n + 1 := numbered_inj hwidth hm (by omega) (hid.symm.trans hnid)
  omega

theorem before_createOnce (hwidth : 0 < width) (hr : recordId r = numbered pre width (m + 1))
    (hm : m + 1 < 10 ^ width) (hn : n ≤ m) :
    before pre width (t.createOnce r) n = before pre width t n := by
  unfold before
  split
  · rfl
  · refine Table.get?_createOnce_of_ne fun heq => ?_
    rw [hr] at heq
    have := numbered_inj hwidth (by omega) hm heq
    omega

/-- **A row after any row.**  Whoever inserts the number after a row that was there, linked to that
row, keeps the rows unbroken. -/
theorem createOnce (h : Unbroken link pre width t count) (hwidth : 0 < width)
    (hpre : Bounded pre init c) (hunique : ∀ a : α, uniqueValue a = Option.none)
    (hr : recordId r = numbered pre width (m + 1)) (hm : m + 1 < 10 ^ width)
    (hread : m = 0 ∨ (t.get? (numbered pre width m)).isSome = true)
    (hlink : link (before pre width t m) r) :
    ∃ count', count ≤ count' ∧ Unbroken link pre width (t.createOnce r) count' := by
  have hsmall := h.small
  have hle : m ≤ count := by
    rcases hread with rfl | hread
    · exact Nat.zero_le count
    · exact h.le_count hwidth hpre (by omega) hread
  by_cases hlt : m < count
  · -- the number is taken
    obtain ⟨a, ha, -⟩ := h.linked m hlt
    obtain ⟨hmem, hid⟩ := Table.get?_eq_some_iff.1 ha
    have htaken : ¬ t.Admits r := fun hadmits => (hadmits a hmem).1 (hid.trans hr.symm)
    rw [Table.createOnce_of_not_admits htaken]
    exact ⟨count, le_rfl, h⟩
  · obtain rfl : m = count := by omega
    have hrange : idRange pre (recordId r) = true := by
      rw [hr]
      exact hpre.idRange_append _
    have hfree : t.Admits r := by
      intro a ha
      refine ⟨fun heq => ?_, .inl (hunique a)⟩
      obtain ⟨n, hn, hnid⟩ := h.only a ha (heq ▸ hrange)
      have := numbered_inj hwidth hm (by omega) (hr.symm.trans (heq.symm.trans hnid))
      omega
    refine ⟨m + 1, by omega, hm, fun n hn => ?_, fun a ha hid => ?_⟩
    · rw [before_createOnce hwidth hr hm (by omega)]
      by_cases hlast : n = m
      · subst hlast
        exact ⟨r, by rw [← hr]; exact Table.get?_createOnce_self hfree, hlink⟩
      · obtain ⟨a, ha, halink⟩ := h.linked n (by omega)
        refine ⟨a, ?_, halink⟩
        rw [Table.get?_createOnce_of_ne fun heq => ?_]
        · exact ha
        · rw [hr] at heq
          have := numbered_inj hwidth (by omega) hm heq
          omega
    · rcases Table.mem_createOnce.1 ha with ha | ⟨-, rfl⟩
      · obtain ⟨n, hn, hnid⟩ := h.only a ha hid
        exact ⟨n, by omega, hnid⟩
      · exact ⟨m, by omega, hr⟩

/-- **Other rows** do not matter. -/
theorem other (h : Unbroken link pre width t count) (hpre : Bounded pre init c)
    (hr : idRange pre (recordId r) = false) : Unbroken link pre width (t.createOnce r) count := by
  have hget : ∀ n, (t.createOnce r).get? (numbered pre width n) =
      t.get? (numbered pre width n) := by
    refine fun n => Table.get?_createOnce_of_ne fun heq => ?_
    rw [← heq, numbered, hpre.idRange_append] at hr
    cases hr
  refine ⟨h.small, fun n hn => ?_, fun a ha hid => ?_⟩
  · obtain ⟨a, ha, hlink⟩ := h.linked n hn
    refine ⟨a, (hget _).trans ha, ?_⟩
    unfold before at hlink ⊢
    rwa [hget]
  · rcases Table.mem_createOnce.1 ha with ha | ⟨-, rfl⟩
    · exact h.only a ha hid
    · rw [hr] at hid
      cases hid

end Unbroken

end Rows

end Storage
