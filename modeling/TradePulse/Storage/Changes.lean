/-
**Changes of single rows.**

A transaction that derives rows anew compares them with the rows that are stored and writes the
differences: a row that is derived no longer is deleted, one that is derived for the first time is
inserted, and the others are replaced.

Main definitions:

* `Change` — the row under an identifier, before and after;
* `Table.change`, `Table.changeAll` — one change of a table, and several one after the other;
* `Change.Fits` — the row before is the one that is stored.

Main results:

* `Table.mem_change`, `Table.mem_changeAll` — **what a table holds after its changes**.
-/

import TradePulse.Storage.Table

set_option autoImplicit false

namespace Storage

variable {α ε : Type} [Record α]

/-- The row under an identifier, before and after. -/
structure Change (α : Type) where
  id : String
  old : Option α
  new : Option α

namespace Change

/-- The rows of a change are those of its identifier, and the one before is the stored one.  Where a
row is to be inserted, the insertion finds out whether there is one. -/
structure Fits (c : Change α) (t : Table α) : Prop where
  stored : c.old.isSome ∨ c.new = none → t.get? c.id = c.old
  named : ∀ r ∈ c.new, Record.recordId r = c.id
  kept : ∀ r ∈ c.new, ∀ a ∈ c.old, Record.uniqueValue a = Record.uniqueValue r

end Change

namespace Table

/-- `INSERT`, where the keys are free. -/
def insert? (taken : ε) (t : Table α) (r : α) : Except ε (Table α) :=
  if t.Admits r then .ok (t.createOnce r) else .error taken

/-- One change of a table. -/
def change (taken : ε) (t : Table α) (c : Change α) : Except ε (Table α) :=
  match c.old, c.new with
  | none, none => .ok t
  | some _, none => .ok (t.delete c.id)
  | none, some r => t.insert? taken r
  | some _, some r => .ok (t.put r)

/-- Several changes, one after the other. -/
def changeAll (taken : ε) (t : Table α) (cs : List (Change α)) : Except ε (Table α) :=
  cs.foldlM (change taken) t

variable {taken : ε} {t u : Table α} {c : Change α} {cs : List (Change α)}

theorem insert?_eq_ok_iff {r : α} :
    t.insert? taken r = .ok u ↔ t.Admits r ∧ t.createOnce r = u := by
  unfold insert?
  split <;> simp_all

/-- What a table holds after a change: the row after it, and what stood under other
identifiers. -/
theorem mem_change (hfits : c.Fits t) (h : t.change taken c = .ok u) {a : α} :
    a ∈ u ↔ c.new = some a ∨ (a ∈ t ∧ Record.recordId a ≠ c.id) := by
  obtain ⟨id, old, new⟩ := c
  cases old with
  | none =>
      cases new with
      | none =>
          have hother : ∀ b ∈ t, Record.recordId b ≠ id :=
            Table.get?_eq_none_iff.1 (hfits.stored (.inr rfl))
          cases h
          simp only [reduceCtorEq, false_or]
          exact ⟨fun ha => ⟨ha, hother a ha⟩, fun ha => ha.1⟩
      | some r =>
          obtain ⟨hadmits, rfl⟩ := insert?_eq_ok_iff.1 h
          have hname : Record.recordId r = id := hfits.named r rfl
          rw [mem_createOnce]
          simp only [Option.some.injEq]
          constructor
          · rintro (ha | ⟨-, rfl⟩)
            · exact .inr ⟨ha, fun heq => (hadmits a ha).1 (heq.trans hname.symm)⟩
            · exact .inl rfl
          · rintro (rfl | ⟨ha, -⟩)
            · exact .inr ⟨hadmits, rfl⟩
            · exact .inl ha
  | some b =>
      have hstored : t.get? id = some b := hfits.stored (.inl rfl)
      obtain ⟨hb, hid⟩ := Table.get?_eq_some_iff.1 hstored
      cases new with
      | none =>
          cases h
          simp only [reduceCtorEq, false_or]
          exact mem_delete
      | some r =>
          cases h
          have hname : Record.recordId r = id := hfits.named r rfl
          have hkeys : SameKeys b r := ⟨hid.trans hname.symm, hfits.kept r rfl b rfl⟩
          rw [mem_put hb hkeys]
          simp only [Option.some.injEq]
          constructor
          · rintro (rfl | ⟨ha, hne⟩)
            · exact .inl rfl
            · exact .inr ⟨ha, fun heq => hne (eq_of_recordId ha hb (heq.trans hid.symm))⟩
          · rintro (rfl | ⟨ha, hne⟩)
            · exact .inl rfl
            · exact .inr ⟨ha, fun heq => hne (heq ▸ hid)⟩

theorem get?_change (hfits : c.Fits t) (h : t.change taken c = .ok u) {id : String}
    (hid : id ≠ c.id) : u.get? id = t.get? id := by
  refine Option.ext fun a => ?_
  rw [get?_eq_some_iff, get?_eq_some_iff, mem_change hfits h]
  constructor
  · rintro ⟨hnew | ha, rfl⟩
    · exact absurd (hfits.named a hnew) hid
    · exact ⟨ha.1, rfl⟩
  · rintro ⟨ha, rfl⟩
    exact ⟨.inr ⟨ha, hid⟩, rfl⟩

/-- A change still fits after a change of another identifier. -/
theorem fits_change {d : Change α} (hd : d.Fits t) (hfits : c.Fits t)
    (h : t.change taken c = .ok u) (hne : d.id ≠ c.id) : d.Fits u where
  stored hold := (get?_change hfits h hne).trans (hd.stored hold)
  named := hd.named
  kept := hd.kept

/-- **What a table holds after its changes**: the rows after them, and what stood under other
identifiers. -/
theorem mem_changeAll (hfits : ∀ c ∈ cs, c.Fits t) (hids : (cs.map (·.id)).Nodup)
    (h : t.changeAll taken cs = .ok u) {a : α} :
    a ∈ u ↔ (∃ c ∈ cs, c.new = some a) ∨ (a ∈ t ∧ Record.recordId a ∉ cs.map (·.id)) := by
  induction cs generalizing t with
  | nil =>
      cases h
      simp
  | cons c cs ih =>
      rw [changeAll, List.foldlM_cons] at h
      obtain ⟨hnotin, hrest⟩ := List.nodup_cons.1 hids
      have hc : c.Fits t := hfits c List.mem_cons_self
      cases hstep : t.change taken c with
      | error e =>
          rw [hstep] at h
          cases h
      | ok v =>
          rw [hstep] at h
          have hfits' : ∀ d ∈ cs, d.Fits v := by
            intro d hd
            refine fits_change (hfits d (List.mem_cons_of_mem c hd)) hc hstep ?_
            intro heq
            exact hnotin (List.mem_map.2 ⟨d, hd, heq⟩)
          rw [ih hfits' hrest h, mem_change hc hstep]
          simp only [List.map_cons, List.mem_cons, not_or, exists_eq_or_imp]
          constructor
          · rintro (hd | ⟨hnew | ⟨ha, hne⟩, hother⟩)
            · exact .inl (.inr hd)
            · exact .inl (.inl hnew)
            · exact .inr ⟨ha, hne, hother⟩
          · rintro ((hnew | hd) | ⟨ha, hne, hother⟩)
            · refine .inr ⟨.inl hnew, ?_⟩
              rw [hc.named a hnew]
              exact hnotin
            · exact .inl hd
            · exact .inr ⟨.inr ⟨ha, hne⟩, hother⟩

end Table

end Storage
