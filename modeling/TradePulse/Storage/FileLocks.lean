/-
**Files that are locked while they are open.**

A directory maps paths to files, a process opens a file by its path, and an open file can carry an
exclusive advisory lock.  The lock belongs to the open file and not to the path: whoever deletes or
replaces the entry of a path leaves the files that are open, and their locks, as they were.  A lock
is gone when it is given back or when the open file that holds it is closed, and a process that ends
closes all of its files.

Files are known by their numbers only.  Nothing here needs the number of a new file to be one that
nobody uses.

Main definitions:

* `Files` — the entries, the open files and the locks;
* `Files.openOrCreate`, `Files.tryLock`, `Files.unlock`, `Files.closeAll`, `Files.sameFile` — the
  system calls;
* `Files.Locked` — an open file holds the lock of its file.

Main results:

* `Files.Coherent.openOrCreate`, `Files.Coherent.tryLock`, … — a lock always belongs to an open
  file;
* `Files.Locked.unique` — of two open files that hold locks and both still are the file at one
  path, there is only one;
* `Files.Keeps` — what one open file does leaves the other open files, and their locks, alone.
-/

import Mathlib.Logic.Function.Basic

set_option autoImplicit false
set_option linter.unusedSectionVars false

namespace Storage

universe u v w

/-- A directory with open files: what each path names, what each open file is, and which open file
holds the lock of a file. -/
structure Files (P : Type u) (I : Type v) (D : Type w) where
  entry : P → Option I
  opened : D → Option I
  holder : I → Option D

namespace Files

variable {P : Type u} {I : Type v} {D : Type w} [DecidableEq P] [DecidableEq I] [DecidableEq D]

/-- `open(p, O_CREAT)`: the file at the path, or a new one with the number `fresh`. -/
def openOrCreate (f : Files P I D) (d : D) (p : P) (fresh : I) : Files P I D :=
  match f.entry p with
  | some i => { f with opened := Function.update f.opened d (some i) }
  | none =>
      { f with
        entry := Function.update f.entry p (some fresh)
        opened := Function.update f.opened d (some fresh) }

/-- `flock(d, LOCK_EX | LOCK_NB)`; `none` when the lock is another's. -/
def tryLock (f : Files P I D) (d : D) : Option (Files P I D) :=
  match f.opened d with
  | none => none
  | some i =>
      if f.holder i = none ∨ f.holder i = some d then
        some { f with holder := Function.update f.holder i (some d) }
      else none

/-- `flock(d, LOCK_UN)`. -/
def unlock (f : Files P I D) (d : D) : Files P I D :=
  { f with holder := fun i => if f.holder i = some d then none else f.holder i }

/-- Closing every open file of a set, with its locks. -/
def closeAll (f : Files P I D) (ds : D → Bool) : Files P I D :=
  { f with
    opened := fun d => if ds d then none else f.opened d
    holder := fun i => if (f.holder i).any ds then none else f.holder i }

/-- `close(d)`. -/
def close (f : Files P I D) (d : D) : Files P I D := f.closeAll fun e => e == d

/-- The entry of a path is made to name another file, or removed. -/
def setEntry (f : Files P I D) (p : P) (e : Option I) : Files P I D :=
  { f with entry := Function.update f.entry p e }

/-- `fstat(d)` and `stat(p)` name one file. -/
def sameFile (f : Files P I D) (d : D) (p : P) : Bool :=
  (f.opened d).any fun i => f.entry p == some i

/-- An open file holds the lock of its file. -/
def Locked (f : Files P I D) (d : D) : Prop := ∃ i, f.opened d = some i ∧ f.holder i = some d

/-- Every lock belongs to an open file of the file it locks. -/
def Coherent (f : Files P I D) : Prop := ∀ i d, f.holder i = some d → f.opened d = some i

theorem sameFile_iff {f : Files P I D} {d : D} {p : P} :
    f.sameFile d p = true ↔ ∃ i, f.opened d = some i ∧ f.entry p = some i := by
  simp [sameFile, Option.any_eq_true]

/-- **Two open files that hold locks and are both the file at one path are one open file.** -/
theorem Locked.unique {f : Files P I D} {d e : D} {p : P} (hd : f.Locked d) (he : f.Locked e)
    (hdp : f.sameFile d p = true) (hep : f.sameFile e p = true) : d = e := by
  obtain ⟨i, hi, hid⟩ := hd
  obtain ⟨j, hj, hje⟩ := he
  obtain ⟨i', hi', hip⟩ := sameFile_iff.1 hdp
  obtain ⟨j', hj', hjp⟩ := sameFile_iff.1 hep
  have hii : i = i' := Option.some.inj (hi.symm.trans hi')
  have hjj : j = j' := Option.some.inj (hj.symm.trans hj')
  have hij : i' = j' := Option.some.inj (hip.symm.trans hjp)
  subst hii hjj hij
  exact Option.some.inj (hid.symm.trans hje)

/-! ### What each call leaves -/

variable {f f' : Files P I D} {d e : D} {p q : P} {fresh i : I}

theorem openOrCreate_opened : ∃ i, (f.openOrCreate d p fresh).opened d = some i ∧
    (f.openOrCreate d p fresh).entry p = some i := by
  unfold openOrCreate
  cases h : f.entry p with
  | some i => exact ⟨i, by simp [h]⟩
  | none => exact ⟨fresh, by simp⟩

@[simp] theorem openOrCreate_holder : (f.openOrCreate d p fresh).holder = f.holder := by
  unfold openOrCreate
  cases f.entry p <;> rfl

theorem openOrCreate_opened_of_ne (h : e ≠ d) :
    (f.openOrCreate d p fresh).opened e = f.opened e := by
  unfold openOrCreate
  cases f.entry p <;> simp [h]

theorem openOrCreate_entry_of_some (h : f.entry q = some i) :
    (f.openOrCreate d p fresh).entry q = some i := by
  unfold openOrCreate
  cases hp : f.entry p with
  | some j => exact h
  | none =>
      have hne : q ≠ p := by
        intro hqp
        rw [hqp, hp] at h
        cases h
      simpa [hne] using h

theorem tryLock_eq_some (h : f.tryLock d = some f') : ∃ i, f.opened d = some i ∧
    (f.holder i = none ∨ f.holder i = some d) ∧
    f' = { f with holder := Function.update f.holder i (some d) } := by
  unfold tryLock at h
  split at h
  · cases h
  · rename_i i hi
    split at h
    · rename_i hfree
      exact ⟨i, hi, hfree, (Option.some.inj h).symm⟩
    · cases h

namespace Coherent

theorem openOrCreate (h : f.Coherent) (hd : f.opened d = none) :
    (f.openOrCreate d p fresh).Coherent := by
  intro i e he
  rw [openOrCreate_holder] at he
  have hopen := h i e he
  have hne : e ≠ d := by
    intro hed
    rw [hed, hd] at hopen
    cases hopen
  rw [openOrCreate_opened_of_ne hne]
  exact hopen

theorem tryLock (h : f.Coherent) (hlock : f.tryLock d = some f') : f'.Coherent := by
  obtain ⟨i, hi, -, rfl⟩ := tryLock_eq_some hlock
  intro j e he
  rcases eq_or_ne j i with rfl | hne
  · simp only [Function.update_self, Option.some.injEq] at he
    exact he ▸ hi
  · exact h j e (by simpa [hne] using he)

theorem unlock (h : f.Coherent) : (f.unlock d).Coherent := by
  intro i e he
  simp only [Files.unlock] at he
  split at he
  · cases he
  · exact h i e he

theorem closeAll (h : f.Coherent) {ds : D → Bool} : (f.closeAll ds).Coherent := by
  intro i e he
  simp only [Files.closeAll] at he ⊢
  split at he
  · cases he
  · rename_i hkeep
    have hds : ds e = false := by simpa [he] using hkeep
    simpa [hds] using h i e he

theorem setEntry (h : f.Coherent) {o : Option I} : (f.setEntry p o).Coherent := h

end Coherent

/-! ### What each call leaves to the other open files -/

/-- A call of one open file leaves the others open as they were, with their locks. -/
def Keeps (d : D) (f f' : Files P I D) : Prop :=
  ∀ e, e ≠ d → f'.opened e = f.opened e ∧ (f.Locked e → f'.Locked e)

theorem Keeps.refl (f : Files P I D) (d : D) : Keeps d f f := fun _ _ => ⟨rfl, id⟩

theorem keeps_openOrCreate : Keeps d f (f.openOrCreate d p fresh) := by
  intro e hne
  refine ⟨openOrCreate_opened_of_ne hne, ?_⟩
  rintro ⟨i, hi, he⟩
  exact ⟨i, by rw [openOrCreate_opened_of_ne hne, hi], by rw [openOrCreate_holder, he]⟩

theorem locked_of_tryLock (hlock : f.tryLock d = some f') : f'.Locked d := by
  obtain ⟨i, hi, -, rfl⟩ := tryLock_eq_some hlock
  exact ⟨i, hi, by simp⟩

theorem keeps_tryLock (hlock : f.tryLock d = some f') : Keeps d f f' := by
  obtain ⟨i, hi, hfree, rfl⟩ := tryLock_eq_some hlock
  intro e hne
  refine ⟨rfl, ?_⟩
  rintro ⟨j, hj, hje⟩
  have hji : j ≠ i := by
    intro h
    rw [h] at hje
    rcases hfree with hnone | hsome
    · rw [hnone] at hje
      cases hje
    · exact hne (Option.some.inj (hje.symm.trans hsome))
  exact ⟨j, hj, by simpa [hji] using hje⟩

theorem keeps_unlock : Keeps d f (f.unlock d) := by
  intro e hne
  refine ⟨rfl, ?_⟩
  rintro ⟨i, hi, he⟩
  exact ⟨i, hi, by simp [unlock, he, hne]⟩

/-- Closing files leaves the locks of the others. -/
theorem Locked.closeAll {ds : D → Bool} (h : f.Locked e) (hds : ds e = false) :
    (f.closeAll ds).Locked e := by
  obtain ⟨i, hi, he⟩ := h
  refine ⟨i, ?_, ?_⟩
  · simp [Files.closeAll, hds, hi]
  · simp [Files.closeAll, hds, he]

theorem keeps_close : Keeps d f (f.close d) := by
  intro e hne
  have hds : (e == d) = false := by simpa using hne
  exact ⟨by simp [close, Files.closeAll, hne], fun h => h.closeAll hds⟩

@[simp] theorem close_opened_self : (f.close d).opened d = none := by
  simp [close, closeAll]

theorem opened_of_closeAll {ds : D → Bool} (h : (f.closeAll ds).opened d = some i) :
    f.opened d = some i := by
  simp only [closeAll] at h
  split at h
  · cases h
  · exact h

end Files

end Storage
