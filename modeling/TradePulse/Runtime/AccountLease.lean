/-
**The account lease** (`runtime_lease.py`, `AccountRef` of `broker/port.py`).

A command that can place orders holds the lease of its account for as long as it runs: an exclusive
`flock` on a file that is named after the account.  The lock belongs to the open file, so whoever
deletes or replaces the file lets a second process lock another file under the same name.  This is
why the lease is verified again before every submission, by comparing the open file with the one
that the path names now.

Each call of `account_lease` runs one system call at a time.  Between any two of them other calls
run, processes end, and anybody deletes the file or puts another in its place.

Main definitions:

* `AccountRef`, `leasePath` — an account and the file of its lease;
* `LeaseWorld.step` — the system calls of `account_lease`, the ends of processes, and the meddling
  of others with the files;
* `LeaseWorld.verify` — `AccountLease.verify`;
* `LeaseWorld.inUse` — `account_lease_in_use`.

Main results:

* `LeaseWorld.step_cases` — what an action does;
* `Leasing.step` — what is open and locked in each phase of a call;
* `leases_verify_one` — whatever happens to the files, two leases of one account never verify at
  one moment;
* `undisturbed_lease_exclusive` — while nobody touches the file, one call at most is past the lock,
  its lease verifies, no call gives up, and the probe sees the holder.
-/

import TradePulse.Models.Market
import TradePulse.Process.Machine
import TradePulse.Storage.FileLocks

set_option autoImplicit false

namespace TradePulse

namespace Runtime

open Process Storage

/-! ### Accounts and their files -/

/-- `VENUES`. -/
def venues : List String := ["alpaca", "ibkr"]

/-- A character that `_REF_PART` accepts. -/
def refChar (c : Char) : Bool := c.isAlphanum || c == '_' || c == '-'

/-- `_REF_PART.fullmatch`. -/
def refPart (text : String) : Bool :=
  1 ≤ text.toList.length && text.toList.length ≤ 64 && text.toList.all refChar

/-- An account at a venue; both parts have passed `__post_init__`. -/
structure AccountRef where
  venue : String
  accountNumber : String
  venue_known : venue ∈ venues
  number_valid : refPart accountNumber = true

/-- `AccountRef.key`. -/
def AccountRef.key (ref : AccountRef) : String := ref.venue ++ ":" ++ ref.accountNumber

/-- `lease_path`. -/
def leasePath (ref : AccountRef) (directory : String) : String :=
  directory ++ "/" ++ ref.venue ++ "-" ++ ref.accountNumber ++ ".lock"

/-- What a holder writes into the file of its lease. -/
structure HolderRecord where
  holder : String
  pid : ℕ
  acquiredAt : String
  deriving DecidableEq

/-! ### Calls of `account_lease` -/

inductive LeaseError
  /-- `AccountLeaseHeld`. -/
  | held (message : String)
  /-- `AccountLeaseUnavailable`. -/
  | unavailable (message : String)
  deriving DecidableEq

/-- Where a call of `account_lease` stands; `left` counts the attempts that are left after the
current one. -/
inductive LeasePhase
  | waiting
  /-- Before `os.open`. -/
  | opening (left : ℕ)
  /-- Before `fcntl.flock`. -/
  | locking (left : ℕ)
  /-- The lock is another's; before `os.close`. -/
  | backing
  | refused
  /-- Before `_same_file`. -/
  | comparing (left : ℕ)
  /-- The file was replaced; before `os.close`. -/
  | dropping (left : ℕ)
  /-- Before `os.ftruncate`. -/
  | truncating
  /-- Before `os.pwrite`. -/
  | writing
  | within
  /-- In `_release`, before `LOCK_UN`. -/
  | unlocking
  /-- In `_release`, before `os.close`. -/
  | closing
  | finished
  | raised (e : LeaseError)
  /-- Another exception left the call with its file open. -/
  | broken
  | gone
  deriving DecidableEq

/-- The phases in which the call has its file open. -/
def LeasePhase.opens : LeasePhase → Bool
  | locking _ | backing | comparing _ | dropping _ | truncating | writing | within | unlocking
  | closing | broken => true
  | _ => false

/-- The phases in which the call holds the lock of its file. -/
def LeasePhase.locks : LeasePhase → Bool
  | comparing _ | dropping _ | truncating | writing | within | unlocking => true
  | _ => false

/-- A call of `account_lease`: its arguments, and the process that makes it. -/
structure LeaseCall where
  ref : AccountRef
  directory : String
  holder : String
  pid : ℕ

def LeaseCall.path (c : LeaseCall) : String := leasePath c.ref c.directory

/-- The files, the records in them, and where each call stands. -/
structure LeaseWorld where
  files : Files String ℕ ℕ
  content : ℕ → Option HolderRecord := fun _ => none
  phase : ℕ → LeasePhase := fun _ => .waiting

inductive LeaseAction
  /-- `account_lease` is entered. -/
  | enter (a : ℕ)
  /-- The next system call of a call; a file it creates gets the number `fresh`, and a record it
  writes gets the time. -/
  | advance (a fresh : ℕ) (acquiredAt : String)
  /-- The next system call of a call raises `OSError`. -/
  | fails (a : ℕ)
  | leave (a : ℕ)
  | exit (pid : ℕ)
  /-- Somebody deletes the file at a path or puts another in its place. -/
  | replace (path : String) (entry : Option ℕ)
  deriving DecidableEq

variable (calls : ℕ → LeaseCall)

namespace LeaseWorld

/-- `_recorded_holder`. -/
def recordedHolder (w : LeaseWorld) (path : String) : String :=
  match (w.files.entry path).bind w.content with
  | none => "an unknown holder"
  | some r => r.holder ++ " (pid " ++ toString r.pid ++ ", since " ++ r.acquiredAt ++ ")"

/-- A call gets to another phase. -/
def goto (w : LeaseWorld) (a : ℕ) (p : LeasePhase) : LeaseWorld :=
  { w with phase := Function.update w.phase a p }

/-- What a file contains is replaced. -/
def record (w : LeaseWorld) (i : ℕ) (r : Option HolderRecord) : LeaseWorld :=
  { w with content := Function.update w.content i r }

/-- The next system call of a call. -/
def advance (w : LeaseWorld) (a fresh : ℕ) (acquiredAt : String) : Option LeaseWorld :=
  let c := calls a
  match w.phase a with
  | .opening left =>
      some ({ w with files := w.files.openOrCreate a c.path fresh }.goto a (.locking left))
  | .locking left =>
      match w.files.tryLock a with
      | some files => some ({ w with files := files }.goto a (.comparing left))
      | none => some (w.goto a .backing)
  | .backing => some ({ w with files := w.files.close a }.goto a .refused)
  | .refused =>
      some (w.goto a (.raised (.held
        ("account " ++ c.ref.key ++ " is leased by " ++ w.recordedHolder c.path))))
  | .comparing left =>
      some (w.goto a (if w.files.sameFile a c.path then .truncating else .dropping left))
  | .dropping (left + 1) => some ({ w with files := w.files.close a }.goto a (.opening left))
  | .dropping 0 =>
      some ({ w with files := w.files.close a }.goto a (.raised (.unavailable
        ("account lease file " ++ c.path ++ " keeps being replaced"))))
  | .truncating =>
      (w.files.opened a).map fun i =>
        (w.record i none).goto a .writing
  | .writing =>
      (w.files.opened a).map fun i =>
        (w.record i (some ⟨c.holder, c.pid, acquiredAt⟩)).goto a .within
  | .unlocking => some ({ w with files := w.files.unlock a }.goto a .closing)
  | .closing => some ({ w with files := w.files.close a }.goto a .finished)
  | _ => none

/-- A system call raises `OSError`: before there is a descriptor the call reports it, afterwards
nothing catches it and the descriptor stays open. -/
def fails (w : LeaseWorld) (a : ℕ) : Option LeaseWorld :=
  match w.phase a with
  | .opening _ =>
      some (w.goto a (.raised (.unavailable
        ("cannot open account lease file " ++ (calls a).path))))
  | .locking _ | .truncating | .writing => some (w.goto a .broken)
  | _ => none

/-- The end of a process closes its files and ends its calls. -/
def exit (w : LeaseWorld) (pid : ℕ) : LeaseWorld :=
  { w with
    files := w.files.closeAll fun a => (calls a).pid == pid
    phase := fun a => if (calls a).pid == pid then .gone else w.phase a }

def step (w : LeaseWorld) : LeaseAction → Option LeaseWorld
  -- `for _ in range(2)`
  | .enter a => if w.phase a = .waiting then some (w.goto a (.opening 1)) else none
  | .advance a fresh acquiredAt => w.advance calls a fresh acquiredAt
  | .fails a => w.fails calls a
  | .leave a => if w.phase a = .within then some (w.goto a .unlocking) else none
  | .exit pid => some (w.exit calls pid)
  | .replace path entry => some { w with files := w.files.setEntry path entry }

/-- `AccountLease.verify`; there is no lease before the block, and a lease whose block has been left
has no descriptor. -/
def verify (w : LeaseWorld) (a : ℕ) : Except LeaseError Unit :=
  let c := calls a
  if w.phase a ≠ .within then
    .error (.unavailable ("account lease for " ++ c.ref.key ++ " has been released"))
  else if w.files.sameFile a c.path then .ok ()
  else .error (.unavailable ("account lease file " ++ c.path ++ " was deleted or replaced"))

/-- `account_lease_in_use`: the file is looked up at one moment, the table of locks and the record
are read at a later one. -/
def inUse (before after : LeaseWorld) (path : String) : Option String :=
  match before.files.entry path with
  | none => none
  | some i =>
      if (after.files.holder i).isSome then some (after.recordedHolder path) else none

end LeaseWorld

/-- Nobody has entered `account_lease` yet, and no file is open. -/
def LeaseWorld.start (entry : String → Option ℕ) (content : ℕ → Option HolderRecord) :
    LeaseWorld :=
  { files := { entry := entry, opened := fun _ => none, holder := fun _ => none }
    content := content }

/-- The machine of all calls of a host. -/
def leasing : Machine LeaseWorld LeaseAction := ⟨LeaseWorld.step calls⟩

/-! ### What one action does -/

/-- What one call does to the files on its way from one phase to another. -/
inductive FileCall (f : Files String ℕ ℕ) (a : ℕ) (path : String) (old new : LeasePhase) :
    Files String ℕ ℕ → Prop
  | opens (fresh : ℕ) (hold : old.opens = false) (hnew : new.opens = true ∧ new.locks = false) :
      FileCall f a path old new (f.openOrCreate a path fresh)
  | locks {f' : Files String ℕ ℕ} (hlock : f.tryLock a = some f') (hnew : new.opens = true) :
      FileCall f a path old new f'
  | unlocks (hnew : new.opens = true ∧ new.locks = false) :
      FileCall f a path old new (f.unlock a)
  | closes (hnew : new.locks = false) : FileCall f a path old new (f.close a)
  | stays (hopens : new.opens = false → old.opens = false)
      (hlocks : new.locks = true → old.locks = true) : FileCall f a path old new f

section FileCall

variable {f f' : Files String ℕ ℕ} {a : ℕ} {path : String} {old new : LeasePhase}

theorem FileCall.coherent (h : FileCall f a path old new f') (hcoh : f.Coherent)
    (hshut : old.opens = false → f.opened a = none) : f'.Coherent := by
  cases h with
  | opens fresh hold => exact hcoh.openOrCreate (hshut hold)
  | locks hlock => exact hcoh.tryLock hlock
  | unlocks => exact hcoh.unlock
  | closes => exact hcoh.closeAll
  | stays => exact hcoh

theorem FileCall.keeps (h : FileCall f a path old new f') : Files.Keeps a f f' := by
  cases h with
  | opens fresh => exact Files.keeps_openOrCreate
  | locks hlock => exact Files.keeps_tryLock hlock
  | unlocks => exact Files.keeps_unlock
  | closes => exact Files.keeps_close
  | stays => exact .refl f a

theorem FileCall.shut (h : FileCall f a path old new f')
    (hshut : old.opens = false → f.opened a = none) (hnew : new.opens = false) :
    f'.opened a = none := by
  cases h with
  | opens _ _ hopen | unlocks hopen => simp [hopen.1] at hnew
  | locks _ hopen => simp [hopen] at hnew
  | closes => exact Files.close_opened_self
  | stays hopens => exact hshut (hopens hnew)

theorem FileCall.locked (h : FileCall f a path old new f')
    (hlocked : old.locks = true → f.Locked a) (hnew : new.locks = true) : f'.Locked a := by
  cases h with
  | opens _ _ hopen | unlocks hopen => simp [hopen.2] at hnew
  | locks hlock => exact Files.locked_of_tryLock hlock
  | closes hclosed => simp [hclosed] at hnew
  | stays _ hlocks => exact hlocked (hlocks hnew)

/-- A file is opened, or the entries stay and no file is opened. -/
theorem FileCall.entries (h : FileCall f a path old new f') :
    (∃ fresh, f' = f.openOrCreate a path fresh) ∨
      (f'.entry = f.entry ∧ ∀ b i, f'.opened b = some i → f.opened b = some i) := by
  cases h with
  | opens fresh => exact .inl ⟨fresh, rfl⟩
  | locks hlock =>
      obtain ⟨i, -, -, rfl⟩ := Files.tryLock_eq_some hlock
      exact .inr ⟨rfl, fun _ _ => id⟩
  | closes => exact .inr ⟨rfl, fun b i => Files.opened_of_closeAll⟩
  | unlocks | stays => exact .inr ⟨rfl, fun _ _ => id⟩

end FileCall

/-- What one call does on its way to a phase, and which calls give up. -/
structure Moves (w : LeaseWorld) (a : ℕ) (v : LeaseWorld) (p : LeasePhase) : Prop where
  phase : v.phase = w.phase
  files : FileCall w.files a (calls a).path (w.phase a) p v.files
  dropping : ∀ left, p = .dropping left →
    w.phase a = .comparing left ∧ w.files.sameFile a (calls a).path = false
  unavailable : ∀ m, p = .raised (.unavailable m) →
    w.phase a = .dropping 0 ∨ m = "cannot open account lease file " ++ (calls a).path

theorem LeaseWorld.moves_advance {w w' : LeaseWorld} {a fresh : ℕ} {acquiredAt : String}
    (hstep : w.advance calls a fresh acquiredAt = some w') :
    ∃ v p, w' = v.goto a p ∧ Moves calls w a v p := by
  unfold LeaseWorld.advance at hstep
  cases hphase : w.phase a with
  | opening left =>
      simp only [hphase, Option.some.injEq] at hstep
      subst hstep
      exact ⟨_, _, rfl, rfl, .opens fresh (by rw [hphase]; rfl) ⟨rfl, rfl⟩, by simp, by simp⟩
  | locking left =>
      simp only [hphase] at hstep
      split at hstep <;> cases hstep
      · rename_i files hlock
        exact ⟨_, _, rfl, rfl, .locks hlock rfl, by simp, by simp⟩
      · exact ⟨_, _, rfl, rfl, .stays (by simp [LeasePhase.opens]) (by simp [LeasePhase.locks]),
          by simp, by simp⟩
  | comparing left =>
      simp only [hphase, Option.some.injEq] at hstep
      subst hstep
      refine ⟨_, _, rfl, rfl, .stays ?_ ?_, ?_, ?_⟩
      · intro hopens
        split at hopens <;> cases hopens
      · intro _
        rw [hphase]
        rfl
      · intro k hk
        split at hk
        · cases hk
        · rename_i hsame
          cases hk
          exact ⟨hphase, by simpa using hsame⟩
      · intro m hm
        split at hm <;> cases hm
  | dropping left =>
      cases left <;> simp only [hphase, Option.some.injEq] at hstep <;> subst hstep
      · exact ⟨_, _, rfl, rfl, .closes rfl, by simp, fun _ _ => .inl hphase⟩
      · exact ⟨_, _, rfl, rfl, .closes rfl, by simp, by simp⟩
  | truncating | writing =>
      simp only [hphase, Option.map_eq_some_iff] at hstep
      obtain ⟨i, -, rfl⟩ := hstep
      exact ⟨_, _, rfl, rfl, .stays (by simp [LeasePhase.opens])
        (by simp [hphase, LeasePhase.locks]), by simp, by simp⟩
  | refused =>
      simp only [hphase, Option.some.injEq] at hstep
      subst hstep
      exact ⟨_, _, rfl, rfl, .stays (by simp [hphase, LeasePhase.opens])
        (by simp [LeasePhase.locks]), by simp, by simp⟩
  | unlocking =>
      simp only [hphase, Option.some.injEq] at hstep
      subst hstep
      exact ⟨_, _, rfl, rfl, .unlocks ⟨rfl, rfl⟩, by simp, by simp⟩
  | backing | closing =>
      simp only [hphase, Option.some.injEq] at hstep
      subst hstep
      exact ⟨_, _, rfl, rfl, .closes rfl, by simp, by simp⟩
  | waiting | within | finished | raised _ | broken | gone => simp [hphase] at hstep

/-- **What an action does**: one call goes to another phase, a process ends, or somebody meddles
with the files. -/
theorem LeaseWorld.step_cases {w w' : LeaseWorld} {act : LeaseAction}
    (hstep : w.step calls act = some w') :
    (∃ a v p, w' = v.goto a p ∧ Moves calls w a v p) ∨ (∃ pid, w' = w.exit calls pid) ∨
      ∃ path entry, act = .replace path entry ∧
        w' = { w with files := w.files.setEntry path entry } := by
  cases act with
  | enter a | leave a =>
      simp only [LeaseWorld.step, Option.ite_none_right_eq_some, Option.some.injEq] at hstep
      obtain ⟨hphase, rfl⟩ := hstep
      exact .inl ⟨a, w, _, rfl, rfl, .stays (by simp [hphase, LeasePhase.opens])
        (by simp [hphase, LeasePhase.locks]), by simp, by simp⟩
  | advance a fresh acquiredAt => exact .inl ⟨a, LeaseWorld.moves_advance calls hstep⟩
  | fails a =>
      simp only [LeaseWorld.step, LeaseWorld.fails] at hstep
      split at hstep <;> cases hstep
      · rename_i hphase
        refine .inl ⟨a, w, _, rfl, rfl, .stays (by simp [hphase, LeasePhase.opens])
          (by simp [LeasePhase.locks]), by simp, fun m hm => .inr ?_⟩
        simpa using hm.symm
      all_goals
        exact .inl ⟨a, w, _, rfl, rfl, .stays (by simp [LeasePhase.opens])
          (by simp [LeasePhase.locks]), by simp, by simp⟩
  | exit pid => exact .inr (.inl ⟨pid, (Option.some.inj hstep).symm⟩)
  | replace path entry => exact .inr (.inr ⟨path, entry, rfl, (Option.some.inj hstep).symm⟩)

/-! ### What is open and locked in each phase -/

/-- A call has a file open only in the phases that open one, and holds its lock in those that lock
it. -/
structure Leasing (w : LeaseWorld) : Prop where
  coherent : w.files.Coherent
  shut : ∀ a, (w.phase a).opens = false → w.files.opened a = none
  locked : ∀ a, (w.phase a).locks = true → w.files.Locked a

theorem Leasing.start (entry : String → Option ℕ) (content : ℕ → Option HolderRecord) :
    Leasing (.start entry content) where
  coherent i d h := by simp [LeaseWorld.start] at h
  shut a _ := rfl
  locked a h := by simp [LeaseWorld.start, LeasePhase.locks] at h

namespace LeaseWorld

variable {w : LeaseWorld} {a b : ℕ} {p : LeasePhase}

@[simp] theorem goto_phase_self : (w.goto a p).phase a = p := by simp [goto]

@[simp] theorem goto_phase_of_ne (h : b ≠ a) : (w.goto a p).phase b = w.phase b := by
  simp [goto, h]

end LeaseWorld

/-- What one call does leaves the other calls alone. -/
theorem Leasing.moves {w v : LeaseWorld} {a : ℕ} {p : LeasePhase} (h : Leasing w)
    (hm : Moves calls w a v p) : Leasing (v.goto a p) where
  coherent := hm.files.coherent h.coherent (h.shut a)
  shut b hb := by
    rcases eq_or_ne b a with rfl | hne
    · exact hm.files.shut (h.shut b) (by simpa using hb)
    · have hold : (w.phase b).opens = false := by simpa [hne, hm.phase] using hb
      exact (hm.files.keeps b hne).1.trans (h.shut b hold)
  locked b hb := by
    rcases eq_or_ne b a with rfl | hne
    · exact hm.files.locked (h.locked b) (by simpa using hb)
    · have hold : (w.phase b).locks = true := by simpa [hne, hm.phase] using hb
      exact (hm.files.keeps b hne).2 (h.locked b hold)

/-- **One system call, the end of a process and meddling with the files keep what is open and
locked.** -/
theorem Leasing.step {w w' : LeaseWorld} {act : LeaseAction} (h : Leasing w)
    (hstep : w.step calls act = some w') : Leasing w' := by
  rcases LeaseWorld.step_cases calls hstep with ⟨a, v, p, rfl, hm⟩ | ⟨pid, rfl⟩ |
    ⟨path, entry, -, rfl⟩
  · exact h.moves calls hm
  · refine ⟨h.coherent.closeAll, ?_, ?_⟩
    · intro b hb
      by_cases hpid : (calls b).pid = pid
      · simp [LeaseWorld.exit, Files.closeAll, hpid]
      · have hold : (w.phase b).opens = false := by simpa [LeaseWorld.exit, hpid] using hb
        simp [LeaseWorld.exit, Files.closeAll, hpid, h.shut b hold]
    · intro b hb
      by_cases hpid : (calls b).pid = pid
      · simp [LeaseWorld.exit, hpid, LeasePhase.locks] at hb
      · have hold : (w.phase b).locks = true := by simpa [LeaseWorld.exit, hpid] using hb
        exact (h.locked b hold).closeAll (by simpa using hpid)
  · exact ⟨h.coherent, h.shut, h.locked⟩

theorem Leasing.reaches {ok : LeaseWorld → LeaseAction → Prop} {s w : LeaseWorld}
    (h₀ : Leasing s) (h : (leasing calls).Reaches ok s w) : Leasing w :=
  h.invariant h₀ fun _ _ _ hi _ hs => hi.step calls hs

theorem LeaseWorld.verify_eq_ok {w : LeaseWorld} {a : ℕ} {u : Unit}
    (h : w.verify calls a = .ok u) :
    w.phase a = .within ∧ w.files.sameFile a (calls a).path = true := by
  simp only [LeaseWorld.verify] at h
  split at h
  · cases h
  · rename_i hphase
    split at h
    · rename_i hsame
      exact ⟨not_not.1 hphase, hsame⟩
    · cases h

/-- **Two leases of one account never verify at one moment**, whatever other calls do, whenever
processes end and whatever anybody does to the files in between. -/
theorem leases_verify_one (entry : String → Option ℕ) (content : ℕ → Option HolderRecord)
    {w : LeaseWorld} (h : (leasing calls).Reaches (fun _ _ => True) (.start entry content) w)
    {a b : ℕ} (href : (calls a).ref = (calls b).ref)
    (hdir : (calls a).directory = (calls b).directory)
    (ha : w.verify calls a = .ok ()) (hb : w.verify calls b = .ok ()) : a = b := by
  have hw := (Leasing.start entry content).reaches calls h
  obtain ⟨hpa, hsa⟩ := LeaseWorld.verify_eq_ok calls ha
  obtain ⟨hpb, hsb⟩ := LeaseWorld.verify_eq_ok calls hb
  have hpath : (calls b).path = (calls a).path := by
    simp only [LeaseCall.path, href, hdir]
  rw [hpath] at hsb
  exact (hw.locked a (by rw [hpa]; rfl)).unique (hw.locked b (by rw [hpb]; rfl)) hsa hsb

/-! ### While nobody touches the file -/

/-- Somebody deletes the file at the path or puts another in its place. -/
def LeaseAction.touches (path : String) : LeaseAction → Bool
  | .replace q _ => q == path
  | _ => false

/-- Nobody touches the file at the path. -/
def Undisturbed (path : String) (_ : LeaseWorld) (act : LeaseAction) : Prop :=
  act.touches path = false

instance (path : String) (w : LeaseWorld) (act : LeaseAction) :
    Decidable (Undisturbed path w act) := inferInstanceAs (Decidable (_ = _))

theorem LeaseWorld.step_files {w w' : LeaseWorld} {act : LeaseAction} {path : String}
    (hstep : w.step calls act = some w') (hok : Undisturbed path w act) :
    (∃ a fresh, w'.files = w.files.openOrCreate a (calls a).path fresh) ∨
      (w'.files.entry path = w.files.entry path ∧
        ∀ b i, w'.files.opened b = some i → w.files.opened b = some i) := by
  rcases LeaseWorld.step_cases calls hstep with ⟨a, v, p, rfl, hm⟩ | ⟨pid, rfl⟩ |
    ⟨q, entry, rfl, rfl⟩
  · rcases hm.files.entries with ⟨fresh, h⟩ | ⟨he, ho⟩
    · exact .inl ⟨a, fresh, h⟩
    · exact .inr ⟨congrFun he path, ho⟩
  · exact .inr ⟨rfl, fun b i => Files.opened_of_closeAll⟩
  · have hne : path ≠ q := by
      rintro rfl
      simp [Undisturbed, LeaseAction.touches] at hok
    exact .inr ⟨by simp [Files.setEntry, hne], fun _ _ => id⟩

theorem LeaseWorld.entry_step {w w' : LeaseWorld} {act : LeaseAction} {path : String} {i : ℕ}
    (h : w.files.entry path = some i) (hok : Undisturbed path w act)
    (hstep : w.step calls act = some w') : w'.files.entry path = some i := by
  rcases LeaseWorld.step_files calls hstep hok with ⟨a, fresh, hf⟩ | ⟨he, -⟩
  · rw [hf]
    exact Files.openOrCreate_entry_of_some h
  · rw [he, h]

/-- While nobody touches the file at a path: every call for it has the file open that the path
names, and none has given up. -/
structure Untouched (path : String) (w : LeaseWorld) : Prop where
  files : Leasing w
  named : ∀ a i, (calls a).path = path → w.files.opened a = some i →
    w.files.entry path = some i
  kept : ∀ a left, (calls a).path = path → w.phase a ≠ .dropping left
  errors : ∀ a m, (calls a).path = path → w.phase a = .raised (.unavailable m) →
    m = "cannot open account lease file " ++ path

variable {calls}

/-- A call that holds the lock has the file open that the path names. -/
theorem Untouched.same {path : String} {w : LeaseWorld} {a : ℕ} (h : Untouched calls path w)
    (ha : (calls a).path = path) (hl : (w.phase a).locks = true) :
    w.files.sameFile a path = true := by
  obtain ⟨i, hi, -⟩ := h.files.locked a hl
  exact Files.sameFile_iff.2 ⟨i, hi, h.named a i ha hi⟩

theorem Untouched.start (path : String) (entry : String → Option ℕ)
    (content : ℕ → Option HolderRecord) : Untouched calls path (.start entry content) where
  files := .start entry content
  named a i _ h := by simp [LeaseWorld.start] at h
  kept a left _ := by simp [LeaseWorld.start]
  errors a m _ h := by simp [LeaseWorld.start] at h

theorem Untouched.named_step {path : String} {w w' : LeaseWorld} {act : LeaseAction}
    (h : Untouched calls path w) (hok : Undisturbed path w act)
    (hstep : w.step calls act = some w') {b i : ℕ} (hb : (calls b).path = path)
    (hi : w'.files.opened b = some i) : w'.files.entry path = some i := by
  rcases LeaseWorld.step_files calls hstep hok with ⟨a, fresh, hf⟩ | ⟨he, ho⟩
  · rw [hf] at hi ⊢
    rcases eq_or_ne b a with rfl | hne
    · obtain ⟨j, hj, hje⟩ : ∃ j,
          (w.files.openOrCreate b (calls b).path fresh).opened b = some j ∧
            (w.files.openOrCreate b (calls b).path fresh).entry (calls b).path = some j :=
        Files.openOrCreate_opened
      rw [hj] at hi
      cases hi
      rw [← hb]
      exact hje
    · rw [Files.openOrCreate_opened_of_ne hne] at hi
      exact Files.openOrCreate_entry_of_some (h.named b i hb hi)
  · rw [he]
    exact h.named b i hb (ho b i hi)

/-- The phases that a step leaves: none that gives up. -/
theorem Untouched.phase_step {path : String} {w w' : LeaseWorld} {act : LeaseAction}
    (h : Untouched calls path w) (hstep : w.step calls act = some w') {b : ℕ}
    (hb : (calls b).path = path) : (∀ left, w'.phase b ≠ .dropping left) ∧
      ∀ m, w'.phase b = .raised (.unavailable m) →
        m = "cannot open account lease file " ++ path := by
  have hkept := h.kept b
  have herrors := h.errors b
  rcases LeaseWorld.step_cases calls hstep with ⟨a, v, p, rfl, hm⟩ | ⟨pid, rfl⟩ |
    ⟨q, entry, -, rfl⟩
  · rcases eq_or_ne b a with rfl | hne
    · rw [LeaseWorld.goto_phase_self]
      refine ⟨?_, ?_⟩
      · rintro left rfl
        obtain ⟨hphase, hsame⟩ := hm.dropping left rfl
        rw [hb, h.same hb (by rw [hphase]; rfl)] at hsame
        cases hsame
      · rintro m rfl
        rcases hm.unavailable m rfl with hdrop | hopen
        · exact absurd hdrop (hkept 0 hb)
        · rw [hopen, hb]
    · rw [LeaseWorld.goto_phase_of_ne hne, hm.phase]
      exact ⟨fun left => hkept left hb, fun m => herrors m hb⟩
  · simp only [LeaseWorld.exit]
    split
    · exact ⟨by simp, by simp⟩
    · exact ⟨fun left => hkept left hb, fun m => herrors m hb⟩
  · exact ⟨fun left => hkept left hb, fun m => herrors m hb⟩

theorem Untouched.step {path : String} {w w' : LeaseWorld} {act : LeaseAction}
    (h : Untouched calls path w) (hok : Undisturbed path w act)
    (hstep : w.step calls act = some w') : Untouched calls path w' where
  files := h.files.step calls hstep
  named _ _ hb hi := h.named_step hok hstep hb hi
  kept _ left hb := (h.phase_step hstep hb).1 left
  errors _ m hb hm := (h.phase_step hstep hb).2 m hm

theorem Untouched.reaches {path : String} {s w : LeaseWorld} (h₀ : Untouched calls path s)
    (h : (leasing calls).Reaches (Undisturbed path) s w) : Untouched calls path w :=
  h.invariant h₀ fun _ _ _ hi hok hs => hi.step hok hs

/-- **The lease is exclusive while nobody touches its file.**  Then at most one call for the file
is past the lock, a lease verifies for as long as its block runs, no call gives up but one that
cannot open the file, and a probe that has found the file sees the holder. -/
theorem undisturbed_lease_exclusive (path : String) (entry : String → Option ℕ)
    (content : ℕ → Option HolderRecord) {w : LeaseWorld}
    (h : (leasing calls).Reaches (Undisturbed path) (.start entry content) w) {a : ℕ}
    (ha : (calls a).path = path) :
    (∀ b, (calls b).path = path → (w.phase a).locks = true → (w.phase b).locks = true →
        a = b) ∧
      (w.phase a = .within → w.verify calls a = .ok ()) ∧
      (∀ m, w.phase a = .raised (.unavailable m) →
        m = "cannot open account lease file " ++ path) ∧
      ∀ w', (leasing calls).Reaches (Undisturbed path) w w' →
        (w.files.entry path).isSome = true → (w'.phase a).locks = true →
        (LeaseWorld.inUse w w' path).isSome = true := by
  have hw := (Untouched.start path entry content).reaches h
  refine ⟨?_, ?_, fun m hm => hw.errors a m ha hm, ?_⟩
  · intro b hb hla hlb
    exact (hw.files.locked a hla).unique (hw.files.locked b hlb) (hw.same ha hla)
      (hw.same hb hlb)
  · intro hwithin
    have hsame := hw.same ha (by rw [hwithin]; rfl)
    rw [← ha] at hsame
    simp [LeaseWorld.verify, hwithin, hsame]
  · intro w' hrun hentry hl
    obtain ⟨i, hi⟩ := Option.isSome_iff_exists.1 hentry
    have hw' := hw.reaches hrun
    have hi' : w'.files.entry path = some i :=
      hrun.invariant (I := fun v => v.files.entry path = some i) hi
        fun _ _ _ hv hok hs => LeaseWorld.entry_step calls hv hok hs
    obtain ⟨j, hj, hlock⟩ := hw'.files.locked a hl
    have hij : i = j := Option.some.inj (hi'.symm.trans (hw'.named a j ha hj))
    subst hij
    simp [LeaseWorld.inUse, hi, hlock]

/-! ### A host with two processes -/

/-- Two commands of one account, in processes 10 and 11. -/
def twoCommands (a : ℕ) : LeaseCall where
  ref :=
    { venue := "alpaca"
      accountNumber := "PA1"
      venue_known := by decide
      number_valid := by decide }
  directory := "/leases"
  holder := if a = 0 then "tradepulse run" else "tradepulse scan"
  pid := 10 + a

/-- The first command acquires the lease, the second is refused. -/
def contention : List LeaseAction :=
  [.enter 0, .enter 1, .advance 0 7 "", .advance 1 8 "", .advance 0 0 "", .advance 1 0 "",
    .advance 1 0 "", .advance 0 0 "", .advance 0 0 "", .advance 0 0 "noon", .advance 1 0 ""]

theorem leases_verify_one_contended : ∃ w a b,
    LeaseWorld.verify twoCommands w a = .ok () ∧ LeaseWorld.verify twoCommands w b = .ok () ∧
      a = b := by
  have hrun : ((leasing twoCommands).run (.start (fun _ => none) fun _ => none) contention).any
      (fun w => decide (w.phase 0 = .within ∧ w.files.sameFile 0 (twoCommands 0).path = true)) =
        true := by
    decide +kernel
  obtain ⟨w, hw, hphase, hsame⟩ := Machine.exists_of_run hrun
  have hv : LeaseWorld.verify twoCommands w 0 = .ok () := by
    simp [LeaseWorld.verify, hphase, hsame]
  exact ⟨w, 0, 0, hv, hv, leases_verify_one twoCommands _ _ hw rfl rfl hv hv⟩

theorem undisturbed_lease_exclusive_contended : ∃ w,
    w.phase 1 = .raised (.held
      "account alpaca:PA1 is leased by tradepulse run (pid 10, since noon)") ∧
    LeaseWorld.verify twoCommands w 0 = .ok () := by
  have hrun : ((leasing twoCommands).runUnder (Undisturbed (twoCommands 0).path)
      (.start (fun _ => none) fun _ => none) contention).any (fun w =>
        decide (w.phase 0 = .within ∧ w.phase 1 = .raised (.held
          "account alpaca:PA1 is leased by tradepulse run (pid 10, since noon)"))) = true := by
    decide +kernel
  obtain ⟨w, hw, hphase, hother⟩ := Machine.exists_of_runUnder hrun
  have hexclusive := undisturbed_lease_exclusive _ _ _ hw (a := 0) rfl
  exact ⟨w, hother, hexclusive.2.1 hphase⟩

end Runtime

end TradePulse
