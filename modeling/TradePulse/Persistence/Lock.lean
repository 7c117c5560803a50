/-
**The advisory locks of the database** (`persistence/lock.py`, and the lease fence of
`persistence/repositories.py`).

A lock is a lease: a row that says who holds a key, and until when.  A caller reads the clock and
then, in a transaction that may commit much later, takes a key that is free or whose lease was over
at its reading, or extends a lease that is its own and was not over, or gives it back.  A write that
is fenced on a lease reads the clock in its own transaction.

What callers believe is what their calls returned: a caller that was granted a lease until some
instant and has not given it back believes that it holds the key until then.

Main definitions:

* `acquireLock`, `renewLock`, `releaseLock`, `checkLease` — the transactions;
* `leases` — callers side by side, each with its reading of the clock;
* `held`, `lastAcquired` — what a caller was granted last, and who acquired a key last.

Main results:

* `Leased.step` — the lock rows agree with what was granted;
* `lease_exclusion` — two callers never believe to hold one key at one time, a caller that does not
  hold a key changes nothing, and a fenced write commits only while nobody else has acquired the
  key.
-/

import Mathlib.Logic.Function.Basic
import TradePulse.Models.Market
import TradePulse.Models.Settlement
import TradePulse.Process.Machine

set_option autoImplicit false

namespace TradePulse

namespace Persistence

open Process

/-! ### The transactions -/

/-- A row of `locks`. -/
structure Lock where
  ownerToken : String
  acquiredAt : Instant
  expiresAt : Instant
  command : String
  deriving DecidableEq

/-- The table `locks`, by `lock_key`. -/
abbrev Locks : Type := String → Option Lock

/-- `now + timedelta(seconds=ttl_seconds)`. -/
def expiry (now : Instant) (ttlSeconds : ℤ) : Instant := now + ttlSeconds * 1000000

/-- `acquire_lock`; the clock was read before the transaction. -/
def acquireLock (lockKey ownerToken command : String) (ttlSeconds : ℤ) (now : Instant)
    (locks : Locks) : Bool × Locks :=
  if (locks lockKey).any fun row => now < row.expiresAt then (false, locks)
  else (true, Function.update locks lockKey (some
    { ownerToken := ownerToken
      acquiredAt := now
      expiresAt := expiry now ttlSeconds
      command := command }))

/-- `release_lock`. -/
def releaseLock (lockKey ownerToken : String) (locks : Locks) : Locks :=
  if (locks lockKey).any fun row => row.ownerToken = ownerToken then
    Function.update locks lockKey none
  else locks

/-- `renew_lock`; the clock was read before the transaction. -/
def renewLock (lockKey ownerToken : String) (ttlSeconds : ℤ) (now : Instant) (locks : Locks) :
    Bool × Locks :=
  match locks lockKey with
  | some row =>
      if row.ownerToken = ownerToken ∧ now < row.expiresAt then
        (true, Function.update locks lockKey (some { row with expiresAt := expiry now ttlSeconds }))
      else (false, locks)
  | none => (false, locks)

/-- `_check_lease`; the clock is read in the transaction of the write. -/
def checkLease (lockKey ownerToken : String) (now : Instant) (locks : Locks) : Except Raised Unit :=
  if (locks lockKey).any fun row => row.ownerToken = ownerToken ∧ now < row.expiresAt then .ok ()
  else .error ⟨.other, "LEASE_LOST: " ++ lockKey⟩

/-! ### Callers side by side -/

/-- A call. -/
inductive Request
  | acquire (lockKey ownerToken command : String) (ttlSeconds : ℤ)
  | renew (lockKey ownerToken : String) (ttlSeconds : ℤ)
  | release (lockKey ownerToken : String)
  /-- A repository write with `lease=(lock_key, owner_token)`. -/
  | write (lockKey ownerToken : String)
  deriving DecidableEq

/-- A call that committed: what it asked for, its reading of the clock, and whether it was
granted. -/
structure Outcome where
  request : Request
  reading : Instant
  granted : Bool
  deriving DecidableEq

/-- The clock, the table, the calls that have read the clock and not committed yet, and the calls
that have, the latest first. -/
structure Leases where
  clock : Instant
  locks : Locks := fun _ => none
  pending : List (Request × Instant) := []
  log : List Outcome := []

/-- The transaction of a call. -/
def transaction (r : Request) (reading clock : Instant) (locks : Locks) : Bool × Locks :=
  match r with
  | .acquire lockKey ownerToken command ttlSeconds =>
      acquireLock lockKey ownerToken command ttlSeconds reading locks
  | .renew lockKey ownerToken ttlSeconds => renewLock lockKey ownerToken ttlSeconds reading locks
  | .release lockKey ownerToken => (true, releaseLock lockKey ownerToken locks)
  | .write lockKey ownerToken =>
      match checkLease lockKey ownerToken clock locks with
      | .ok _ => (true, locks)
      | .error _ => (false, locks)

inductive LeaseAction
  | tick (t : Instant)
  | begin (r : Request)
  | commit (j : ℕ)
  deriving DecidableEq

def Leases.step (w : Leases) : LeaseAction → Option Leases
  | .tick t => if w.clock ≤ t then some { w with clock := t } else none
  | .begin r => some { w with pending := w.pending ++ [(r, w.clock)] }
  | .commit j =>
      (w.pending[j]?).map fun call =>
        let result := transaction call.1 call.2 w.clock w.locks
        { w with
          locks := result.2
          pending := w.pending.eraseIdx j
          log := ⟨call.1, call.2, result.1⟩ :: w.log }

/-- Any number of callers side by side. -/
def leases : Machine Leases LeaseAction := ⟨Leases.step⟩

/-! ### What was granted -/

/-- What a call that committed says about a caller's hold on a key: until when it was granted, or
that it was given back. -/
def Outcome.tells (lockKey ownerToken : String) (o : Outcome) : Option (Option Instant) :=
  match o.request, o.granted with
  | .acquire key token _ ttl, true =>
      if key = lockKey ∧ token = ownerToken then some (some (expiry o.reading ttl)) else none
  | .renew key token ttl, true =>
      if key = lockKey ∧ token = ownerToken then some (some (expiry o.reading ttl)) else none
  | .release key token, _ => if key = lockKey ∧ token = ownerToken then some none else none
  | _, _ => none

/-- Who acquired a key by a call. -/
def Outcome.acquirer (lockKey : String) (o : Outcome) : Option String :=
  match o.request, o.granted with
  | .acquire key token _ _, true => if key = lockKey then some token else none
  | _, _ => none

/-- Until when a caller was granted a key last, if it has not given it back since. -/
def held (lockKey ownerToken : String) (log : List Outcome) : Option Instant :=
  (log.findSome? fun o => o.tells lockKey ownerToken).join

/-- Who acquired a key last. -/
def lastAcquired (lockKey : String) (log : List Outcome) : Option String :=
  log.findSome? fun o => o.acquirer lockKey

theorem held_cons (key token : String) (o : Outcome) (log : List Outcome) :
    held key token (o :: log) = (o.tells key token).getD (held key token log) := by
  unfold held
  rw [List.findSome?_cons]
  cases o.tells key token <;> rfl

theorem lastAcquired_cons (key : String) (o : Outcome) (log : List Outcome) :
    lastAcquired key (o :: log) = (o.acquirer key).or (lastAcquired key log) := by
  unfold lastAcquired
  rw [List.findSome?_cons]
  cases o.acquirer key <;> rfl

/-! ### The invariant -/

/-- The rows agree with what was granted. -/
structure Leased (w : Leases) : Prop where
  readings : ∀ call ∈ w.pending, call.2 ≤ w.clock
  /-- A row is what its owner was granted last, and its owner acquired the key last. -/
  row : ∀ key row, w.locks key = some row →
    held key row.ownerToken w.log = some row.expiresAt ∧
      lastAcquired key w.log = some row.ownerToken
  /-- A caller that acquired a key last, and has not given it back, has the row. -/
  last : ∀ key token e, lastAcquired key w.log = some token → held key token w.log = some e →
    ∃ row, w.locks key = some row ∧ row.ownerToken = token ∧ row.expiresAt = e
  /-- What any other caller was granted is over. -/
  elapsed : ∀ key token e, held key token w.log = some e → lastAcquired key w.log ≠ some token →
    e ≤ w.clock

theorem leased_init (t : Instant) : Leased { clock := t } where
  readings _ h := by cases h
  row _ _ h := by cases h
  last _ _ _ h := by cases h
  elapsed _ _ _ h := by cases h

section Commit

variable {w : Leases} {locks : Locks} {o : Outcome}

/-- What is to be shown of a call that commits. -/
theorem Leased.commit (hw : Leased w) {j : ℕ}
    (hrow : ∀ key row, locks key = some row →
      held key row.ownerToken (o :: w.log) = some row.expiresAt ∧
        lastAcquired key (o :: w.log) = some row.ownerToken)
    (hlast : ∀ key token e, lastAcquired key (o :: w.log) = some token →
      held key token (o :: w.log) = some e →
        ∃ row, locks key = some row ∧ row.ownerToken = token ∧ row.expiresAt = e)
    (helapsed : ∀ key token e, held key token (o :: w.log) = some e →
      lastAcquired key (o :: w.log) ≠ some token → e ≤ w.clock) :
    Leased { w with locks := locks, pending := w.pending.eraseIdx j, log := o :: w.log } where
  readings call hcall := hw.readings call (List.mem_of_mem_eraseIdx hcall)
  row := hrow
  last := hlast
  elapsed := helapsed

/-- A call that is refused, and a fenced write, say nothing. -/
theorem Leased.commit_silent (hw : Leased w) {j : ℕ} (htells : ∀ key token, o.tells key token = none)
    (hacquirer : ∀ key, o.acquirer key = none) :
    Leased { w with pending := w.pending.eraseIdx j, log := o :: w.log } := by
  have hheld : ∀ key token, held key token (o :: w.log) = held key token w.log := fun key token => by
    rw [held_cons, htells]
    rfl
  have hlast : ∀ key, lastAcquired key (o :: w.log) = lastAcquired key w.log := fun key => by
    rw [lastAcquired_cons, hacquirer]
    rfl
  refine hw.commit ?_ ?_ ?_
  · intro key row hrow
    rw [hheld, hlast]
    exact hw.row key row hrow
  · intro key token e
    rw [hheld, hlast]
    exact hw.last key token e
  · intro key token e
    rw [hheld, hlast]
    exact hw.elapsed key token e

/-- **A key is acquired**: whoever had it was over at the reading of the clock. -/
theorem Leased.acquired (hw : Leased w) {j : ℕ} {key token command : String} {ttl : ℤ}
    {reading : Instant} (hreading : reading ≤ w.clock)
    (hfree : ∀ row, w.locks key = some row → row.expiresAt ≤ reading) :
    Leased { w with
      locks := Function.update w.locks key (some ⟨token, reading, expiry reading ttl, command⟩)
      pending := w.pending.eraseIdx j
      log := ⟨.acquire key token command ttl, reading, true⟩ :: w.log } := by
  refine hw.commit ?_ ?_ ?_
  · intro key' row hrow
    by_cases hkey : key' = key
    · subst hkey
      rw [Function.update_self] at hrow
      cases hrow
      simp [held_cons, lastAcquired_cons, Outcome.tells, Outcome.acquirer]
    · rw [Function.update_of_ne hkey] at hrow
      simpa [held_cons, lastAcquired_cons, Outcome.tells, Outcome.acquirer, Ne.symm hkey]
        using hw.row key' row hrow
  · intro key' token' e hlast hheld
    by_cases hkey : key' = key
    · subst hkey
      simp only [lastAcquired_cons, Outcome.acquirer, if_true, Option.some_or, Option.some.injEq]
        at hlast
      subst hlast
      simp only [held_cons, Outcome.tells, and_self, if_true, Option.getD_some,
        Option.some.injEq] at hheld
      exact ⟨_, Function.update_self .., rfl, hheld⟩
    · simp only [lastAcquired_cons, Outcome.acquirer, if_neg (Ne.symm hkey), Option.none_or]
        at hlast
      simp only [held_cons, Outcome.tells, Ne.symm hkey, false_and, if_false, Option.getD_none]
        at hheld
      rw [Function.update_of_ne hkey]
      exact hw.last key' token' e hlast hheld
  · intro key' token' e hheld hlast
    by_cases hkey : key' = key
    · subst hkey
      simp only [lastAcquired_cons, Outcome.acquirer, if_true, Option.some_or, ne_eq,
        Option.some.injEq] at hlast
      simp only [held_cons, Outcome.tells, hlast, and_false, if_false, Option.getD_none] at hheld
      by_cases hbefore : lastAcquired key' w.log = some token'
      · obtain ⟨row, hrow, -, rfl⟩ := hw.last key' token' e hbefore hheld
        exact (hfree row hrow).trans hreading
      · exact hw.elapsed key' token' e hheld hbefore
    · simp only [lastAcquired_cons, Outcome.acquirer, if_neg (Ne.symm hkey), Option.none_or]
        at hlast
      simp only [held_cons, Outcome.tells, Ne.symm hkey, false_and, if_false, Option.getD_none]
        at hheld
      exact hw.elapsed key' token' e hheld hlast

/-- **A lease is extended.** -/
theorem Leased.renewed (hw : Leased w) {j : ℕ} {key : String} {ttl : ℤ} {reading : Instant}
    {row : Lock} (hrow : w.locks key = some row) :
    Leased { w with
      locks := Function.update w.locks key (some { row with expiresAt := expiry reading ttl })
      pending := w.pending.eraseIdx j
      log := ⟨.renew key row.ownerToken ttl, reading, true⟩ :: w.log } := by
  obtain ⟨-, hacquired⟩ := hw.row key row hrow
  have hlast' : ∀ key', lastAcquired key' (⟨.renew key row.ownerToken ttl, reading, true⟩ :: w.log) =
      lastAcquired key' w.log := fun key' => lastAcquired_cons key' _ _
  refine hw.commit ?_ ?_ ?_
  · intro key' row' hrow'
    rw [hlast']
    by_cases hkey : key' = key
    · subst hkey
      rw [Function.update_self] at hrow'
      cases hrow'
      exact ⟨by simp [held_cons, Outcome.tells], hacquired⟩
    · rw [Function.update_of_ne hkey] at hrow'
      simpa [held_cons, Outcome.tells, Ne.symm hkey] using hw.row key' row' hrow'
  · intro key' token' e hlast hheld
    rw [hlast'] at hlast
    by_cases hkey : key' = key
    · subst hkey
      obtain rfl : row.ownerToken = token' := Option.some.inj (hacquired.symm.trans hlast)
      simp only [held_cons, Outcome.tells, and_self, if_true, Option.getD_some,
        Option.some.injEq] at hheld
      exact ⟨_, Function.update_self .., rfl, hheld⟩
    · simp only [held_cons, Outcome.tells, Ne.symm hkey, false_and, if_false, Option.getD_none]
        at hheld
      rw [Function.update_of_ne hkey]
      exact hw.last key' token' e hlast hheld
  · intro key' token' e hheld hlast
    rw [hlast'] at hlast
    refine hw.elapsed key' token' e ?_ hlast
    rw [held_cons] at hheld
    by_cases hsame : key = key' ∧ row.ownerToken = token'
    · obtain ⟨rfl, rfl⟩ := hsame
      exact absurd hacquired hlast
    · simpa [Outcome.tells, hsame] using hheld

/-- **A lease is given back**, or was lost before. -/
theorem Leased.released (hw : Leased w) {j : ℕ} {key token : String} {reading : Instant} :
    Leased { w with
      locks := releaseLock key token w.locks
      pending := w.pending.eraseIdx j
      log := ⟨.release key token, reading, true⟩ :: w.log } := by
  have hlast' : ∀ key', lastAcquired key' (⟨.release key token, reading, true⟩ :: w.log) =
      lastAcquired key' w.log := fun key' => lastAcquired_cons key' _ _
  have hheld' : ∀ key' token', ¬ (key = key' ∧ token = token') →
      held key' token' (⟨.release key token, reading, true⟩ :: w.log) = held key' token' w.log := by
    intro key' token' hne
    simp [held_cons, Outcome.tells, hne]
  have hheld : ∀ {key' token' e},
      held key' token' (⟨.release key token, reading, true⟩ :: w.log) = some e →
        ¬ (key = key' ∧ token = token') := by
    rintro key' token' e he ⟨rfl, rfl⟩
    simp [held_cons, Outcome.tells] at he
  -- only the row of its own token can go
  have hkept : ∀ key' row, releaseLock key token w.locks key' = some row ↔
      w.locks key' = some row ∧ ¬ (key = key' ∧ token = row.ownerToken) := by
    intro key' row
    unfold releaseLock
    split
    · rename_i howner
      obtain ⟨own, hown, hsame⟩ := (Option.any_eq_true _ _).1 howner
      have hsame : own.ownerToken = token := of_decide_eq_true hsame
      by_cases hkey : key' = key
      · subst hkey
        rw [Function.update_self]
        constructor
        · intro h
          cases h
        · rintro ⟨h, hne⟩
          obtain rfl := Option.some.inj (hown.symm.trans h)
          exact absurd ⟨rfl, hsame.symm⟩ hne
      · rw [Function.update_of_ne hkey]
        exact ⟨fun h => ⟨h, fun hs => hkey hs.1.symm⟩, And.left⟩
    · rename_i howner
      refine ⟨fun h => ⟨h, ?_⟩, And.left⟩
      rintro ⟨rfl, rfl⟩
      simp [h] at howner
  refine hw.commit ?_ ?_ ?_
  · intro key' row hrow
    obtain ⟨hold, hne⟩ := (hkept key' row).1 hrow
    rw [hlast', hheld' _ _ hne]
    exact hw.row key' row hold
  · intro key' token' e hlast he
    have hne := hheld he
    rw [hlast'] at hlast
    rw [hheld' _ _ hne] at he
    obtain ⟨row, hrow, rfl, rfl⟩ := hw.last key' token' e hlast he
    exact ⟨row, (hkept key' row).2 ⟨hrow, hne⟩, rfl, rfl⟩
  · intro key' token' e he hlast
    have hne := hheld he
    rw [hlast'] at hlast
    rw [hheld' _ _ hne] at he
    exact hw.elapsed key' token' e he hlast

end Commit

/-- What `acquire_lock` can do. -/
theorem acquireLock_cases (key token command : String) (ttl : ℤ) (now : Instant) (locks : Locks) :
    ((∃ row, locks key = some row ∧ now < row.expiresAt) ∧
        acquireLock key token command ttl now locks = (false, locks)) ∨
      ((∀ row, locks key = some row → row.expiresAt ≤ now) ∧
        acquireLock key token command ttl now locks =
          (true, Function.update locks key (some ⟨token, now, expiry now ttl, command⟩))) := by
  unfold acquireLock
  cases hrow : locks key with
  | none => exact .inr ⟨by simp, rfl⟩
  | some row =>
      rcases le_or_gt row.expiresAt now with hle | hlt
      · refine .inr ⟨?_, by simp [not_lt.2 hle]⟩
        rintro _ ⟨⟩
        exact hle
      · exact .inl ⟨⟨row, rfl, hlt⟩, by simp [hlt]⟩

/-- What `renew_lock` can do. -/
theorem renewLock_cases (key token : String) (ttl : ℤ) (now : Instant) (locks : Locks) :
    renewLock key token ttl now locks = (false, locks) ∨
      ∃ row, locks key = some row ∧ row.ownerToken = token ∧ now < row.expiresAt ∧
        renewLock key token ttl now locks =
          (true, Function.update locks key (some { row with expiresAt := expiry now ttl })) := by
  unfold renewLock
  cases hrow : locks key with
  | none => exact .inl rfl
  | some row =>
      by_cases h : row.ownerToken = token ∧ now < row.expiresAt
      · exact .inr ⟨row, rfl, h.1, h.2, by simp [h]⟩
      · exact .inl (by simp [h])

/-- The fence lets a write through if and only if the lease is held and not over. -/
theorem checkLease_eq_ok_iff {key token : String} {now : Instant} {locks : Locks} :
    checkLease key token now locks = .ok () ↔
      ∃ row, locks key = some row ∧ row.ownerToken = token ∧ now < row.expiresAt := by
  unfold checkLease
  cases locks key with
  | none => simp
  | some row => by_cases h : row.ownerToken = token ∧ now < row.expiresAt <;> simp [h]

/-- **The step lemma.** -/
theorem Leased.step {w w' : Leases} {a : LeaseAction} (hw : Leased w) (hstep : w.step a = some w') :
    Leased w' := by
  cases a with
  | tick t =>
      simp only [Leases.step, Option.ite_none_right_eq_some, Option.some.injEq] at hstep
      obtain ⟨hle, rfl⟩ := hstep
      exact ⟨fun call hcall => (hw.readings call hcall).trans hle, hw.row, hw.last,
        fun key token e hheld hlast => (hw.elapsed key token e hheld hlast).trans hle⟩
  | begin r =>
      cases hstep
      refine ⟨fun call hcall => ?_, hw.row, hw.last, hw.elapsed⟩
      rcases List.mem_append.1 hcall with hold | hnew
      · exact hw.readings call hold
      · obtain rfl := List.mem_singleton.1 hnew
        exact le_rfl
  | commit j =>
      simp only [Leases.step, Option.map_eq_some_iff] at hstep
      obtain ⟨⟨r, reading⟩, hcall, rfl⟩ := hstep
      have hreading : reading ≤ w.clock := hw.readings _ (List.mem_of_getElem? hcall)
      cases r with
      | acquire key token command ttl =>
          rcases acquireLock_cases key token command ttl reading w.locks with ⟨-, h⟩ | ⟨hfree, h⟩
          · simp only [transaction, h]
            exact hw.commit_silent (fun _ _ => rfl) fun _ => rfl
          · simp only [transaction, h]
            exact hw.acquired hreading hfree
      | renew key token ttl =>
          rcases renewLock_cases key token ttl reading w.locks with h | ⟨row, hrow, rfl, -, h⟩
          · simp only [transaction, h]
            exact hw.commit_silent (fun _ _ => rfl) fun _ => rfl
          · simp only [transaction, h]
            exact hw.renewed hrow
      | release key token => exact hw.released
      | write key token =>
          have hsame : (transaction (.write key token) reading w.clock w.locks).2 = w.locks := by
            unfold transaction
            dsimp only
            split <;> rfl
          simp only [hsame]
          exact hw.commit_silent (fun _ _ => rfl) fun _ => rfl

/-- **Mutual exclusion of the leases.**  In every state that callers reach side by side, each
committing as late as it may:

* no two callers that were granted a key, and have not given it back, are within what they were
  granted at one time;
* no caller acquires a key before the clock has reached what another was granted, nor with an
  earlier reading of the clock as long as that other one was the last to acquire it;
* a caller that does not own a key changes nothing by giving it back or by renewing it;
* a fenced write is let through only if its caller was the last to acquire the key, and within its
  lease. -/
theorem lease_exclusion {t₀ : Instant} {w : Leases}
    (hreach : leases.Reaches (fun _ _ => True) { clock := t₀ } w) :
    (∀ key token token' e e', held key token w.log = some e → held key token' w.log = some e' →
      w.clock < e → w.clock < e' → token = token') ∧
    ∀ j w', leases.step w (.commit j) = some w' → ∀ key token,
      (∀ command ttl reading, w'.log = ⟨.acquire key token command ttl, reading, true⟩ :: w.log →
        ∀ other e, other ≠ token → held key other w.log = some e →
          e ≤ w.clock ∧ (lastAcquired key w.log = some other → e ≤ reading)) ∧
      (∀ reading granted, (w'.log = ⟨.release key token, reading, granted⟩ :: w.log ∨
          ∃ ttl, w'.log = ⟨.renew key token ttl, reading, granted⟩ :: w.log) →
        (∀ row, w.locks key = some row → row.ownerToken ≠ token) → w'.locks = w.locks) ∧
      ∀ reading, w'.log = ⟨.write key token, reading, true⟩ :: w.log →
        lastAcquired key w.log = some token ∧ ∃ e, held key token w.log = some e ∧ w.clock < e := by
  have hw : Leased w := hreach.invariant (leased_init t₀) fun _ _ _ h _ hstep => h.step hstep
  refine ⟨fun key token token' e e' he he' hlt hlt' => ?_, fun j w' hstep key token => ?_⟩
  · have hlast : ∀ {x : String} {d : Instant}, held key x w.log = some d → w.clock < d →
        lastAcquired key w.log = some x := by
      intro x d hheld hbefore
      by_contra hne
      exact absurd (hw.elapsed key x d hheld hne) (not_le.2 hbefore)
    exact Option.some.inj ((hlast he hlt).symm.trans (hlast he' hlt'))
  · have hstep : w.step (.commit j) = some w' := hstep
    simp only [Leases.step, Option.map_eq_some_iff] at hstep
    obtain ⟨⟨r, reading⟩, hcall, rfl⟩ := hstep
    have hreading : reading ≤ w.clock := hw.readings _ (List.mem_of_getElem? hcall)
    refine ⟨?_, ?_, ?_⟩
    · intro command ttl reading' hlog other e hne hheld
      simp only [List.cons.injEq, Outcome.mk.injEq, and_true] at hlog
      obtain ⟨rfl, rfl, hgranted⟩ := hlog
      change (acquireLock key token command ttl reading w.locks).1 = true at hgranted
      rcases acquireLock_cases key token command ttl reading w.locks with ⟨-, h⟩ | ⟨hfree, -⟩
      · rw [h] at hgranted
        cases hgranted
      · have hlast : lastAcquired key w.log = some other → e ≤ reading := by
          intro hlast
          obtain ⟨row, hrow, -, rfl⟩ := hw.last key other e hlast hheld
          exact hfree row hrow
        by_cases hbefore : lastAcquired key w.log = some other
        · exact ⟨(hlast hbefore).trans hreading, hlast⟩
        · exact ⟨hw.elapsed key other e hheld hbefore, hlast⟩
    · intro reading' granted hlog hother
      rcases hlog with hlog | ⟨ttl, hlog⟩
      · simp only [List.cons.injEq, Outcome.mk.injEq, and_true] at hlog
        obtain ⟨rfl, -⟩ := hlog
        show releaseLock key token w.locks = w.locks
        unfold releaseLock
        refine if_neg fun hany => ?_
        obtain ⟨row, hrow, hsame⟩ := (Option.any_eq_true _ _).1 hany
        exact hother row hrow (of_decide_eq_true hsame)
      · simp only [List.cons.injEq, Outcome.mk.injEq, and_true] at hlog
        obtain ⟨rfl, -⟩ := hlog
        rcases renewLock_cases key token ttl reading w.locks with h | ⟨row, hrow, howner, -⟩
        · show (renewLock key token ttl reading w.locks).2 = w.locks
          rw [h]
        · exact absurd howner (hother row hrow)
    · intro reading' hlog
      simp only [List.cons.injEq, Outcome.mk.injEq, and_true] at hlog
      obtain ⟨rfl, -, hgranted⟩ := hlog
      cases hcheck : checkLease key token w.clock w.locks with
      | error e =>
          simp only [transaction, hcheck] at hgranted
          cases hgranted
      | ok u =>
          obtain ⟨row, hrow, rfl, hlt⟩ := checkLease_eq_ok_iff.1 hcheck
          obtain ⟨hheld, hlast⟩ := hw.row key row hrow
          exact ⟨hlast, row.expiresAt, hheld, hlt⟩

section Runs

/-- The call of the reset of a key, for ten seconds, and what a caller was granted by it. -/
private def reset (ownerToken : String) : Request := .acquire "reset" ownerToken "reset" 10

/-- `A` takes the key at once.  `B` reads the clock five seconds later, and its transaction waits.
After another seven seconds `C` takes the key, and gives it back. -/
private def lateAcquire : List LeaseAction :=
  [.begin (reset "A"), .commit 0, .tick (seconds 5), .begin (reset "B"), .tick (seconds 12),
    .begin (reset "C"), .commit 1, .begin (.release "reset" "C"), .commit 1]

/-- While `A` is within its lease, nobody else is. -/
theorem lease_exclusion_at_five :
    ∃ w : Leases, held "reset" "A" w.log = some (seconds 10) ∧ w.clock = seconds 5 ∧
      ∀ token e, held "reset" token w.log = some e → w.clock < e → token = "A" := by
  have hrun : (leases.run { clock := 0 } (lateAcquire.take 4)).any (fun w =>
      decide (held "reset" "A" w.log = some (seconds 10) ∧ w.clock = seconds 5)) = true := by
    decide +kernel
  obtain ⟨w, hreach, hheld, hclock⟩ := Machine.exists_of_run hrun
  refine ⟨w, hheld, hclock, fun token e he hlt => ?_⟩
  have hbefore : w.clock < seconds 10 := by
    rw [hclock]
    decide
  exact (lease_exclusion hreach).1 _ _ _ _ _ he hheld hlt hbefore

/-- **A reading before what another was granted is enough once a third one has given the key
back**: `B` is granted the key with a reading before the expiry of `A`, which has not released it. -/
theorem acquired_by_earlier_reading :
    ∃ w w' reading e, leases.Reaches (fun _ _ => True) { clock := 0 } w ∧
      held "reset" "A" w.log = some e ∧ reading < e ∧ leases.step w (.commit 0) = some w' ∧
      w'.log = ⟨reset "B", reading, true⟩ :: w.log := by
  have hrun : (leases.run { clock := 0 } lateAcquire).any (fun w =>
      decide (held "reset" "A" w.log = some (seconds 10) ∧
        w.pending[0]? = some (reset "B", seconds 5) ∧ (w.locks "reset").isNone)) = true := by
    decide +kernel
  obtain ⟨w, hreach, hheld, hcall, hfree⟩ := Machine.exists_of_run hrun
  have hfree : w.locks "reset" = none := Option.isNone_iff_eq_none.1 hfree
  let w' : Leases :=
    { w with
      locks := Function.update w.locks "reset" (some ⟨"B", seconds 5, seconds 15, "reset"⟩)
      pending := w.pending.eraseIdx 0
      log := ⟨reset "B", seconds 5, true⟩ :: w.log }
  have hstep : w.step (.commit 0) = some w' := by
    simp only [Leases.step, hcall, Option.map_some, reset, transaction, acquireLock, hfree,
      Option.any_none, Bool.false_eq_true, if_false]
    rfl
  exact ⟨w, w', seconds 5, seconds 10, hreach, hheld, by decide, hstep, rfl⟩

end Runs

end Persistence

end TradePulse
