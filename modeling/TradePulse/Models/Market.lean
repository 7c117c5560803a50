/-
**Enumerations, exceptions, validated records and instruments.**

The vocabulary of `tradepulse/models`: its enumerations, the exceptions that procedures raise, the
way a record checks itself when it is built, and the identity of a financial instrument.

Decimals are rational numbers and instants are numbers of microseconds.  An exception carries the
text that its readers test by prefix; the numbers the source formats into such a text are left
out of it.

Main definitions:

* `Raised` — an exception: its class and its text;
* `Checked`, `Valid` — records that validate themselves when they are built (`__post_init__`);
* `AssetIdentity`, `assetIdentityKey`, `contractMultiplierOf` — instruments.
-/

import Mathlib.Data.Rat.Defs
import Mathlib.Algebra.Order.Ring.Rat
import Mathlib.Data.List.AList

set_option autoImplicit false

namespace TradePulse

/-- Microseconds since the epoch, in UTC. -/
abbrev Instant := ℤ

/-- A number of seconds as a difference of instants. -/
def seconds (n : ℕ) : ℤ := n * 1000000

/-- A dictionary with text keys. -/
abbrev Dict (α : Type) := AList fun _ : String => α

instance {α : Type} [DecidableEq α] : DecidableEq (Dict α) := fun d d' =>
  decidable_of_iff (d.entries = d'.entries) ⟨AList.ext, fun h => h ▸ rfl⟩

/-! ### Enumerations -/

inductive AssetClass
  | equity | crypto | option | forex | commodity | fixedIncome
  deriving DecidableEq

def AssetClass.value : AssetClass → String
  | equity => "equity"
  | crypto => "crypto"
  | option => "option"
  | forex => "forex"
  | commodity => "commodity"
  | fixedIncome => "fixed_income"

inductive Side
  | buy | sell
  deriving DecidableEq

def Side.value : Side → String
  | buy => "buy"
  | sell => "sell"

inductive ExecutionMode
  | paper | live
  deriving DecidableEq

def ExecutionMode.value : ExecutionMode → String
  | paper => "paper"
  | live => "live"

inductive SettlementStatus
  | pending | processing | completed | retryableFailed | terminalFailed | integrityBlocked
  deriving DecidableEq

def SettlementStatus.value : SettlementStatus → String
  | pending => "pending"
  | processing => "processing"
  | completed => "completed"
  | retryableFailed => "retryable_failed"
  | terminalFailed => "terminal_failed"
  | integrityBlocked => "integrity_blocked"

/-- An order-level hold: temporary while a check could not be made, or permanent. -/
inductive IntegrityHoldType
  | verificationPending | fillQuantityDisputed | shortExposure | mixedLotOrigin
  deriving DecidableEq

def IntegrityHoldType.value : IntegrityHoldType → String
  | verificationPending => "verification_pending"
  | fillQuantityDisputed => "fill_quantity_disputed"
  | shortExposure => "short_exposure"
  | mixedLotOrigin => "mixed_lot_origin"

inductive TradeIntentStatus
  | proposed | riskApproved | submitted | accepted | partiallyFilled | filled | rejected | canceled
  | expired | failed | submissionUnknown
  deriving DecidableEq

def TradeIntentStatus.value : TradeIntentStatus → String
  | proposed => "proposed"
  | riskApproved => "risk_approved"
  | submitted => "submitted"
  | accepted => "accepted"
  | partiallyFilled => "partially_filled"
  | filled => "filled"
  | rejected => "rejected"
  | canceled => "canceled"
  | expired => "expired"
  | failed => "failed"
  | submissionUnknown => "submission_unknown"

inductive PositionSide
  | long | short
  deriving DecidableEq

def PositionSide.value : PositionSide → String
  | long => "long"
  | short => "short"

/-! ### Exceptions -/

/-- The classes of exceptions that some handler or some reader tells apart. -/
inductive ErrorClass
  | valueError | integrityViolation | repositoryIntegrityHold | repositoryLeaseLost
  | repositoryPrecondition | projectionEvidence | alpaca | fillHistoryIncomplete | other
  deriving DecidableEq

/-- An exception that was raised. -/
structure Raised where
  cls : ErrorClass
  text : String
  deriving DecidableEq

namespace Raised

def valueError (text : String) : Raised := ⟨.valueError, text⟩
def integrityViolation (text : String) : Raised := ⟨.integrityViolation, text⟩
def projectionEvidence (text : String) : Raised := ⟨.projectionEvidence, text⟩

end Raised

/-- Raise when a condition holds. -/
def raiseIf (p : Prop) [Decidable p] (e : Raised) : Except Raised Unit :=
  if p then .error e else .ok ()

@[simp] theorem raiseIf_eq_ok_iff {p : Prop} [Decidable p] {e : Raised} {u : Unit} :
    raiseIf p e = .ok u ↔ ¬ p := by
  unfold raiseIf
  split <;> simp_all

/-- A computation that succeeded in two steps. -/
theorem except_bind_eq_ok {ε α β : Type} {x : Except ε α} {f : α → Except ε β} {b : β} :
    (x >>= f) = .ok b ↔ ∃ a, x = .ok a ∧ f a = .ok b := by
  cases x with
  | error e => simp [bind, Except.bind]
  | ok a => simp [bind, Except.bind]

/-! ### Records that validate themselves -/

/-- The checks a record makes when it is built, in order, each with the text it raises. -/
class Checked (α : Type) where
  checks : α → List (Bool × String)

/-- A record all of whose checks pass. -/
def Valid {α : Type} [Checked α] (a : α) : Prop := ∀ c ∈ Checked.checks a, c.1 = true

instance {α : Type} [Checked α] (a : α) : Decidable (Valid a) :=
  inferInstanceAs (Decidable (∀ c ∈ Checked.checks a, c.1 = true))

/-- The text of the first check that fails. -/
def firstFailure {α : Type} [Checked α] (a : α) : String :=
  (((Checked.checks a).find? fun c => !c.1).map Prod.snd).getD ""

/-- The exception raised by the first check that fails. -/
def Checked.failure {α : Type} [Checked α] (a : α) : Raised := .valueError (firstFailure a)

/-- The check of a required text. -/
def textCheck (s field : String) : Bool × String := (s != "", field ++ " is required")

/-- The check of a positive decimal. -/
def positiveCheck (q : ℚ) (field : String) : Bool × String :=
  (decide (0 < q), field ++ " must be positive")

/-- The check of a nonnegative decimal. -/
def nonnegativeCheck (q : ℚ) (field : String) : Bool × String :=
  (decide (0 ≤ q), field ++ " must be nonnegative")

/-- The check of a positive decimal that may be absent. -/
def optionalPositiveCheck (q : Option ℚ) (field : String) : Bool × String :=
  (q.all fun x => decide (0 < x), field ++ " must be positive")

@[simp] theorem textCheck_fst (s field : String) : (textCheck s field).1 = true ↔ s ≠ "" := by
  simp [textCheck]

@[simp] theorem positiveCheck_fst (q : ℚ) (field : String) :
    (positiveCheck q field).1 = true ↔ 0 < q := by
  simp [positiveCheck]

@[simp] theorem nonnegativeCheck_fst (q : ℚ) (field : String) :
    (nonnegativeCheck q field).1 = true ↔ 0 ≤ q := by
  simp [nonnegativeCheck]

@[simp] theorem optionalPositiveCheck_fst (q : Option ℚ) (field : String) :
    (optionalPositiveCheck q field).1 = true ↔ ∀ x ∈ q, 0 < x := by
  cases q <;> simp [optionalPositiveCheck]

/-! ### Instruments -/

/-- A financial instrument.  Of its metadata only the contract multiplier is read here. -/
structure AssetIdentity where
  symbol : String
  assetClass : AssetClass
  nativeAssetId : String
  venue : Option String := none
  contractMultiplier : Option ℚ := none
  deriving DecidableEq

/-- The one definition of instrument equality: class, venue and broker-native identifier. -/
def assetIdentityKey (asset : AssetIdentity) : String :=
  let venue := match asset.venue with
    | some v => if v = "" then "default" else v
    | none => "default"
  asset.assetClass.value ++ ":" ++ venue.toLower ++ ":" ++ asset.nativeAssetId

/-- Units of the underlying that one contract stands for; an option must say. -/
def contractMultiplierOf (asset : AssetIdentity) : Except Raised ℚ :=
  match asset.contractMultiplier with
  | some m => .ok m
  | none =>
      if asset.assetClass = .option then .error (.valueError "option contract multiplier missing")
      else .ok 1

/-- The limits of a risk profile that the monitor reads, with the source's defaults. -/
structure RiskLimits where
  /-- The unrealized gain, in per cent, at which the stop moves to break-even. -/
  breakEvenTriggerPct : ℚ := 4
  /-- How far the trailing stop stays behind the running high, in multiples of the ATR. -/
  trailingAtrMultiplier : ℚ := 5 / 2
  deriving DecidableEq

end TradePulse
