/-
**The broker's account activities, as evidence** (`reconciliation/bootstrap.py`, `completeness.py`).

An activity changes a position, or cash, or both.  What a position is follows from all activities
since inception, and P1 is that it does: for every asset, a baseline and the activities after it
add up to the broker's position.

Main definitions:

* `RawActivity`, `quantityEffect`, `cashEffect` — an activity as the broker sends it, and what it
  changes;
* `historyQuantities` — the positions that a list of activities adds up to;
* `conservationFailures`, `checkConservation` — the assets of which P1 does not hold;
* `checkInception` — the history begins where the account does.

Main results:

* `conservationFailures_eq_nil` — no failure is reported exactly where the activities add up.
-/

import TradePulse.Broker.Symbols
import TradePulse.Storage.OrderedDict
import Mathlib.Data.List.Sort
import Mathlib.Data.List.Dedup
import Mathlib.Algebra.Order.Floor.Ring
import Mathlib.Data.Rat.Floor

set_option autoImplicit false

namespace TradePulse

open Storage

/-- A field of an activity that should be a number. -/
inductive RawNumber
  | missing
  /-- A text or an integer. -/
  | exact (q : ℚ)
  /-- A floating-point number. -/
  | inexact (q : ℚ)
  | malformed
  deriving DecidableEq

/-- An activity as the broker sends it.  A text that is missing is blank. -/
structure RawActivity where
  id : String
  activityType : String
  symbol : String := ""
  side : String := ""
  qty : RawNumber := .missing
  price : RawNumber := .missing
  netAmount : RawNumber := .missing
  transactionTime : Option Instant := none
  /-- The day it happened (`activity_date`). -/
  day : ℤ := 0
  deriving DecidableEq

/-- `FillHistoryIncomplete`. -/
def fillHistoryIncomplete (reason : String) : Raised := ⟨.fillHistoryIncomplete, reason⟩

/-- `decimal.InvalidOperation`. -/
def invalidOperation : Raised := ⟨.other, "invalid operation"⟩

namespace RawActivity

/-- The activity is an execution of an order. -/
def isFill (raw : RawActivity) : Bool := raw.activityType == "FILL"

def buys (raw : RawActivity) : Bool := raw.side == "buy" || raw.side == "buy_to_cover"

/-- `_side`: whatever does not buy sells. -/
def tradeSide (raw : RawActivity) : Side := if raw.buys then .buy else .sell

/-- `_decimal`: a number that is evidence. -/
def exactDecimal (raw : RawActivity) (name : String) : RawNumber → Except Raised ℚ
  | .exact q => .ok q
  | .malformed => .error invalidOperation
  | _ => .error (fillHistoryIncomplete ("INVENTORY_EVIDENCE_INVALID: " ++ raw.id ++ " " ++ name))

/-- `Decimal(str(value or 0))`. -/
def orZero : RawNumber → Except Raised ℚ
  | .missing => .ok 0
  | .exact q => .ok q
  | .inexact q => .ok q
  | .malformed => .error invalidOperation

end RawActivity

/-- `CASH_ONLY_TYPES`: what moves cash only, whatever quantity it carries. -/
def cashOnlyTypes : List String :=
  ["CSD", "CSW", "JNLC", "JNLD", "INT", "INTNRA", "INTTW", "FEE", "PTC", "PTR", "REB", "CIL", "MEM",
    "WH", "DIV", "DIVCGL", "DIVCGS", "DIVFEE", "DIVFT", "DIVNRA", "DIVROC", "DIVTW", "DIVTXEX"]

/-- `FUNDING_TYPES`. -/
def fundingTypes : List String := ["CSD", "JNLC"]

/-- `multiplier_of`. -/
def multiplierOf (symbol : String) : ℚ :=
  if brokerSymbolAssetClass symbol.toList = .option then 100 else 1

/-- `quantity_effect`: the asset and the signed quantity, for an activity that changes a position.  A
type that changes quantities in a way not modelled is refused. -/
def quantityEffect (raw : RawActivity) : Except Raised (Option (String × ℚ)) :=
  if raw.isFill then do
    let quantity ← raw.exactDecimal "qty" raw.qty
    let key ← brokerSymbolAssetKey raw.symbol
    return some (key, if raw.buys then quantity else -quantity)
  else if raw.activityType = "CFEE" then do
    let quantity ← RawActivity.orZero raw.qty
    if quantity = 0 then return none
    else do
      let key ← brokerSymbolAssetKey raw.symbol
      return some (key, quantity)
  else if raw.activityType ∈ cashOnlyTypes ∨ raw.symbol = "" then return none
  else .error (fillHistoryIncomplete ("FILL_HISTORY_INCOMPLETE: unmodelled " ++ raw.activityType))

/-- `Decimal.quantize` to the cent, `ROUND_HALF_UP`. -/
def roundToCent (q : ℚ) : ℚ :=
  if 0 ≤ q then ⌊q * 100 + 1 / 2⌋ / 100 else -(⌊-q * 100 + 1 / 2⌋ / 100)

/-- `cash_effect`: a fill moves its notional, rounded to the cent; an exact half cent is refused.
Everything else moves its net amount. -/
def cashEffect (raw : RawActivity) : Except Raised ℚ :=
  if raw.isFill then do
    let quantity ← raw.exactDecimal "qty" raw.qty
    let price ← raw.exactDecimal "price" raw.price
    let notional := quantity * price * multiplierOf raw.symbol
    if 0 ≤ notional ∧ Int.fract (notional * 100) = 1 / 2 then
      .error (fillHistoryIncomplete "FILL_HISTORY_INCOMPLETE: rounding tie")
    else return if raw.buys then -roundToCent notional else roundToCent notional
  else RawActivity.orZero raw.netAmount

/-! ### Conservation -/

/-- Quantities by asset. -/
abbrev Quantities := OrderedDict String ℚ

/-- What is held of an asset, zero where nothing is said. -/
def Quantities.of (q : Quantities) (key : String) : ℚ := (OrderedDict.get? q key).getD 0

def Quantities.add (q : Quantities) (key : String) (quantity : ℚ) : Quantities :=
  OrderedDict.insert q key (q.of key + quantity)

/-- The quantities after an effect. -/
def applyEffect (totals : Quantities) : Option (String × ℚ) → Quantities
  | none => totals
  | some (key, quantity) => totals.add key quantity

/-- The quantities after some activities. -/
def addEffects (totals : Quantities) : List RawActivity → Except Raised Quantities
  | [] => .ok totals
  | raw :: raws => do
      let effect ← quantityEffect raw
      addEffects (applyEffect totals effect) raws

/-- `history_quantities`. -/
def historyQuantities (raws : List RawActivity) : Except Raised Quantities :=
  addEffects .empty raws

/-- A set of texts, in their order. -/
def sortedSet (l : List String) : List String := l.dedup.insertionSort (· ≤ ·)

/-- The assets of which two sides say something different. -/
def mismatched (totals positions : Quantities) : List String :=
  (totals.keys ++ positions.keys).filter fun key => totals.of key ≠ positions.of key

/-- The loop of `conservation_failures`.  An activity whose effect is not modelled makes its own
asset unproven. -/
def conserve : List RawActivity → Quantities → List String → Except Raised (Quantities × List String)
  | [], totals, unmodelled => .ok (totals, unmodelled)
  | raw :: raws, totals, unmodelled =>
      match quantityEffect raw with
      | .ok effect => conserve raws (applyEffect totals effect) unmodelled
      | .error e =>
          if e.cls = .fillHistoryIncomplete then do
            let key ← brokerSymbolAssetKey raw.symbol
            conserve raws totals (key :: unmodelled)
          else .error e

/-- `conservation_failures`. -/
def conservationFailures (raws : List RawActivity) (positions baseline : Quantities) :
    Except Raised (List String) := do
  let (totals, unmodelled) ← conserve raws baseline []
  return sortedSet (mismatched totals positions ++ unmodelled)

/-- `check_conservation`, from no baseline. -/
def checkConservation (raws : List RawActivity) (positions : Quantities) :
    Except Raised (List String) := do
  let totals ← historyQuantities raws
  return sortedSet (mismatched totals positions)

/-- The sum of the cash effects. -/
def historyCash : List RawActivity → Except Raised ℚ
  | [] => .ok 0
  | raw :: raws => do
      let effect ← cashEffect raw
      let rest ← historyCash raws
      return effect + rest

/-- The first activity that moves cash. -/
def firstCash : List RawActivity → Except Raised (Option (RawActivity × ℚ))
  | [] => .ok none
  | raw :: raws => do
      let effect ← cashEffect raw
      if effect ≠ 0 then return some (raw, effect) else firstCash raws

/-- `check_inception`. -/
def checkInception (raws : List RawActivity) (accountCreated : Option ℤ) : Except Raised Unit :=
  match raws, accountCreated with
  | raw :: raws, some created => do
      if raw.day < created then .error (fillHistoryIncomplete "FILL_HISTORY_INCOMPLETE: inception")
      else
        match ← firstCash (raw :: raws) with
        | none => .error (fillHistoryIncomplete "FILL_HISTORY_INCOMPLETE: inception")
        | some (first, effect) =>
            raiseIf (first.activityType ∉ fundingTypes ∨ effect ≤ 0)
              (fillHistoryIncomplete "FILL_HISTORY_INCOMPLETE: inception")
  | _, _ => .error (fillHistoryIncomplete "FILL_HISTORY_INCOMPLETE: inception")

/-! ### What is reported -/

@[simp] theorem mem_sortedSet {l : List String} {key : String} : key ∈ sortedSet l ↔ key ∈ l := by
  simp [sortedSet, List.mem_insertionSort, List.mem_dedup]

theorem sortedSet_eq_nil {l : List String} : sortedSet l = [] ↔ l = [] := by
  rw [List.eq_nil_iff_forall_not_mem, List.eq_nil_iff_forall_not_mem]
  simp

/-- Nothing differs exactly where both sides say the same of every asset. -/
theorem mismatched_eq_nil {totals positions : Quantities} :
    mismatched totals positions = [] ↔ ∀ key, totals.of key = positions.of key := by
  simp only [mismatched, ne_eq, decide_not, List.filter_eq_nil_iff, List.mem_append,
    Bool.not_eq_true', decide_eq_false_iff_not, Decidable.not_not]
  constructor
  · intro h key
    by_cases hkey : key ∈ totals.keys ∨ key ∈ positions.keys
    · exact h key hkey
    · rw [not_or] at hkey
      have ht := OrderedDict.get?_eq_none_iff.2 hkey.1
      have hp := OrderedDict.get?_eq_none_iff.2 hkey.2
      simp [Quantities.of, ht, hp]
  · exact fun h key _ => h key

theorem conserve_eq_ok_nil {raws : List RawActivity} {totals totals' : Quantities}
    {unmodelled : List String} :
    conserve raws totals unmodelled = .ok (totals', []) ↔
      unmodelled = [] ∧ addEffects totals raws = .ok totals' := by
  induction raws generalizing totals unmodelled with
  | nil => simp [conserve, addEffects, and_comm]
  | cons raw raws ih =>
      simp only [conserve, addEffects]
      cases heffect : quantityEffect raw with
      | ok effect =>
          simp only [bind, Except.bind]
          exact ih
      | error e =>
          simp only [bind, Except.bind, reduceCtorEq, and_false, iff_false]
          intro h
          split at h
          · cases hkey : brokerSymbolAssetKey raw.symbol with
            | error e' =>
                rw [hkey] at h
                cases h
            | ok key =>
                rw [hkey] at h
                exact absurd (ih.1 h).1 (List.cons_ne_nil _ _)
          · cases h

/-- **No failure is reported** exactly where the baseline and the activities add up to the
positions. -/
theorem conservationFailures_eq_nil {raws : List RawActivity} {positions baseline : Quantities} :
    conservationFailures raws positions baseline = .ok [] ↔
      ∃ totals, addEffects baseline raws = .ok totals ∧
        ∀ key, totals.of key = positions.of key := by
  unfold conservationFailures
  rw [except_bind_eq_ok]
  constructor
  · rintro ⟨⟨totals, unmodelled⟩, hconserve, hret⟩
    have hnil : sortedSet (mismatched totals positions ++ unmodelled) = [] := by
      simpa [pure, Except.pure] using hret
    rw [sortedSet_eq_nil, List.append_eq_nil_iff] at hnil
    obtain ⟨hmis, rfl⟩ := hnil
    exact ⟨totals, (conserve_eq_ok_nil.1 hconserve).2, mismatched_eq_nil.1 hmis⟩
  · rintro ⟨totals, hadd, hall⟩
    refine ⟨(totals, []), conserve_eq_ok_nil.2 ⟨rfl, hadd⟩, ?_⟩
    simp only [List.append_nil, mismatched_eq_nil.2 hall]
    rfl

end TradePulse
