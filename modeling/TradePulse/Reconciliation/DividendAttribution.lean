/-
**The attribution of a dividend** (`reconciliation/dividend_attribution.py`).

The cash of a dividend is booked as soon as the broker reports it; where each amount belongs is
decided afterwards.  A group of activities, one income and what was withheld of it, goes to those
who held the instrument before the ex-date: to lots of the strategy, to an inherited holding, or to
nobody in particular.  A dividend that the broker takes back comes as activities of its own, with
the signs turned round; they are given the rows of the group that they take back, each with its
amount negated.

Both functions of this module are pure: what they read of the database is passed to them.  The
announcements are stored as the broker wrote them, and a decision reads their dates and amounts
where it needs them; what cannot be read raises, and nobody catches it.

Main definitions:

* `Member`, `Announcement`, `StrategyLot`, `Inherited` — what a decision rests on;
* `candidates`, `evaluate`, `chosen`, `attributed` — the steps of a decision;
* `split` — an amount in proportion to weights, to the cent;
* `Dividends.decide` — the attribution of a group;
* `mirrorPairs`, `mirror` — which original each activity of a reversal takes back, and the rows
  that the reversal is given.

Main results:

* `decide_settled` — a group that is attributed has an income, and its rows are of its activities;
* `mirrorPairs_isSome` — a reversal with the amounts of an original, turned round, is paired with it;
* `mirrorPairs_originals`, `mirrorPairs_reversals` — a reversal that matches pairs each of its
  activities with one of the originals, and no two with the same;
* `amountOf_mirroredRows` — what a reversal's activity is given of each holder is what the original
  was given, negated.
-/

import TradePulse.Reconciliation.GenerationFees
import TradePulse.Storage.Agreement

set_option autoImplicit false

namespace TradePulse

open HistoricalFees Storage

namespace Dividends

/-! ### Trade dates -/

/-- A time as the clocks of New York show it: the day, and what has passed of it. -/
structure LocalTime where
  day : ℤ
  sinceMidnight : Instant
  deriving DecidableEq

/-- `time(20)`. -/
def evening : Instant := seconds (20 * 3600)

/-- `trade_date`: a fill of the evening before the ex-date may belong to either day. -/
def tradeDate (newYork : Instant → LocalTime) (filledAt : Instant) (exDate : ℤ) :
    Except String ℤ :=
  let there := newYork filledAt
  if there.day = exDate - 1 ∧ evening ≤ there.sinceMidnight then
    .error "DIVIDEND_TRADE_DATE_AMBIGUOUS"
  else if evening ≤ there.sinceMidnight then .ok (there.day + 1)
  else .ok there.day

structure StrategyLot where
  lotId : String
  openedQuantity : ℚ
  openedAt : Instant
  /-- The quantities closed, with the times of the closing fills. -/
  closures : List (ℚ × Instant)
  deriving DecidableEq

/-- What was closed of a lot before the ex-date. -/
def closedBefore (newYork : Instant → LocalTime) (exDate : ℤ) :
    List (ℚ × Instant) → Except String ℚ
  | [] => .ok 0
  | (quantity, closedAt) :: rest => do
      let day ← tradeDate newYork closedAt exDate
      let others ← closedBefore newYork exDate rest
      return if day < exDate then quantity + others else others

/-- `eligible_strategy`: per lot, what was held at the start of the ex-date. -/
def eligibleStrategy (newYork : Instant → LocalTime) (exDate : ℤ) :
    List StrategyLot → OrderedDict String ℚ → Except String (OrderedDict String ℚ)
  | [], eligible => .ok eligible
  | lot :: rest, eligible => do
      let opened ← tradeDate newYork lot.openedAt exDate
      if exDate ≤ opened then eligibleStrategy newYork exDate rest eligible
      else
        let held := lot.openedQuantity - (← closedBefore newYork exDate lot.closures)
        eligibleStrategy newYork exDate rest
          (if 0 < held then eligible.insert lot.lotId held else eligible)

/-! ### What a decision rests on -/

/-- `Inherited`: the inherited quantity, when the evidence establishes it. -/
structure Inherited where
  established : Bool
  quantity : Option ℚ
  bucket : String := "opening_unadopted"
  holderId : String := "opening_unadopted"
  deriving DecidableEq

inductive Component
  | income | withholding
  deriving DecidableEq

def Component.text : Component → String
  | income => "income"
  | withholding => "withholding"

/-- A text as `Decimal` reads it: no number where it is not finite, and an exception where it is no
decimal. -/
abbrev DecimalText := Except Raised (Option ℚ)

/-- One activity of a dividend group. -/
structure Member where
  activityId : String
  component : Component
  amount : ℚ
  qty : Option ℚ
  rate : Option ℚ
  /-- `raw.get(WITHHELD_FIELD)`, where it is a text. -/
  withheld : Option DecimalText
  deriving DecidableEq

/-- An announcement as the statuses refer to it. -/
structure AnnouncementRef where
  announcementId : String
  sha256 : String
  deriving DecidableEq

/-- An announcement as it is stored: what the broker wrote, whether or not it can be read. -/
structure Announcement extends AnnouncementRef where
  caType : Option String
  caSubType : Option String
  initiatingSymbol : Option String
  targetSymbol : Option String
  /-- `raw.get("cash")`, where it is a text. -/
  cash : Option DecimalText
  /-- `date.fromisoformat(raw["ex_date"])`. -/
  exDate : Except Raised ℤ
  /-- `date.fromisoformat(raw["payable_date"])`. -/
  payableDate : Except Raised ℤ
  deriving DecidableEq

/-- `DIVIDEND_REPRESENTATION`. -/
inductive Representation
  | grossAndSeparateWithholding | netWithWithholdingRecord | unknown
  deriving DecidableEq

/-- A row of `dividend_attributions`. -/
structure AttributionRow where
  activityId : String
  component : Component
  bucket : String
  holderId : String
  eligibleQty : Option ℚ
  quantityEvidence : String
  amount : ℚ
  announcementId : String
  announcementSha256 : String
  deriving DecidableEq

instance : Record AttributionRow where
  recordId r := r.activityId ++ "|" ++ r.component.text ++ "|" ++ r.bucket ++ "|" ++ r.holderId
  uniqueValue _ := none

/-- `Decision`. -/
structure Decision where
  attributionStatus : AttributionStatus
  entitlementEstablished : Option Bool
  reason : Option String
  announcement : Option AnnouncementRef := none
  rows : List AttributionRow := []
  deriving DecidableEq

/-- Attributed: verified, or excluded and allocated to nobody. -/
def settled : AttributionStatus → Bool
  | .verified | .excludedUnallocated => true
  | .pending | .unresolved => false

/-- Why a group is not attributed. -/
inductive Halt
  | pending (reason : String)
  | unresolved (reason : String) (entitlementEstablished : Option Bool)
  | raised (e : Raised)
  deriving DecidableEq

/-- What came of a decision. -/
def concluded : Except Halt Decision → Except Raised Decision
  | .ok decision => .ok decision
  | .error (.pending reason) => .ok { attributionStatus := .pending
                                      entitlementEstablished := none
                                      reason := some reason }
  | .error (.unresolved reason established) =>
      .ok { attributionStatus := .unresolved
            entitlementEstablished := established
            reason := some reason }
  | .error (.raised e) => .error e

theorem concluded_settled {x : Except Halt Decision} {d : Decision} (h : concluded x = .ok d)
    (hd : settled d.attributionStatus = true) : x = .ok d := by
  cases x with
  | ok e =>
      simp only [concluded, Except.ok.injEq] at h
      rw [h]
  | error halt =>
      cases halt with
      | pending reason =>
          simp only [concluded, Except.ok.injEq] at h
          simp [← h, settled] at hd
      | unresolved reason established =>
          simp only [concluded, Except.ok.injEq] at h
          simp [← h, settled] at hd
      | raised e => simp [concluded] at h

def haltIf (p : Prop) [Decidable p] (halt : Halt) : Except Halt Unit :=
  if p then .error halt else .ok ()

theorem haltIf_eq_ok_iff {p : Prop} [Decidable p] {halt : Halt} {u : Unit} :
    haltIf p halt = .ok u ↔ ¬ p := by
  unfold haltIf
  split <;> simp_all

/-- What `Unresolved` says becomes the reason. -/
def orUnresolved {α : Type} : Except String α → Except Halt α
  | .ok a => .ok a
  | .error reason => .error (.unresolved reason none)

/-- What is raised here leaves the decision: only `Unresolved` is caught. -/
def orRaised {α : Type} : Except Raised α → Except Halt α
  | .ok a => .ok a
  | .error e => .error (.raised e)

/-! ### The decision -/

/-- The announcement is payable by the day of the credit. -/
def payableBy (credit : ℤ) (item : Announcement) : Except Halt Bool := do
  let payableDate ← orRaised item.payableDate
  return payableDate ≤ credit

/-- The test of `candidates`: the date is read only where the cash is the rate. -/
def isCandidate (symbol : String) (rate : ℚ) (credit : ℤ) (consumed : List String)
    (item : Announcement) : Except Halt Bool :=
  if item.caType ≠ some "dividend" ∨ item.caSubType ≠ some "cash" then .ok false
  else if ¬ (item.initiatingSymbol = some symbol ∨ item.targetSymbol = some symbol) ∨
      item.announcementId ∈ consumed then .ok false
  else
    match item.cash with
    | none => .ok false
    | some text => do
        let cash ← orRaised text
        if cash = some rate then payableBy credit item else .ok false

/-- `candidates`. -/
def candidates (symbol : String) (rate : ℚ) (credit : ℤ) (announcements : List Announcement)
    (consumed : List String) : Except Halt (List Announcement) :=
  filterIn (isCandidate symbol rate credit consumed) announcements

/-- The announcements of cash that is payable by the day of the credit. -/
def rated (credit : ℤ) (announcements : List Announcement) : Except Halt (List Announcement) :=
  filterIn (fun item => if item.caSubType = some "cash" then payableBy credit item else .ok false)
    announcements

/-- Go on with the announcements that were found, if there are any. -/
def haltUnfound (found : List Announcement) (credit : ℤ) (announcements : List Announcement) :
    Except Halt Unit :=
  if found ≠ [] then .ok ()
  else do
    let others ← rated credit announcements
    .error (.pending (if others ≠ [] then "DIVIDEND_RATE_MISMATCH"
      else "DIVIDEND_ANNOUNCEMENT_NOT_FOUND"))

/-- The sum of what was withheld: `none` at the first activity that names no amount. -/
def withheldTotal : List Member → Except Raised (Option (Option ℚ))
  | [] => .ok (some (some 0))
  | w :: rest =>
      match w.withheld with
      | none => .ok none
      | some text => do
          let value ← text
          let others ← withheldTotal rest
          return others.map fun others => (value.bind fun v => others.map (|v| + ·))

/-- The check of a net amount against what was withheld. -/
def netFailure (amount gross : ℚ) : Option (Option ℚ) → Option String
  | none => some "DIVIDEND_RECEIPT_INCOMPLETE"
  | some withheld =>
      if withheld.map (amount + ·) = some gross then none else some "DIVIDEND_AMOUNT_MISMATCH"

/-- `amount_check`: the reason on failure. -/
def amountCheck (income : Member) (withholdings : List Member) (representation : Representation) :
    Except Halt (Option String) :=
  match income.qty, income.rate with
  | some qty, some rate =>
      let gross := roundToCent (qty * rate)
      match representation with
      | .grossAndSeparateWithholding =>
          .ok <|
            if withholdings.any (fun w => 0 ≤ w.amount) then
              some "DIVIDEND_REPRESENTATION_INCONSISTENT"
            else if income.amount ≠ gross ∨
                income.amount < (withholdings.map fun w => -w.amount).sum then
              some "DIVIDEND_AMOUNT_MISMATCH"
            else none
      | .netWithWithholdingRecord =>
          if withholdings.any (fun w => w.amount ≠ 0) then
            .ok (some "DIVIDEND_REPRESENTATION_INCONSISTENT")
          else do
            let total ← orRaised (withheldTotal withholdings)
            return netFailure income.amount gross total
      | .unknown => .ok (some "DIVIDEND_REPRESENTATION_UNKNOWN")
  | _, _ => .ok (some "DIVIDEND_RECEIPT_INCOMPLETE")

/-- What a holder weighs, and under which bucket and evidence. -/
structure Share where
  weight : ℚ
  bucket : String
  evidence : String
  deriving DecidableEq

/-- `int`: toward zero. -/
def truncated (q : ℚ) : ℤ := if 0 ≤ q then ⌊q⌋ else ⌈q⌉

/-- `l[:n]`. -/
def sliceTo {α : Type} (l : List α) (n : ℤ) : List α :=
  if 0 ≤ n then l.take n.toNat else l.take (l.length - (-n).toNat)

/-- The holder with the larger remainder comes first; among equals, the smaller name. -/
def LargerRemainder (a b : String × ℚ) : Prop :=
  b.2 - truncated b.2 < a.2 - truncated a.2 ∨
    (a.2 - truncated a.2 = b.2 - truncated b.2 ∧ a.1 ≤ b.1)

instance : DecidableRel LargerRemainder := fun _ _ => inferInstanceAs (Decidable (_ ∨ _))

/-- `split`: largest remainder on cents, ties broken by holder.  The quotients are exact here; the
rounding of a `Decimal` can decide among equals before the name does: 0.30 over the weights 4, 4 and
1 is 0.13, 0.13 and 0.04 there, and 0.14, 0.13 and 0.03 here. -/
def split (amount : ℚ) (weights : OrderedDict String Share) : Except Halt (List (String × ℚ)) := do
  haltIf (amount ≠ roundToCent amount) (.unresolved "DIVIDEND_AMOUNT_NOT_CENTS" none)
  let total := (weights.values.map Share.weight).sum
  haltIf (total = 0 ∧ weights.entries ≠ []) (.raised ⟨.other, "decimal.DivisionByZero"⟩)
  let cents := truncated (|amount| * 100)
  let sign : ℚ := if amount < 0 then -1 else 1
  let exact := weights.entries.map fun e => (e.1, cents * e.2.weight / total)
  let left := cents - (exact.map fun e => truncated e.2).sum
  let raisedOnes := (sliceTo (exact.insertionSort LargerRemainder) left).map Prod.fst
  return exact.map fun e =>
    (e.1, sign * (truncated e.2 + if e.1 ∈ raisedOnes then 1 else 0) / 100)

/-- The rows of one activity of a group. -/
def rowsOf (announcement : AnnouncementRef) (weights : OrderedDict String Share) (member : Member) :
    Except Halt (List AttributionRow) := do
  let parts ← split member.amount weights
  return parts.filterMap fun part => (weights.get? part.1).map fun share =>
    { activityId := member.activityId
      component := member.component
      bucket := share.bucket
      holderId := part.1
      eligibleQty := if share.bucket = "excluded_unallocated" then none else some share.weight
      quantityEvidence := share.evidence
      amount := part.2
      announcementId := announcement.announcementId
      announcementSha256 := announcement.sha256 }

/-- An announcement, with what was held for its ex-date. -/
structure Evaluated where
  announcement : Announcement
  strategy : OrderedDict String ℚ
  inherited : Option Inherited

/-- `sum(s.values())`. -/
def Evaluated.total (e : Evaluated) : ℚ := e.strategy.values.sum

/-- The quantities explain what was paid for. -/
def Evaluated.explains (e : Evaluated) (qty : ℚ) : Bool :=
  match e.inherited with
  | none => e.total = qty
  | some i => i.established && e.total + i.quantity.getD 0 = qty

/-- The inherited quantity is not established. -/
def Evaluated.unestablished (e : Evaluated) : Bool := e.inherited.all fun i => !i.established

/-- The lots of the strategy, by what they held. -/
def strategyShares (strategy : OrderedDict String ℚ) : OrderedDict String Share :=
  OrderedDict.ofList (strategy.entries.map fun e => (e.1, ⟨e.2, "strategy", "fills"⟩))

/-- The status, whether the entitlement is established, and the weights of the holders. -/
structure Weighing where
  status : AttributionStatus
  established : Bool
  weights : OrderedDict String Share

/-- Who takes part, and with which weight. -/
def weigh (e : Evaluated) (qty : ℚ) : Except Halt Weighing :=
  let shares := strategyShares e.strategy
  match e.inherited with
  | some i =>
      if i.established then
        let quantity := i.quantity.getD 0
        .ok { status := .verified
              established := true
              weights := if quantity = 0 then shares
                else shares.insert i.holderId ⟨quantity, i.bucket, "checkpoint_plus_activity"⟩ }
      else if e.total = 0 then
        .ok { status := .excludedUnallocated
              established := false
              weights := OrderedDict.ofList
                [("excluded_unallocated", ⟨1, "excluded_unallocated", "not_established"⟩)] }
      else .error (.unresolved "DIVIDEND_INHERITED_QUANTITY_UNESTABLISHED" (some false))
  | none =>
      if e.total = 0 then
        .ok { status := .excludedUnallocated
              established := false
              weights := OrderedDict.ofList
                [("excluded_unallocated", ⟨1, "excluded_unallocated", "not_established"⟩)] }
      else if e.total = qty then .ok { status := .verified, established := true, weights := shares }
      else .error (.unresolved "DIVIDEND_ELIGIBLE_QUANTITY_UNEXPLAINED" none)

/-- The one announcement that is attributed. -/
def chosen (evaluated : List Evaluated) (qty : ℚ) : Except Halt Evaluated :=
  match evaluated.filter (·.explains qty) with
  | [e] => .ok e
  | _ :: _ :: _ => .error (.pending "DIVIDEND_ANNOUNCEMENT_AMBIGUOUS")
  | [] =>
      if evaluated.all Evaluated.unestablished then
        match evaluated with
        | [e] => .ok e
        | _ => .error (.unresolved "DIVIDEND_ANNOUNCEMENT_AMBIGUOUS" none)
      else .error (.pending "DIVIDEND_QUANTITY_MISMATCH")

/-- Everything that a decision reads besides the group. -/
structure Evidence where
  credit : ℤ
  announcements : List Announcement
  lots : List StrategyLot
  /-- The inherited quantity for an ex-date; `none` outside a run. -/
  inheritedFor : ℤ → Option Inherited
  quarantined : Bool

/-- An announcement, with what was held for its ex-date. -/
def evaluate (newYork : Instant → LocalTime) (e : Evidence) (item : Announcement) :
    Except Halt Evaluated := do
  let exDate ← orRaised item.exDate
  let strategy ← orUnresolved (eligibleStrategy newYork exDate e.lots OrderedDict.empty)
  return { announcement := item, strategy, inherited := e.inheritedFor exDate }

/-- What follows the choice of an announcement. -/
def attributed (group : List Member) (income : Member) (representation : Representation) (qty : ℚ)
    (one : Evaluated) : Except Halt Decision := do
  let exDate ← orRaised one.announcement.exDate
  let payableDate ← orRaised one.announcement.payableDate
  haltIf (payableDate < exDate) (.unresolved "DIVIDEND_SPECIAL_EX_DATE" none)
  match ← amountCheck income (group.filter (·.component = .withholding)) representation with
  | some failure =>
      if failure = "DIVIDEND_AMOUNT_MISMATCH" then .error (.pending failure)
      else .error (.unresolved failure none)
  | none => do
      let weighing ← weigh one qty
      haltIf (weighing.weights.entries = [])
        (.unresolved "DIVIDEND_ELIGIBLE_QUANTITY_UNEXPLAINED" none)
      let rows ← group.mapM (rowsOf one.announcement.toAnnouncementRef weighing.weights)
      return { attributionStatus := weighing.status
               entitlementEstablished := some weighing.established
               reason := none
               announcement := some one.announcement.toAnnouncementRef
               rows := rows.flatten }

/-- What is decided about a group with an income. -/
def decideIncome (newYork : Instant → LocalTime) (symbol : String) (group : List Member)
    (income : Member) (consumed : List String) (e : Evidence) (representation : Representation) :
    Except Halt Decision := do
  haltIf (e.quarantined = true) (.unresolved "DIVIDEND_ON_QUARANTINED_INSTRUMENT" none)
  haltIf (representation = .unknown) (.unresolved "DIVIDEND_REPRESENTATION_UNKNOWN" none)
  match income.qty, income.rate with
  | some qty, some rate => do
      let found ← candidates symbol rate e.credit e.announcements consumed
      haltUnfound found e.credit e.announcements
      let evaluated ← found.mapM (evaluate newYork e)
      let one ← chosen evaluated qty
      attributed group income representation qty one
  | _, _ => .error (.unresolved "DIVIDEND_RECEIPT_INCOMPLETE" none)

/-- `decide`: the attribution of one group (one income and its withholdings). -/
protected def decide (newYork : Instant → LocalTime) (symbol : String) (group : List Member)
    (consumed : List String) (e : Evidence) (representation : Representation) :
    Except Raised Decision :=
  concluded <|
    match group.find? (·.component = .income) with
    | none => .error (.pending "DIVIDEND_WITHHOLDING_UNPAIRED")
    | some income => decideIncome newYork symbol group income consumed e representation

/-! ### Reversals -/

/-- The activity of an original that an activity of a reversal takes back. -/
def takesBack (member o : Member) : Bool :=
  o.component = member.component ∧ o.amount = -member.amount ∧ o.qty = member.qty

/-- Each activity of a reversal with the first remaining original that it takes back: the
original's identity, and its own. -/
def mirrorPairs : List Member → List Member → Option (List (String × String))
  | [], _ => some []
  | member :: rest, remaining =>
      (remaining.find? (takesBack member)).bind fun o =>
        (mirrorPairs rest (remaining.erase o)).map ((o.activityId, member.activityId) :: ·)

/-- The rows of the originals, turned round and given to the reversal. -/
def mirroredRows (pairs : List (String × String)) (originalRows : List AttributionRow) :
    List AttributionRow :=
  originalRows.filterMap fun row => (pairs.lookup row.activityId).map fun id =>
    { row with activityId := id, amount := -row.amount }

/-- `mirror`: when every activity reverses exactly one original. -/
def mirror (originalRows : List AttributionRow) (reversal originals : List Member) :
    Option (List AttributionRow) :=
  if reversal.length ≠ originals.length then none
  else (mirrorPairs reversal originals).map (mirroredRows · originalRows)

/-! ### A settled decision -/

theorem rowsOf_activityId {a : AnnouncementRef} {weights : OrderedDict String Share} {m : Member}
    {rows : List AttributionRow} (h : rowsOf a weights m = .ok rows) {row : AttributionRow}
    (hrow : row ∈ rows) : row.activityId = m.activityId := by
  unfold rowsOf at h
  obtain ⟨parts, -, h⟩ := except_bind_eq_ok.1 h
  cases h
  obtain ⟨part, -, hpart⟩ := List.mem_filterMap.1 hrow
  obtain ⟨share, -, rfl⟩ := Option.map_eq_some_iff.1 hpart
  rfl

/-- What is attributed was weighed, and each activity has its rows. -/
theorem attributed_ok {group : List Member} {income : Member} {representation : Representation}
    {qty : ℚ} {one : Evaluated} {d : Decision}
    (h : attributed group income representation qty one = .ok d) :
    ∃ w rows, weigh one qty = .ok w ∧
      group.mapM (rowsOf one.announcement.toAnnouncementRef w.weights) = .ok rows ∧
      d = { attributionStatus := w.status
            entitlementEstablished := some w.established
            reason := none
            announcement := some one.announcement.toAnnouncementRef
            rows := rows.flatten } := by
  obtain ⟨_, -, h⟩ := except_bind_eq_ok.1 h
  obtain ⟨_, -, h⟩ := except_bind_eq_ok.1 h
  obtain ⟨_, -, h⟩ := except_bind_eq_ok.1 h
  obtain ⟨_, -, h⟩ := except_bind_eq_ok.1 h
  split at h
  · split at h <;> cases h
  · obtain ⟨w, hw, h⟩ := except_bind_eq_ok.1 h
    obtain ⟨_, -, h⟩ := except_bind_eq_ok.1 h
    obtain ⟨rows, hrows, h⟩ := except_bind_eq_ok.1 h
    exact ⟨w, rows, hw, hrows, (Except.ok.inj h).symm⟩

/-- What is decided about an income was attributed to one of the announcements found. -/
theorem decideIncome_ok {newYork : Instant → LocalTime} {symbol : String} {group : List Member}
    {income : Member} {consumed : List String} {e : Evidence} {representation : Representation}
    {d : Decision}
    (h : decideIncome newYork symbol group income consumed e representation = .ok d) :
    ∃ (qty : ℚ) (found : List Announcement) (evaluated : List Evaluated) (one : Evaluated),
      income.qty = some qty ∧ (∀ item ∈ found, item ∈ e.announcements) ∧
      found.mapM (evaluate newYork e) = .ok evaluated ∧ chosen evaluated qty = .ok one ∧
      attributed group income representation qty one = .ok d := by
  unfold decideIncome at h
  obtain ⟨-, -, h⟩ := except_bind_eq_ok.1 h
  obtain ⟨-, -, h⟩ := except_bind_eq_ok.1 h
  split at h
  · rename_i qty rate hqty _
    obtain ⟨found, hfound, h⟩ := except_bind_eq_ok.1 h
    obtain ⟨-, -, h⟩ := except_bind_eq_ok.1 h
    obtain ⟨evaluated, hevaluated, h⟩ := except_bind_eq_ok.1 h
    obtain ⟨one, hone, h⟩ := except_bind_eq_ok.1 h
    exact ⟨qty, found, evaluated, one, hqty, fun item hitem => mem_of_filterIn hfound hitem,
      hevaluated, hone, h⟩
  · cases h

/-- The rows of a decided group are of its activities. -/
theorem decideIncome_rows {newYork : Instant → LocalTime} {symbol : String} {group : List Member}
    {income : Member} {consumed : List String} {e : Evidence} {representation : Representation}
    {d : Decision}
    (h : decideIncome newYork symbol group income consumed e representation = .ok d)
    {row : AttributionRow} (hrow : row ∈ d.rows) :
    ∃ m ∈ group, row.activityId = m.activityId := by
  obtain ⟨qty, found, evaluated, one, -, -, -, -, h⟩ := decideIncome_ok h
  obtain ⟨w, rows, -, hrows, rfl⟩ := attributed_ok h
  obtain ⟨part, hpart, hin⟩ := List.mem_flatten.1 hrow
  obtain ⟨m, hm, hok⟩ := exists_left_of_forall₂ (forall₂_of_mapM hrows) hpart
  exact ⟨m, hm, rowsOf_activityId hok hin⟩

/-- **A group that is attributed has an income**, and its rows are of its own activities. -/
theorem decide_settled {newYork : Instant → LocalTime} {symbol : String} {group : List Member}
    {consumed : List String} {e : Evidence} {representation : Representation} {d : Decision}
    (h : Dividends.decide newYork symbol group consumed e representation = .ok d)
    (hd : settled d.attributionStatus = true) :
    (∃ m ∈ group, m.component = .income) ∧
      ∀ row ∈ d.rows, ∃ m ∈ group, row.activityId = m.activityId := by
  have hok := concluded_settled h hd
  cases hincome : group.find? (·.component = .income) with
  | none =>
      rw [hincome] at hok
      cases hok
  | some income =>
      rw [hincome] at hok
      refine ⟨⟨income, List.mem_of_find?_eq_some hincome, ?_⟩, fun row hrow =>
        decideIncome_rows hok hrow⟩
      simpa using List.find?_some hincome

/-! ### What a reversal is given -/

/-- The activities of the reversal are those of the original, with the signs turned round. -/
def Opposite (reversal originals : List Member) : Prop :=
  (reversal.map fun m => (m.component, -m.amount, m.qty)).Perm
    (originals.map fun m => (m.component, m.amount, m.qty))

instance (reversal originals : List Member) : Decidable (Opposite reversal originals) :=
  inferInstanceAs (Decidable (List.Perm _ _))

theorem Opposite.length_eq {reversal originals : List Member} (h : Opposite reversal originals) :
    reversal.length = originals.length := by
  simpa using List.Perm.length_eq h

/-- **Opposite activities can be paired**, whichever comes first. -/
theorem mirrorPairs_isSome {reversal originals : List Member} (h : Opposite reversal originals) :
    ∃ pairs, mirrorPairs reversal originals = some pairs := by
  induction reversal generalizing originals with
  | nil => exact ⟨[], rfl⟩
  | cons member rest ih =>
      -- some original has the key of the first activity, so the search ends at one
      obtain ⟨o, ho, hkey⟩ := List.mem_map.1 (h.subset List.mem_cons_self)
      obtain ⟨hcomponent, hamount, hqty⟩ : o.component = member.component ∧
          o.amount = -member.amount ∧ o.qty = member.qty := by simpa using hkey
      have hsome : (originals.find? (takesBack member)).isSome = true := by
        refine List.find?_isSome.2 ⟨o, ho, ?_⟩
        simp [takesBack, hcomponent, hamount, hqty]
      obtain ⟨found, hfound⟩ := Option.isSome_iff_exists.1 hsome
      have hmem := List.mem_of_find?_eq_some hfound
      have hback := List.find?_some hfound
      simp only [takesBack, decide_eq_true_eq] at hback
      have hrest : Opposite rest (originals.erase found) := by
        have hperm := (List.perm_cons_erase hmem).map fun m : Member =>
          (m.component, m.amount, m.qty)
        have hall := h.trans hperm
        rw [List.map_cons, List.map_cons, hback.1, hback.2.1, hback.2.2] at hall
        exact hall.cons_inv
      obtain ⟨others, hothers⟩ := ih hrest
      refine ⟨(found.activityId, member.activityId) :: others, ?_⟩
      simp only [mirrorPairs, hfound, hothers, Option.bind_some, Option.map_some]

/-- And activities that are all paired are opposite. -/
theorem opposite_of_mirrorPairs {reversal originals : List Member}
    {pairs : List (String × String)} (h : mirrorPairs reversal originals = some pairs)
    (hlen : reversal.length = originals.length) : Opposite reversal originals := by
  induction reversal generalizing originals pairs with
  | nil =>
      obtain rfl := List.eq_nil_of_length_eq_zero hlen.symm
      exact .nil
  | cons member rest ih =>
      obtain ⟨o, ho, h⟩ := Option.bind_eq_some_iff.1 h
      obtain ⟨others, hothers, -⟩ := Option.map_eq_some_iff.1 h
      have hmem := List.mem_of_find?_eq_some ho
      have hback := List.find?_some ho
      simp only [takesBack, decide_eq_true_eq] at hback
      have hrest : Opposite rest (originals.erase o) := by
        refine ih hothers ?_
        rw [List.length_erase_of_mem hmem, ← hlen, List.length_cons, Nat.add_sub_cancel]
      have hperm := (List.perm_cons_erase hmem).map fun m : Member =>
        (m.component, m.amount, m.qty)
      refine List.Perm.trans ?_ hperm.symm
      rw [List.map_cons, List.map_cons, hback.1, hback.2.1, hback.2.2]
      exact hrest.cons _

/-- The identities of the originals that are taken back: each of them at most once. -/
theorem mirrorPairs_subperm :
    ∀ {reversal remaining : List Member} {pairs : List (String × String)},
      mirrorPairs reversal remaining = some pairs →
        (pairs.map Prod.fst).Subperm (remaining.map (·.activityId))
  | [], remaining, pairs, h => by
      cases h
      exact List.nil_subperm
  | member :: rest, remaining, pairs, h => by
      obtain ⟨o, ho, h⟩ := Option.bind_eq_some_iff.1 h
      obtain ⟨others, hothers, rfl⟩ := Option.map_eq_some_iff.1 h
      have hmem := List.mem_of_find?_eq_some ho
      have hperm := (List.perm_cons_erase hmem).map (·.activityId)
      refine List.Subperm.trans ?_ hperm.symm.subperm
      exact (List.subperm_cons o.activityId).2 (mirrorPairs_subperm hothers)

/-- Each activity of the reversal has a pair, and no other has one. -/
theorem mirrorPairs_reversals :
    ∀ {reversal remaining : List Member} {pairs : List (String × String)},
      mirrorPairs reversal remaining = some pairs →
        pairs.map Prod.snd = reversal.map (·.activityId)
  | [], remaining, pairs, h => by
      cases h
      rfl
  | member :: rest, remaining, pairs, h => by
      obtain ⟨o, -, h⟩ := Option.bind_eq_some_iff.1 h
      obtain ⟨others, hothers, rfl⟩ := Option.map_eq_some_iff.1 h
      rw [List.map_cons, List.map_cons, mirrorPairs_reversals hothers]

/-- A reversal with as many activities as the original takes back all of it. -/
theorem mirrorPairs_originals {reversal originals : List Member} {pairs : List (String × String)}
    (h : mirrorPairs reversal originals = some pairs) (hlen : reversal.length = originals.length) :
    (pairs.map Prod.fst).Perm (originals.map (·.activityId)) := by
  refine (mirrorPairs_subperm h).perm_of_length_le ?_
  have hsnd := congrArg List.length (mirrorPairs_reversals h)
  rw [List.length_map, List.length_map] at hsnd
  rw [List.length_map, List.length_map, ← hlen, hsnd]

/-- `mirror` succeeds exactly when the activities can be paired. -/
theorem mirror_eq_some_iff {rows mirrored : List AttributionRow}
    {reversal originals : List Member} :
    mirror rows reversal originals = some mirrored ↔
      reversal.length = originals.length ∧ ∃ pairs,
        mirrorPairs reversal originals = some pairs ∧ mirroredRows pairs rows = mirrored := by
  unfold mirror
  by_cases hlen : reversal.length = originals.length
  · simp [hlen]
  · simp [hlen]

/-- What an activity was given of a holder. -/
def amountOf (rows : List AttributionRow) (activityId holder : String) : ℚ :=
  ((rows.filter fun r => r.activityId = activityId ∧ r.holderId = holder).map (·.amount)).sum

theorem amountOf_append (l l' : List AttributionRow) (activityId holder : String) :
    amountOf (l ++ l') activityId holder =
      amountOf l activityId holder + amountOf l' activityId holder := by
  unfold amountOf
  rw [List.filter_append, List.map_append, List.sum_append]

theorem amountOf_eq_zero {rows : List AttributionRow} {activityId : String}
    (h : ∀ r ∈ rows, r.activityId ≠ activityId) (holder : String) :
    amountOf rows activityId holder = 0 := by
  have hnone : rows.filter (fun r => r.activityId = activityId ∧ r.holderId = holder) = [] := by
    rw [List.filter_eq_nil_iff]
    intro r hr hp
    exact h r hr (of_decide_eq_true hp).1
  unfold amountOf
  rw [hnone]
  rfl

theorem lookup_eq_some_of_mem {pairs : List (String × String)} (hnodup : (pairs.map Prod.fst).Nodup)
    {o r : String} (h : (o, r) ∈ pairs) : pairs.lookup o = some r := by
  induction pairs with
  | nil => cases h
  | cons p pairs ih =>
      rw [List.map_cons, List.nodup_cons] at hnodup
      rcases List.mem_cons.1 h with rfl | h
      · simp
      · have hne : p.1 ≠ o := by
          intro he
          exact hnodup.1 (he ▸ List.mem_map_of_mem (f := Prod.fst) h)
        rw [List.lookup_cons]
        simpa [beq_eq_false_iff_ne.2 (Ne.symm hne)] using ih hnodup.2 h

theorem mem_of_lookup_eq_some {pairs : List (String × String)} {o r : String}
    (h : pairs.lookup o = some r) : (o, r) ∈ pairs := by
  induction pairs with
  | nil => cases h
  | cons p pairs ih =>
      rw [List.lookup_cons] at h
      by_cases hp : o = p.1
      · simp only [hp, beq_self_eq_true, Option.some.injEq] at h
        rw [hp, ← h]
        exact List.mem_cons_self
      · simp only [beq_eq_false_iff_ne.2 hp] at h
        exact List.mem_cons_of_mem p (ih h)

/-- **A reversal's activity is given what its original was given, negated.** -/
theorem amountOf_mirroredRows {pairs : List (String × String)}
    (hfst : (pairs.map Prod.fst).Nodup) (hsnd : (pairs.map Prod.snd).Nodup) {o r : String}
    (h : (o, r) ∈ pairs) (rows : List AttributionRow) (holder : String) :
    amountOf (mirroredRows pairs rows) r holder = -amountOf rows o holder := by
  have hlookup := lookup_eq_some_of_mem hfst h
  induction rows with
  | nil => rfl
  | cons row rows ih =>
      -- The row is mirrored under `r` exactly when it is of `o`.
      have hcons : mirroredRows pairs (row :: rows) =
          mirroredRows pairs [row] ++ mirroredRows pairs rows := by
        unfold mirroredRows
        rw [← List.filterMap_append, List.singleton_append]
      have hsplit : amountOf (row :: rows) o holder =
          amountOf [row] o holder + amountOf rows o holder := amountOf_append [row] rows o holder
      rw [hcons, amountOf_append, hsplit, ih, neg_add]
      congr 1
      by_cases ho : row.activityId = o
      · have hone : mirroredRows pairs [row] =
            [{ row with activityId := r, amount := -row.amount }] := by
          simp [mirroredRows, ho, hlookup]
        rw [hone]
        by_cases hh : row.holderId = holder <;> simp [amountOf, ho, hh]
      · have hone : ∀ x ∈ [row], x.activityId ≠ o := by simpa using ho
        have hother : ∀ x ∈ mirroredRows pairs [row], x.activityId ≠ r := by
          intro x hx he
          obtain ⟨y, hy, hmap⟩ := List.mem_filterMap.1 hx
          obtain ⟨id, hid, rfl⟩ := Option.map_eq_some_iff.1 hmap
          rw [List.mem_singleton.1 hy] at hid
          have hpair : (row.activityId, id) = (o, r) :=
            List.inj_on_of_nodup_map hsnd (mem_of_lookup_eq_some hid) h he
          exact ho (congrArg Prod.fst hpair)
        rw [amountOf_eq_zero hone, amountOf_eq_zero hother, neg_zero]

end Dividends

end TradePulse
