/-
**Two classifications of cash** (`reconciliation/fee_population.py`, `generation_fees.py`).

Which activities move cash only is written down twice: by the recorders, which post an activity to
the ledger by its type, and by the proof of an instrument's population, which lets a row pass by its
type and by what it names.  A row that the ledger has posted in full may be one that the proof does
not know, and then the instrument has no population.

The two agree on fees, except for what a fee is linked to.  They disagree on transfers, interest and
dividends: the proof asks of every row that names the instrument that it is an execution or a fee,
it does not know one of the types that the ledger posts, and it wants of every row the time at which
it was created, where the ledger takes the date of a dividend.

Main definitions:

* `RowKind`, `rowKind`, `Counting.add` — what the proof takes a row for, and what it adds;
* `CompletePopulation` — a population that is complete, cash apart;
* `OffInstrument`, `LinkResolves`, `LetThrough` — the cash that the proof lets through.

Main results:

* `countRows_iff` — when the walk over the feed succeeds, and with what;
* `classifiers_agree_iff` — **the proof of a complete population succeeds if and only if it lets
  each of its cash activities through**;
* `classifiers_disagree` — cash that was posted and is not let through.
-/

import TradePulse.Reconciliation.GenerationLedger

set_option autoImplicit false

namespace TradePulse

open HistoricalFees Storage

/-! ### What a row is taken for -/

/-- What a row of the generation is to the population of an instrument. -/
inductive RowKind
  | passed
  | cash
  | execution (fill : Fill)
  | assetFee (fee : AssetFee)

/-- What an eligible row is taken for. -/
def rowKind (s : PopulationSource) (raw : InboxActivity) : Except Raised RowKind := do
  let cashFee ← cashFeeReceipt raw
  if cashFee.isSome then return .cash
  else if withoutSlash raw.symbol = [] then do
    checkCashRow raw
    return .passed
  else if withoutSlash raw.symbol ≠ withoutSlash s.asset.symbol then return .passed
  else if raw.isFill then do
    let fill ← matchFill s raw
    return .execution fill
  else if raw.activityType = "CFEE" then do
    let fee ← parseAssetFee raw.toFeeReceipt
    return .assetFee fee
  else .error (assetFeeIntegrity "ASSET_FEE_POPULATION_UNCLASSIFIED_MOVEMENT")

/-- What a row adds to what was counted. -/
def Counting.add (c : Counting) (raw : InboxActivity) : RowKind → Counting
  | .passed => c
  | .cash => { c with cashFees := c.cashFees ++ [raw] }
  | .execution fill =>
      { c with
        relevant := c.relevant ++ [raw]
        matched := raw.id :: c.matched
        net := c.net + if fill.side = .buy then fill.quantity else -fill.quantity }
  | .assetFee fee =>
      { c with
        relevant := c.relevant ++ [raw]
        fees := c.fees ++ [fee]
        net := c.net - fee.quantity }

def Counting.see (c : Counting) (raw : InboxActivity) : Counting :=
  { c with seen := raw.id :: c.seen }

theorem countRow_eq_add (s : PopulationSource) (c : Counting) (raw : InboxActivity)
    (helig : s.eligible raw = true) :
    countRow s c raw = (do
      raiseIf (raw.id = "") (.valueError "activity_id is required")
      raiseIf (raw.id ∈ c.seen) (assetFeeIntegrity "ASSET_FEE_POPULATION_DUPLICATE_ACTIVITY")
      let _ ← activityTime raw
      let kind ← rowKind s raw
      return (c.see raw).add raw kind) := by
  unfold countRow rowKind
  congr 1
  funext _
  congr 1
  funext _
  show (activityTime raw >>= _) = (activityTime raw >>= _)
  congr 1
  funext _
  rw [if_neg (by simp [helig]), bind_assoc]
  congr 1
  funext cashFee
  by_cases hcash : cashFee.isSome = true
  · rw [if_pos hcash, if_pos hcash]
    rfl
  rw [if_neg hcash, if_neg hcash]
  by_cases hblank : withoutSlash raw.symbol = []
  · rw [if_pos hblank, if_pos hblank, bind_assoc]
    rfl
  rw [if_neg hblank, if_neg hblank]
  by_cases hother : withoutSlash raw.symbol ≠ withoutSlash s.asset.symbol
  · rw [if_pos hother, if_pos hother]
    rfl
  rw [if_neg hother, if_neg hother]
  by_cases hfill : raw.isFill = true
  · rw [if_pos hfill, if_pos hfill, bind_assoc]
    rfl
  rw [if_neg hfill, if_neg hfill]
  by_cases hfee : raw.activityType = "CFEE"
  · rw [if_pos hfee, if_pos hfee, bind_assoc]
    rfl
  · rw [if_neg hfee, if_neg hfee]
    rfl

theorem countRow_eq_see (s : PopulationSource) (c : Counting) (raw : InboxActivity)
    (helig : s.eligible raw = false) :
    countRow s c raw = (do
      raiseIf (raw.id = "") (.valueError "activity_id is required")
      raiseIf (raw.id ∈ c.seen) (assetFeeIntegrity "ASSET_FEE_POPULATION_DUPLICATE_ACTIVITY")
      let _ ← activityTime raw
      return c.see raw) := by
  unfold countRow
  congr 1
  funext _
  congr 1
  funext _
  show (activityTime raw >>= _) = (activityTime raw >>= _)
  congr 1
  funext _
  rw [if_pos helig]
  rfl

/-- What a row is taken for, if it is not refused. -/
def kindOf (s : PopulationSource) (raw : InboxActivity) : RowKind :=
  (rowKind s raw).toOption.getD .passed

/-- What was counted after a row. -/
def tally (s : PopulationSource) (c : Counting) (raw : InboxActivity) : Counting :=
  if s.eligible raw then (c.see raw).add raw (kindOf s raw) else c.see raw

/-- A row is not refused. -/
def Counts (s : PopulationSource) (raw : InboxActivity) : Prop :=
  s.eligible raw = true → ∃ kind, rowKind s raw = .ok kind

/-- The row has an identity and a time. -/
def Identified (raw : InboxActivity) : Prop := raw.id ≠ "" ∧ ∃ time, activityTime raw = .ok time

theorem countRow_iff {s : PopulationSource} {c c' : Counting} {raw : InboxActivity} :
    countRow s c raw = .ok c' ↔
      Identified raw ∧ raw.id ∉ c.seen ∧ Counts s raw ∧ c' = tally s c raw := by
  by_cases helig : s.eligible raw = true
  · rw [countRow_eq_add s c raw helig]
    simp only [except_bind_eq_ok, raiseIf_eq_ok_iff, tally, helig, if_true, Counts, Identified]
    constructor
    · rintro ⟨-, hid, -, hseen, time, htime, kind, hkind, hret⟩
      cases hret
      have hkind' : kindOf s raw = kind := by simp [kindOf, hkind, Except.toOption]
      exact ⟨⟨hid, time, htime⟩, hseen, fun _ => ⟨kind, hkind⟩, by rw [hkind']⟩
    · rintro ⟨⟨hid, time, htime⟩, hseen, hcounts, rfl⟩
      obtain ⟨kind, hkind⟩ := hcounts trivial
      have hkind' : kindOf s raw = kind := by simp [kindOf, hkind, Except.toOption]
      exact ⟨(), hid, (), hseen, time, htime, kind, hkind, by rw [hkind']; rfl⟩
  · have helig : s.eligible raw = false := by simpa using helig
    rw [countRow_eq_see s c raw helig]
    simp only [except_bind_eq_ok, raiseIf_eq_ok_iff, tally, helig, Counts, Identified]
    constructor
    · rintro ⟨-, hid, -, hseen, time, htime, hret⟩
      cases hret
      exact ⟨⟨hid, time, htime⟩, hseen, fun h => absurd h (by simp), rfl⟩
    · rintro ⟨⟨hid, time, htime⟩, hseen, -, rfl⟩
      exact ⟨(), hid, (), hseen, time, htime, rfl⟩

@[simp] theorem seen_add (c : Counting) (raw : InboxActivity) (kind : RowKind) :
    (c.add raw kind).seen = c.seen := by
  cases kind <;> rfl

@[simp] theorem seen_tally (s : PopulationSource) (c : Counting) (raw : InboxActivity) :
    (tally s c raw).seen = raw.id :: c.seen := by
  unfold tally
  split
  · rw [seen_add]
    rfl
  · rfl

/-- **The walk over the feed** succeeds where every row can be told apart and none is refused. -/
theorem countRows_iff {s : PopulationSource} {c c' : Counting} {rows : List InboxActivity} :
    countRows s c rows = .ok c' ↔
      (∀ raw ∈ rows, Identified raw ∧ raw.id ∉ c.seen ∧ Counts s raw) ∧
        (rows.map (·.id)).Nodup ∧ c' = rows.foldl (tally s) c := by
  induction rows generalizing c with
  | nil =>
      simp only [countRows, Except.ok.injEq, List.not_mem_nil, false_implies, implies_true,
        List.map_nil, List.nodup_nil, true_and, List.foldl_nil]
      exact eq_comm
  | cons raw rest ih =>
      unfold countRows
      rw [except_bind_eq_ok]
      constructor
      · rintro ⟨c₁, hrow, hrest⟩
        obtain ⟨hidentified, hseen, hcounts, rfl⟩ := countRow_iff.1 hrow
        obtain ⟨hall, hnodup, rfl⟩ := ih.1 hrest
        refine ⟨fun x hx => ?_, ?_, rfl⟩
        · rcases List.mem_cons.1 hx with rfl | hx
          · exact ⟨hidentified, hseen, hcounts⟩
          · obtain ⟨hx₁, hx₂, hx₃⟩ := hall x hx
            rw [seen_tally] at hx₂
            exact ⟨hx₁, fun h => hx₂ (List.mem_cons_of_mem _ h), hx₃⟩
        · refine List.nodup_cons.2 ⟨fun hmem => ?_, hnodup⟩
          obtain ⟨x, hx, hid⟩ := List.mem_map.1 hmem
          have hnew := (hall x hx).2.1
          rw [seen_tally, hid] at hnew
          exact hnew List.mem_cons_self
      · rintro ⟨hall, hnodup, rfl⟩
        obtain ⟨hidentified, hseen, hcounts⟩ := hall raw List.mem_cons_self
        rw [List.map_cons, List.nodup_cons] at hnodup
        refine ⟨tally s c raw, countRow_iff.2 ⟨hidentified, hseen, hcounts, rfl⟩, ih.2 ⟨?_,
          hnodup.2, rfl⟩⟩
        intro x hx
        obtain ⟨hx₁, hx₂, hx₃⟩ := hall x (List.mem_cons_of_mem _ hx)
        refine ⟨hx₁, ?_, hx₃⟩
        rw [seen_tally, List.mem_cons, not_or]
        exact ⟨fun heq => hnodup.1 (heq ▸ List.mem_map_of_mem hx), hx₂⟩

/-! ### What the rows add up to -/

/-- The activity is a fee in units of a coin. -/
def InboxActivity.isCoinFee (raw : InboxActivity) : Bool :=
  raw.activityType == "CFEE" && raw.description == "Coin Pair Transaction Fee (Non USD)"

/-- The row names the instrument. -/
def Names (s : PopulationSource) (raw : InboxActivity) : Prop :=
  withoutSlash raw.symbol = withoutSlash s.asset.symbol

instance (s : PopulationSource) (raw : InboxActivity) : Decidable (Names s raw) :=
  inferInstanceAs (Decidable (_ = _))

/-- What a row changes of the inventory of the instrument: an execution by the fill it is, a fee by
what it debits, and cash by nothing. -/
def movement (s : PopulationSource) (raw : InboxActivity) : ℚ :=
  if Names s raw then
    if raw.isFill then
      ((s.localFill raw.id).map fun fill =>
        if fill.side = .buy then fill.quantity else -fill.quantity).getD 0
    else if raw.isCoinFee then
      ((parseAssetFee raw.toFeeReceipt).toOption.map fun fee => -fee.quantity).getD 0
    else 0
  else 0

/-- What a row that is taken for something changes. -/
def RowKind.quantity : RowKind → ℚ
  | .passed => 0
  | .cash => 0
  | .execution fill => if fill.side = .buy then fill.quantity else -fill.quantity
  | .assetFee fee => -fee.quantity

theorem net_add (c : Counting) (raw : InboxActivity) (kind : RowKind) :
    (c.add raw kind).net = c.net + kind.quantity := by
  cases kind <;> simp [Counting.add, RowKind.quantity, sub_eq_add_neg]

/-- The quantity that was counted is the sum over the rows. -/
theorem net_foldl (s : PopulationSource) (c : Counting) (rows : List InboxActivity) :
    (rows.foldl (tally s) c).net = c.net +
      (rows.map fun raw => if s.eligible raw then (kindOf s raw).quantity else 0).sum := by
  induction rows generalizing c with
  | nil => simp
  | cons raw rest ih =>
      have hrow : (tally s c raw).net =
          c.net + if s.eligible raw then (kindOf s raw).quantity else 0 := by
        unfold tally
        split
        · exact net_add _ _ _
        · simp [Counting.see]
      rw [List.foldl_cons, ih, hrow, List.map_cons, List.sum_cons, add_assoc]

/-- The row is taken for an execution. -/
def RowKind.isExecution : RowKind → Bool
  | .execution _ => true
  | _ => false

/-- The row is taken for a fee in cash. -/
def RowKind.isCash : RowKind → Bool
  | .cash => true
  | _ => false

theorem mem_matched_foldl {s : PopulationSource} {c : Counting} {rows : List InboxActivity}
    {id : String} : id ∈ (rows.foldl (tally s) c).matched ↔
      id ∈ c.matched ∨ ∃ raw ∈ rows, raw.id = id ∧ s.eligible raw = true ∧
        (kindOf s raw).isExecution = true := by
  induction rows generalizing c with
  | nil => simp
  | cons raw rest ih =>
      have hrow : id ∈ (tally s c raw).matched ↔ id ∈ c.matched ∨
          (raw.id = id ∧ s.eligible raw = true ∧ (kindOf s raw).isExecution = true) := by
        unfold tally
        by_cases helig : s.eligible raw = true
        · rw [if_pos helig]
          cases kindOf s raw <;>
            simp [Counting.add, Counting.see, RowKind.isExecution, helig, or_comm, eq_comm]
        · rw [if_neg helig]
          simp [Counting.see, helig]
      rw [List.foldl_cons, ih, hrow]
      simp only [List.mem_cons, exists_eq_or_imp]
      exact or_assoc

theorem cashFees_foldl (s : PopulationSource) (c : Counting) (rows : List InboxActivity) :
    (rows.foldl (tally s) c).cashFees = c.cashFees ++
      rows.filter fun raw => s.eligible raw && (kindOf s raw).isCash := by
  induction rows generalizing c with
  | nil => simp
  | cons raw rest ih =>
      have hrow : (tally s c raw).cashFees = c.cashFees ++
          if s.eligible raw && (kindOf s raw).isCash then [raw] else [] := by
        unfold tally
        by_cases helig : s.eligible raw = true
        · rw [if_pos helig]
          cases kindOf s raw <;> simp [Counting.add, Counting.see, RowKind.isCash, helig]
        · rw [if_neg helig]
          simp [Counting.see, helig]
      rw [List.foldl_cons, ih, hrow, List.filter_cons, List.append_assoc]
      split <;> simp

/-! ### Populations -/

/-- The activity belongs to the generation, if there is one. -/
def belongs (membership : Option MembershipResult) (raw : InboxActivity) : Bool :=
  match membership with
  | none => true
  | some m => (m.classified.statusOf raw.id).any (·.eligible)

/-- The membership that the activities are posted with. -/
def postedWith (membership : Option MembershipResult) (activities : List CashActivity) :
    MembershipResult :=
  membership.getD (GenerationCash.unbound activities)

/-- The instrument with its records. -/
def populationSource (asset : AssetIdentity) (fills : List Fill) (intents : List TradeIntent)
    (membership : Option MembershipResult) : PopulationSource where
  asset := asset
  fills := fills
  intents := intents
  eligible := belongs membership

/-- The activity is an execution on record; one of the instrument is the fill that it says. -/
structure LocalExecution (s : PopulationSource) (raw : InboxActivity) : Prop where
  fill : raw.isFill = true
  named : withoutSlash raw.symbol ≠ []
  recorded : ∃ f ∈ s.fills, f.brokerFillId = some raw.id
  matched : Names s raw → ∃ fill, matchFill s raw = .ok fill

/-- **A complete population**, cash apart: every eligible activity is an execution on record, a fee
in units of a coin, or cash; every fill is among them; and what they change adds up to what the
broker holds.  Of cash it asks only that no identity occurs twice. -/
structure CompletePopulation (s : PopulationSource) (activities : List CashActivity)
    (brokerQuantity : ℚ) (membership : Option MembershipResult) : Prop where
  own : s.ownFills ≠ [] ∧ none ∉ s.ownFills.map (·.brokerFillId) ∧
    (s.ownFills.map (·.brokerFillId)).Nodup
  resolved : ∀ m, membership = some m → requireResolved m = .ok ()
  identified : ∀ raw ∈ activities,
    (belongs membership raw.toInboxActivity = true → Recorder.ofActivity raw = none) →
      Identified raw.toInboxActivity
  nodup : (activities.map (·.id)).Nodup
  classified : ∀ raw ∈ activities, belongs membership raw.toInboxActivity = true →
    LocalExecution s raw.toInboxActivity ∨ raw.isCoinFee = true ∨ (Recorder.ofActivity raw).isSome
  matched : ∀ f ∈ s.ownFills, ∃ raw ∈ activities, belongs membership raw.toInboxActivity = true ∧
    raw.isFill = true ∧ Names s raw.toInboxActivity ∧ f.brokerFillId = some raw.id
  addsUp : (activities.map fun raw => if belongs membership raw.toInboxActivity
      then movement s raw.toInboxActivity else 0).sum +
    openingQuantity (membership.bind (·.checkpoint)) s.key = brokerQuantity

/-- The fills that a fee in cash is linked to. -/
def linkedFills (s : PopulationSource) (eligible : List InboxActivity) (cash : InboxActivity) :
    List Fill :=
  ((candidates eligible cash).map fun raw =>
    lastWith (fun f : Fill => f.brokerFillId = some raw.id) s.fills).reduceOption

/-- A fee in cash names neither an order nor an execution, or there are executions it names, and if
they all are sales they are of one instrument. -/
def LinkResolves (s : PopulationSource) (eligible : List InboxActivity) (cash : InboxActivity) :
    Prop :=
  (cash.orderId.all (· = "") ∧ cash.fillId.all (· = "")) ∨
    candidates eligible cash ≠ [] ∧
      ((linkedFills s eligible cash).any (fun f => f.side ≠ .sell) = true ∨
        (((linkedFills s eligible cash).map fun f => assetIdentityKey f.asset).dedup).length = 1)

instance (s : PopulationSource) (eligible : List InboxActivity) (cash : InboxActivity) :
    Decidable (LinkResolves s eligible cash) :=
  inferInstanceAs (Decidable (_ ∨ _ ∧ (_ ∨ _)))

/-- A transfer, interest or a dividend names another instrument, or it names none and is of a type
that the proof knows. -/
def OffInstrument (s : PopulationSource) (raw : InboxActivity) : Prop :=
  (withoutSlash raw.symbol = [] ∧ raw.activityType ∈ ["JNLC", "CSD", "CSW", "INT"]) ∨
    (withoutSlash raw.symbol ≠ [] ∧ ¬ Names s raw)

instance (s : PopulationSource) (raw : InboxActivity) : Decidable (OffInstrument s raw) :=
  inferInstanceAs (Decidable (_ ∧ _ ∨ _ ∧ _))

/-- The cash that the proof of a population lets through. -/
def LetThrough (s : PopulationSource) (eligible : List InboxActivity) (raw : CashActivity) : Prop :=
  match Recorder.ofActivity raw with
  | some .fee => LinkResolves s eligible raw.toInboxActivity
  | some _ => OffInstrument s raw.toInboxActivity ∧ raw.createdAt ≠ none
  | none => True

instance (s : PopulationSource) (eligible : List InboxActivity) (raw : CashActivity) :
    Decidable (LetThrough s eligible raw) := by
  unfold LetThrough
  split <;> infer_instance

/-! ### Rows of cash -/

theorem decimalValue_name {name name' : String} {number : RawNumber} {q : ℚ}
    (h : decimalValue name number = .ok q) : decimalValue name' number = .ok q := by
  cases number with
  | exact q' => exact h
  | inexact q' => exact h
  | missing => cases h
  | malformed => cases h

/-- An activity that is no fee is no fee in cash. -/
theorem cashFeeReceipt_none {raw : InboxActivity}
    (h : raw.activityType ≠ "FEE" ∧ raw.activityType ≠ "CFEE") : cashFeeReceipt raw = .ok none := by
  rw [cashFeeReceipt, if_pos h]

/-- When a row that names nothing is let through. -/
theorem checkCashRow_iff {raw : InboxActivity} : checkCashRow raw = .ok () ↔
    (raw.activityType ∈ ["JNLC", "CSD", "CSW", "FEE", "INT"] ∨
      (raw.activityType = "CFEE" ∧ raw.description = "Coin Pair Transaction Fee (USD)")) ∧
    raw.currency = "USD" ∧ raw.status = "executed" ∧
    decimalValue "cash_activity_qty" (orZeroText raw.qty) = .ok 0 ∧
    ∃ q, decimalValue "cash_activity_amount" raw.netAmount = .ok q := by
  unfold checkCashRow
  simp only [except_bind_eq_ok, raiseIf_eq_ok_iff]
  constructor
  · rintro ⟨⟨⟩, hkind, quantity, hquantity, ⟨⟩, hzero, amount, hamount, -⟩
    obtain ⟨hkind, hkind'⟩ := not_or.1 hkind
    obtain ⟨hcurrency, hstatus⟩ := not_or.1 hkind'
    rw [not_not.1 hzero] at hquantity
    exact ⟨not_not.1 hkind, not_not.1 hcurrency, not_not.1 hstatus, hquantity, amount, hamount⟩
  · rintro ⟨hkind, hcurrency, hstatus, hquantity, amount, hamount⟩
    refine ⟨(), ?_, 0, hquantity, (), not_not.2 rfl, amount, hamount, rfl⟩
    rintro (h | h | h)
    · exact h hkind
    · exact h hcurrency
    · exact h hstatus

/-- A transfer or interest that names nothing is let through by its type. -/
theorem checkCashRow_adjustment {raw : CashActivity} {receipt : CashReceipt}
    (h : adjustmentReceipt raw = .ok (some receipt)) :
    checkCashRow raw.toInboxActivity = .ok () ↔
      raw.activityType ∈ ["JNLC", "CSD", "CSW", "INT"] := by
  have htype := (adjustmentReceipt_some h).1
  rw [adjustmentReceipt, if_neg (not_not.2 htype)] at h
  obtain ⟨⟨⟩, -, h⟩ := except_bind_eq_ok.1 h
  obtain ⟨⟨⟩, hsupported, h⟩ := except_bind_eq_ok.1 h
  obtain ⟨quantity, hquantity, h⟩ := except_bind_eq_ok.1 h
  obtain ⟨⟨⟩, hzero, h⟩ := except_bind_eq_ok.1 h
  obtain ⟨amount, hamount, -⟩ := except_bind_eq_ok.1 h
  obtain ⟨hcurrency, hsupported⟩ := not_or.1 (raiseIf_eq_ok_iff.1 hsupported)
  have hstatus := (not_or.1 hsupported).1
  rw [not_not.1 (raiseIf_eq_ok_iff.1 hzero)] at hquantity
  have hnotFee : raw.activityType ≠ "FEE" ∧ raw.activityType ≠ "CFEE" := by
    constructor <;> intro hc <;> simp [hc, adjustmentTypes] at htype
  rw [checkCashRow_iff]
  simp only [List.mem_cons, List.not_mem_nil, or_false]
  constructor
  · rintro ⟨hkind | hkind, -⟩
    · have := hnotFee.1
      tauto
    · exact absurd hkind.1 hnotFee.2
  · intro hkind
    exact ⟨.inl (by tauto), not_not.1 hcurrency, not_not.1 hstatus, decimalValue_name hquantity,
      amount, decimalValue_name hamount⟩

/-- A dividend that names nothing is not let through. -/
theorem checkCashRow_dividend {raw : CashActivity} (hdiv : raw.isDividend = true) :
    checkCashRow raw.toInboxActivity ≠ .ok () := by
  intro h
  obtain ⟨hkind, -⟩ := checkCashRow_iff.1 h
  simp only [List.mem_cons, List.not_mem_nil, or_false] at hkind
  rcases hkind with (hc | hc | hc | hc | hc) | ⟨hc, -⟩ <;>
    exact CashActivity.type_ne_of_isDividend hdiv (by decide) hc

/-! ### What the ledger has read -/

section Posted

variable {m : MembershipResult} {now : Instant} {activities : List CashActivity}
  {l l' : GenerationLedger}

theorem persistFees_reads {seen ids : List String}
    (h : persistFees m now seen activities l = .ok (l', ids)) :
    ∀ raw ∈ activities, raw.id ≠ "" ∧
      ∃ found, cashFeeReceipt raw.toInboxActivity = .ok found := by
  induction activities generalizing seen l ids with
  | nil => exact fun _ h => absurd h List.not_mem_nil
  | cons raw rest ih =>
      obtain ⟨hid, found, hread, l₁, ids₁, hrest⟩ := GenerationCash.persistFees_cons h
      intro x hx
      rcases List.mem_cons.1 hx with rfl | hx
      · refine ⟨hid, ?_⟩
        cases hfee : cashFeeReceipt x.toInboxActivity with
        | ok fee => exact ⟨fee, rfl⟩
        | error e =>
            simp only [Recorder.receipt, hfee] at hread
            cases hread
      · exact ih hrest x hx

theorem persistGenerationAdjustments_reads
    (h : persistGenerationAdjustments m now activities l = .ok l') :
    ∀ raw ∈ activities, (m.classified.statusOf raw.id).any (·.eligible) = true →
      ∃ found, adjustmentReceipt raw = .ok found := by
  induction activities generalizing l with
  | nil => exact fun _ h => absurd h List.not_mem_nil
  | cons raw rest ih =>
      unfold persistGenerationAdjustments at h
      intro x hx helig
      by_cases hskip : (m.classified.statusOf raw.id).any (·.eligible) = false
      · rw [if_pos hskip] at h
        rcases List.mem_cons.1 hx with rfl | hx
        · rw [hskip] at helig
          cases helig
        · exact ih h x hx helig
      · rw [if_neg hskip] at h
        obtain ⟨found, hfound, h⟩ := except_bind_eq_ok.1 h
        rcases List.mem_cons.1 hx with rfl | hx
        · exact ⟨found, hfound⟩
        · cases found with
          | none => exact ih h x hx helig
          | some receipt =>
              obtain ⟨posted, -, h⟩ := except_bind_eq_ok.1 h
              exact ih h x hx helig

theorem persistGenerationDividends_reads
    (h : persistGenerationDividends m now activities l = .ok l') :
    ∀ raw ∈ activities, ∃ found, dividendReceipt raw = .ok found := by
  induction activities generalizing l with
  | nil => exact fun _ h => absurd h List.not_mem_nil
  | cons raw rest ih =>
      unfold persistGenerationDividends at h
      obtain ⟨found, hfound, h⟩ := except_bind_eq_ok.1 h
      intro x hx
      rcases List.mem_cons.1 hx with rfl | hx
      · exact ⟨found, hfound⟩
      · cases found with
        | none => exact ih h x hx
        | some receipt =>
            obtain ⟨admitted, -, h⟩ := except_bind_eq_ok.1 h
            cases admitted with
            | false => exact ih h x hx
            | true =>
                obtain ⟨posted, -, h⟩ := except_bind_eq_ok.1 h
                exact ih h x hx

/-- What a call that succeeded has read of each activity. -/
structure WasRead (m : MembershipResult) (raw : CashActivity) : Prop where
  named : raw.id ≠ ""
  fee : ∃ found, cashFeeReceipt raw.toInboxActivity = .ok found
  adjustment : (m.classified.statusOf raw.id).any (·.eligible) = true →
    ∃ found, adjustmentReceipt raw = .ok found
  dividend : ∃ found, dividendReceipt raw = .ok found

theorem persistGenerationFees_reads {ids : List String}
    (h : persistGenerationFees m now activities l = .ok (l', ids)) :
    ∀ raw ∈ activities, WasRead m raw := by
  unfold persistGenerationFees at h
  obtain ⟨⟨l₁, ids₁⟩, hfees, h⟩ := except_bind_eq_ok.1 h
  obtain ⟨l₂, hadjustments, h⟩ := except_bind_eq_ok.1 h
  obtain ⟨l₃, hdividends, h⟩ := except_bind_eq_ok.1 h
  exact fun raw hraw => ⟨(persistFees_reads hfees raw hraw).1, (persistFees_reads hfees raw hraw).2,
    persistGenerationAdjustments_reads hadjustments raw hraw,
    persistGenerationDividends_reads hdividends raw hraw⟩

end Posted

/-! ### What each row is taken for -/

theorem mem_of_isUsdPair {symbol : List Char} (h : isUsdPair symbol = true) : 'U' ∈ symbol := by
  unfold isUsdPair at h
  split at h
  · rename_i base quote hsplit
    obtain ⟨-, hquote⟩ := Bool.and_eq_true_iff.1 h
    have hjoin : ['/'].intercalate (symbol.splitOn '/') = symbol := List.intercalate_splitOn '/'
    rw [hsplit, eq_of_beq hquote] at hjoin
    rw [← hjoin]
    simp [List.intercalate]
  · cases h

theorem withoutSlash_of_parseAssetFee {raw : FeeReceipt} {fee : AssetFee}
    (h : parseAssetFee raw = .ok fee) : withoutSlash raw.symbol ≠ [] := by
  intro hblank
  have hslashes : ∀ c ∈ raw.symbol.toList, c = '/' := by
    intro c hc
    by_contra hne
    have hmem : c ∈ withoutSlash raw.symbol := List.mem_filter.2 ⟨hc, by simpa using hne⟩
    rw [hblank] at hmem
    cases hmem
  obtain ⟨⟨⟩, -, h⟩ := except_bind_eq_ok.1 h
  obtain ⟨⟨⟩, -, h⟩ := except_bind_eq_ok.1 h
  obtain ⟨⟨⟩, -, h⟩ := except_bind_eq_ok.1 h
  obtain ⟨⟨⟩, -, h⟩ := except_bind_eq_ok.1 h
  obtain ⟨_, -, h⟩ := except_bind_eq_ok.1 h
  obtain ⟨⟨⟩, -, h⟩ := except_bind_eq_ok.1 h
  obtain ⟨_, -, h⟩ := except_bind_eq_ok.1 h
  obtain ⟨⟨⟩, -, h⟩ := except_bind_eq_ok.1 h
  obtain ⟨⟨⟩, -, h⟩ := except_bind_eq_ok.1 h
  obtain ⟨⟨⟩, hpair, -⟩ := except_bind_eq_ok.1 h
  have hpair : isUsdPair (normalizeAlpacaSymbol raw.symbol.toList .crypto) = true := by
    simpa using raiseIf_eq_ok_iff.1 hpair
  -- normalising leaves nothing but slashes
  set text := (upper (strip raw.symbol.toList)).map fun c => if c = '-' then '/' else c with htext
  have hall : ∀ c ∈ text, c = '/' := by
    intro c hc
    obtain ⟨d, hd, rfl⟩ := List.mem_map.1 hc
    obtain ⟨e, he, rfl⟩ := List.mem_map.1 hd
    have hmem : e ∈ raw.symbol.toList := by
      have h₁ := List.dropWhile_subset _ (List.mem_reverse.1 he)
      exact List.dropWhile_subset _ (List.mem_reverse.1 h₁)
    rw [hslashes e hmem]
    decide
  have hsame : normalizeAlpacaSymbol raw.symbol.toList .crypto = text := by
    unfold normalizeAlpacaSymbol
    rw [← htext]
    by_cases hcontains : text.contains '/' = true
    · rw [if_pos (.inr hcontains)]
    · have hnil : text = [] := List.eq_nil_iff_forall_not_mem.2 fun c hc => by
        have heq := hall c hc
        exact hcontains (List.contains_iff_mem.2 (heq ▸ hc))
      rw [hnil]
      rfl
  rw [hsame] at hpair
  exact absurd (hall _ (mem_of_isUsdPair hpair)) (by decide)

theorem localFill_of_matchFill {s : PopulationSource} {raw : InboxActivity} {fill : Fill}
    (h : matchFill s raw = .ok fill) : s.localFill raw.id = some fill := by
  unfold matchFill at h
  obtain ⟨⟨⟩, -, h⟩ := except_bind_eq_ok.1 h
  cases htime : raw.transactionTime with
  | none =>
      simp only [htime] at h
      cases h
  | some time =>
      cases hfill : s.localFill raw.id with
      | none =>
          simp only [htime, hfill] at h
          cases h
      | some found =>
          cases hintent : s.intentOf found.tradeIntentId with
          | none =>
              simp only [htime, hfill, hintent] at h
              cases h
          | some intent =>
              simp only [htime, hfill, hintent] at h
              obtain ⟨⟨⟩, -, h⟩ := except_bind_eq_ok.1 h
              obtain ⟨_, -, h⟩ := except_bind_eq_ok.1 h
              obtain ⟨⟨⟩, -, h⟩ := except_bind_eq_ok.1 h
              obtain ⟨_, -, h⟩ := except_bind_eq_ok.1 h
              obtain ⟨⟨⟩, -, h⟩ := except_bind_eq_ok.1 h
              cases h
              rfl

/-- What a row is taken for, and what that adds: one that does not name the instrument nothing, one
that names it what it changes of the inventory. -/
structure TakenAs (s : PopulationSource) (raw : InboxActivity) (kind : RowKind) : Prop where
  row : rowKind s raw = .ok kind
  quantity : kind.quantity = movement s raw
  execution : kind.isExecution = true ↔ raw.isFill = true ∧ Names s raw
  cash : kind.isCash = false

theorem LocalExecution.taken {s : PopulationSource} {raw : InboxActivity}
    (h : LocalExecution s raw) : ∃ kind, TakenAs s raw kind := by
  have htype : raw.activityType = "FILL" := by simpa [RawActivity.isFill] using h.fill
  have hnone : cashFeeReceipt raw = .ok none :=
    cashFeeReceipt_none (by constructor <;> intro hc <;> simp [htype] at hc)
  by_cases hnames : Names s raw
  · obtain ⟨fill, hfill⟩ := h.matched hnames
    refine ⟨.execution fill, ?_, ?_, ⟨fun _ => ⟨h.fill, hnames⟩, fun _ => rfl⟩, rfl⟩
    · unfold rowKind
      rw [hnone]
      show (if withoutSlash raw.symbol = [] then _ else _) = _
      have hsame : withoutSlash raw.symbol = withoutSlash s.asset.symbol := hnames
      rw [if_neg h.named, if_neg (not_not.2 hsame), if_pos h.fill, hfill]
      rfl
    · simp [RowKind.quantity, movement, hnames, h.fill, localFill_of_matchFill hfill]
  · refine ⟨.passed, ?_, ?_, ⟨fun h => (by cases h), fun h => absurd h.2 hnames⟩, rfl⟩
    · unfold rowKind
      rw [hnone]
      show (if withoutSlash raw.symbol = [] then _ else _) = _
      have hother : withoutSlash raw.symbol ≠ withoutSlash s.asset.symbol := hnames
      rw [if_neg h.named, if_pos hother]
      rfl
    · simp [RowKind.quantity, movement, hnames]

theorem taken_of_isCoinFee {s : PopulationSource} {raw : InboxActivity} (h : raw.isCoinFee = true)
    {found : Option CashFeeReceipt} (hread : cashFeeReceipt raw = .ok found) :
    ∃ kind, TakenAs s raw kind := by
  obtain ⟨htype, hdescription⟩ := Bool.and_eq_true_iff.1 h
  have htype := eq_of_beq htype
  have hdescription := eq_of_beq hdescription
  have hfill : ¬ raw.isFill = true := by simp [RawActivity.isFill, htype]
  rw [cashFeeReceipt, if_neg (by simp [htype]), if_pos ⟨htype, hdescription⟩] at hread
  obtain ⟨fee, hparse, hread⟩ := except_bind_eq_ok.1 hread
  have hnone : cashFeeReceipt raw = .ok none := by
    rw [cashFeeReceipt, if_neg (by simp [htype]), if_pos ⟨htype, hdescription⟩, hparse]
    rfl
  have hnamed := withoutSlash_of_parseAssetFee hparse
  by_cases hnames : Names s raw
  · refine ⟨.assetFee fee, ?_, ?_, ⟨fun h => (by cases h), fun h => absurd h.1 hfill⟩, rfl⟩
    · unfold rowKind
      rw [hnone]
      show (if withoutSlash raw.symbol = [] then _ else _) = _
      have hsame : withoutSlash raw.symbol = withoutSlash s.asset.symbol := hnames
      rw [if_neg hnamed, if_neg (not_not.2 hsame), if_neg hfill, if_pos htype, hparse]
      rfl
    · simp [RowKind.quantity, movement, hnames, hfill, h, hparse, Except.toOption]
  · refine ⟨.passed, ?_, ?_, ⟨fun h => (by cases h), fun h => absurd h.2 hnames⟩, rfl⟩
    · unfold rowKind
      rw [hnone]
      show (if withoutSlash raw.symbol = [] then _ else _) = _
      have hother : withoutSlash raw.symbol ≠ withoutSlash s.asset.symbol := hnames
      rw [if_neg hnamed, if_pos hother]
      rfl
    · simp [RowKind.quantity, movement, hnames]

theorem isSome_of_fee {raw : CashActivity} (h : Recorder.ofActivity raw = some .fee)
    {found : Option CashFeeReceipt} (hread : cashFeeReceipt raw.toInboxActivity = .ok found) :
    found.isSome = true := by
  cases found with
  | some fee => rfl
  | none =>
      exact absurd (by simp [Recorder.receipt, hread, Except.map]) (Recorder.receipt_ne_none h)

theorem createdAt_of_fee {raw : CashActivity} (h : Recorder.ofActivity raw = some .fee)
    {found : Option CashFeeReceipt} (hread : cashFeeReceipt raw.toInboxActivity = .ok found) :
    raw.createdAt ≠ none := by
  intro hcreated
  have hsome := isSome_of_fee h hread
  unfold cashFeeReceipt at hread
  by_cases hother : raw.activityType ≠ "FEE" ∧ raw.activityType ≠ "CFEE"
  · rw [if_pos hother] at hread
    cases hread
    cases hsome
  rw [if_neg hother] at hread
  by_cases hnative : raw.activityType = "CFEE" ∧
      raw.description = "Coin Pair Transaction Fee (Non USD)"
  · rw [if_pos hnative] at hread
    obtain ⟨_, -, hread⟩ := except_bind_eq_ok.1 hread
    cases hread
    cases hsome
  · rw [if_neg hnative] at hread
    obtain ⟨⟨⟩, -, hread⟩ := except_bind_eq_ok.1 hread
    obtain ⟨⟨⟩, -, hread⟩ := except_bind_eq_ok.1 hread
    obtain ⟨_, -, hread⟩ := except_bind_eq_ok.1 hread
    obtain ⟨⟨⟩, -, hread⟩ := except_bind_eq_ok.1 hread
    obtain ⟨_, -, hread⟩ := except_bind_eq_ok.1 hread
    obtain ⟨⟨⟩, -, hread⟩ := except_bind_eq_ok.1 hread
    rw [hcreated] at hread
    cases hread

/-- A fee in cash, which the ledger posted, is taken for one. -/
theorem rowKind_fee {s : PopulationSource} {raw : CashActivity}
    (h : Recorder.ofActivity raw = some .fee) {found : Option CashFeeReceipt}
    (hread : cashFeeReceipt raw.toInboxActivity = .ok found) :
    rowKind s raw.toInboxActivity = .ok .cash := by
  have hsome := isSome_of_fee h hread
  unfold rowKind
  rw [hread]
  show (if found.isSome = true then _ else _) = _
  rw [if_pos hsome]
  rfl

/-- Cash that is no fee is no execution and no fee of a coin. -/
theorem not_movement_of_cash {raw : CashActivity} {r : Recorder}
    (h : Recorder.ofActivity raw = some r) (hr : r ≠ .fee) :
    (raw.activityType ≠ "FEE" ∧ raw.activityType ≠ "CFEE") ∧ ¬ raw.isFill = true := by
  have hne : ∀ kind : String, kind ∉ adjustmentTypes → "DIV".toList.isPrefixOf kind.toList = false →
      raw.activityType ≠ kind := by
    intro kind hkind hdiv
    cases r with
    | fee => exact absurd rfl hr
    | adjustment =>
        rintro rfl
        exact hkind (Recorder.type_of_ofActivity h)
    | dividend => exact CashActivity.type_ne_of_isDividend (Recorder.type_of_ofActivity h) hdiv
  refine ⟨⟨hne _ (by decide) (by decide), hne _ (by decide) (by decide)⟩, ?_⟩
  intro hfill
  exact hne "FILL" (by decide) (by decide) (by simpa [RawActivity.isFill] using hfill)

/-- **Other cash that the ledger posted** is let through where it is off the instrument. -/
theorem rowKind_other {s : PopulationSource} {raw : CashActivity} {r : Recorder}
    (h : Recorder.ofActivity raw = some r) (hr : r ≠ .fee)
    (hread : ∃ found, r.receipt raw = .ok found) :
    (OffInstrument s raw.toInboxActivity → TakenAs s raw.toInboxActivity .passed) ∧
      (¬ OffInstrument s raw.toInboxActivity →
        ∀ kind, rowKind s raw.toInboxActivity ≠ .ok kind) := by
  obtain ⟨hfee, hfill⟩ := not_movement_of_cash h hr
  have hnone : cashFeeReceipt raw.toInboxActivity = .ok none := cashFeeReceipt_none hfee
  have hcoin : raw.isCoinFee = false := by simp [InboxActivity.isCoinFee, hfee.2]
  have hmovement : movement s raw.toInboxActivity = 0 := by simp [movement, hfill, hcoin]
  -- a row that names nothing is let through by its type
  have hcash : checkCashRow raw.toInboxActivity = .ok () ↔
      raw.activityType ∈ ["JNLC", "CSD", "CSW", "INT"] := by
    cases r with
    | fee => exact absurd rfl hr
    | adjustment =>
        obtain ⟨found, hfound⟩ := hread
        cases found with
        | none => exact absurd hfound (Recorder.receipt_ne_none h)
        | some receipt => exact checkCashRow_adjustment hfound
    | dividend =>
        have hdiv : raw.isDividend = true := Recorder.type_of_ofActivity h
        refine ⟨fun hc => absurd hc (checkCashRow_dividend hdiv), fun hc => ?_⟩
        simp only [List.mem_cons, List.not_mem_nil, or_false] at hc
        rcases hc with hc | hc | hc | hc <;>
          exact absurd hc (CashActivity.type_ne_of_isDividend hdiv (by decide))
  have hrow : rowKind s raw.toInboxActivity =
      if withoutSlash raw.symbol = [] then (checkCashRow raw.toInboxActivity).map fun _ => .passed
      else if Names s raw.toInboxActivity then
        .error (assetFeeIntegrity "ASSET_FEE_POPULATION_UNCLASSIFIED_MOVEMENT")
      else .ok .passed := by
    unfold rowKind
    rw [hnone]
    show (if withoutSlash raw.symbol = [] then _ else _) = _
    by_cases hblank : withoutSlash raw.symbol = []
    · rw [if_pos hblank, if_pos hblank]
      cases checkCashRow raw.toInboxActivity <;> rfl
    rw [if_neg hblank, if_neg hblank]
    by_cases hnames : Names s raw.toInboxActivity
    · have hsame : withoutSlash raw.symbol = withoutSlash s.asset.symbol := hnames
      rw [if_pos hnames, if_neg (not_not.2 hsame), if_neg hfill, if_neg hfee.2]
    · have hother : withoutSlash raw.symbol ≠ withoutSlash s.asset.symbol := hnames
      rw [if_neg hnames, if_pos hother]
      rfl
  constructor
  · intro hoff
    refine ⟨?_, hmovement.symm, ⟨fun h => (by cases h), fun h => absurd h.1 hfill⟩, rfl⟩
    rw [hrow]
    rcases hoff with ⟨hblank, htype⟩ | ⟨hblank, hnames⟩
    · rw [if_pos hblank, hcash.2 htype]
      rfl
    · rw [if_neg hblank, if_neg hnames]
  · intro hon kind hkind
    rw [hrow] at hkind
    by_cases hblank : withoutSlash raw.symbol = []
    · rw [if_pos hblank] at hkind
      cases hcheck : checkCashRow raw.toInboxActivity with
      | ok u => exact hon (.inl ⟨hblank, hcash.1 hcheck⟩)
      | error e =>
          rw [hcheck] at hkind
          cases hkind
    · rw [if_neg hblank] at hkind
      by_cases hnames : Names s raw.toInboxActivity
      · rw [if_pos hnames] at hkind
        cases hkind
      · exact hon (.inr ⟨hblank, hnames⟩)

/-! ### Links -/

/-- Every execution that a fee names is on record. -/
def CandidatesOnRecord (s : PopulationSource) (eligible : List InboxActivity) : Prop :=
  ∀ raw ∈ eligible, raw.isFill = true → ∃ f ∈ s.fills, f.brokerFillId = some raw.id

theorem exists_raiseIf_bind {p : Prop} [Decidable p] {e : Raised} {β : Type}
    {f : Unit → Except Raised β} :
    (∃ b, (raiseIf p e >>= f) = .ok b) ↔ ¬ p ∧ ∃ b, f () = .ok b := by
  simp only [except_bind_eq_ok, raiseIf_eq_ok_iff]
  constructor
  · rintro ⟨b, ⟨⟩, hp, hb⟩
    exact ⟨hp, b, hb⟩
  · rintro ⟨hp, b, hb⟩
    exact ⟨b, (), hp, hb⟩

/-- A fee in cash has a population, or is of none, exactly where its link resolves. -/
theorem cashFeePopulation_iff {s : PopulationSource} {eligible : List InboxActivity}
    {cash : InboxActivity} (hcreated : cash.createdAt ≠ none)
    (hrecord : CandidatesOnRecord s eligible) :
    (∃ p, cashFeePopulation s eligible cash = .ok p) ↔ LinkResolves s eligible cash := by
  have hfound : ¬ (((candidates eligible cash).map fun raw =>
      lastWith (fun f : Fill => f.brokerFillId = some raw.id) s.fills).any (·.isNone) = true) := by
    intro hany
    obtain ⟨o, ho, hnone⟩ := List.any_eq_true.1 hany
    obtain ⟨raw, hraw, rfl⟩ := List.mem_map.1 ho
    obtain ⟨hmem, hkind⟩ := List.mem_filter.1 hraw
    obtain ⟨f, hf, hid⟩ := hrecord raw hmem (of_decide_eq_true hkind).1
    have hnone := Option.isNone_iff_eq_none.1 hnone
    rw [lastWith, List.find?_eq_none] at hnone
    exact hnone f (List.mem_reverse.2 hf) (by simpa using hid)
  -- one check after the other
  unfold cashFeePopulation
  rw [exists_raiseIf_bind, and_iff_right hcreated]
  by_cases hnothing : cash.orderId.all (· = "") ∧ cash.fillId.all (· = "")
  · rw [if_pos hnothing]
    exact ⟨fun _ => .inl hnothing, fun _ => ⟨none, rfl⟩⟩
  rw [if_neg hnothing]
  change (∃ p, (raiseIf (candidates eligible cash = []) _ >>= _) = .ok p) ↔ _
  rw [exists_raiseIf_bind]
  change ¬ _ ∧ (∃ p, (raiseIf (((candidates eligible cash).map fun raw =>
    lastWith (fun f : Fill => f.brokerFillId = some raw.id) s.fills).any (·.isNone) = true) _ >>=
      _) = .ok p) ↔ _
  rw [exists_raiseIf_bind, and_iff_right hfound]
  have hresolves : LinkResolves s eligible cash ↔ candidates eligible cash ≠ [] ∧
      ((linkedFills s eligible cash).any (fun f => f.side ≠ .sell) = true ∨
        (((linkedFills s eligible cash).map fun f => assetIdentityKey f.asset).dedup).length = 1) :=
    or_iff_right hnothing
  rw [hresolves]
  refine and_congr_right fun _ => ?_
  unfold linkedFills
  set selected := ((candidates eligible cash).map fun raw =>
    lastWith (fun f : Fill => f.brokerFillId = some raw.id) s.fills).reduceOption
  dsimp only
  by_cases hsell : (selected.any fun f => f.side ≠ .sell) = true
  · rw [if_pos hsell]
    exact ⟨fun _ => .inl hsell, fun _ => ⟨none, rfl⟩⟩
  rw [if_neg hsell, or_iff_right hsell, exists_raiseIf_bind, not_not]
  refine and_iff_left ?_
  split
  · exact ⟨_, rfl⟩
  · exact ⟨_, rfl⟩

theorem cashFeePopulations_iff {s : PopulationSource} {eligible fees : List InboxActivity} :
    (∃ ps, cashFeePopulations s eligible fees = .ok ps) ↔
      ∀ cash ∈ fees, ∃ p, cashFeePopulation s eligible cash = .ok p := by
  induction fees with
  | nil => exact ⟨fun _ _ h => absurd h List.not_mem_nil, fun _ => ⟨[], rfl⟩⟩
  | cons cash rest ih =>
      rw [List.forall_mem_cons, ← ih]
      simp only [cashFeePopulations.eq_2, except_bind_eq_ok]
      constructor
      · rintro ⟨ps, p, hp, others, hothers, -⟩
        exact ⟨⟨p, hp⟩, others, hothers⟩
      · rintro ⟨⟨p, hp⟩, others, hothers⟩
        exact ⟨_, p, hp, others, hothers, rfl⟩

/-- The populations of the fees do not depend on the predicate. -/
theorem cashFeePopulations_congr (s : PopulationSource) (e : InboxActivity → Bool)
    (eligible fees : List InboxActivity) :
    cashFeePopulations { s with eligible := e } eligible fees =
      cashFeePopulations s eligible fees := by
  induction fees with
  | nil => rfl
  | cons cash rest ih =>
      unfold cashFeePopulations
      rw [ih]
      rfl

/-! ### The whole population -/

section Population

variable {asset : AssetIdentity} {activities : List CashActivity} {fills : List Fill}
  {intents : List TradeIntent} {brokerQuantity : ℚ} {membership : Option MembershipResult}

/-- The activities that belong to the generation. -/
def eligibleRows (membership : Option MembershipResult) (activities : List CashActivity) :
    List InboxActivity :=
  (activities.map (·.toInboxActivity)).filter (belongs membership)

theorem eligibleFor_eq (hresolved : ∀ m, membership = some m → requireResolved m = .ok ()) :
    eligibleFor (activities.map (·.toInboxActivity)) membership =
      .ok (eligibleRows membership activities) := by
  cases membership with
  | none =>
      have htrue : belongs none = fun _ => true := rfl
      simp [eligibleFor, eligibleRows, htrue]
  | some m =>
      show (requireResolved m >>= fun _ => _) = _
      rw [hresolved m rfl]
      rfl

/-- Whether an activity belongs is said by its identity. -/
theorem belongs_congr {raw row : InboxActivity} (h : row.id = raw.id) :
    belongs membership row = belongs membership raw := by
  cases membership with
  | none => rfl
  | some m =>
      show Option.any _ (m.classified.statusOf row.id) = Option.any _ (m.classified.statusOf raw.id)
      rw [h]

theorem any_eligibleRows {raw : InboxActivity} (hraw : raw ∈ activities.map (·.toInboxActivity)) :
    ((eligibleRows membership activities).any fun row => row.id = raw.id) =
      belongs membership raw := by
  rw [Bool.eq_iff_iff, List.any_eq_true]
  constructor
  · rintro ⟨row, hrow, hid⟩
    rw [← belongs_congr (of_decide_eq_true hid)]
    exact (List.mem_filter.1 hrow).2
  · intro hbelongs
    exact ⟨raw, List.mem_filter.2 ⟨hraw, hbelongs⟩, by simp⟩

theorem countRows_congr {s : PopulationSource} {e : InboxActivity → Bool} {c : Counting}
    {rows : List InboxActivity} (h : ∀ raw ∈ rows, e raw = s.eligible raw) :
    countRows { s with eligible := e } c rows = countRows s c rows := by
  induction rows generalizing c with
  | nil => rfl
  | cons raw rest ih =>
      have hrow : countRow { s with eligible := e } c raw = countRow s c raw := by
        have hraw := h raw List.mem_cons_self
        unfold countRow
        simp only [hraw]
        rfl
      unfold countRows
      rw [hrow]
      congr 1
      funext c'
      exact ih fun x hx => h x (List.mem_cons_of_mem _ hx)

/-- An activity belongs with the membership it is posted with. -/
theorem belongs_postedWith {raw : CashActivity} (hraw : raw ∈ activities)
    (h : belongs membership raw.toInboxActivity = true) :
    ((postedWith membership activities).classified.statusOf raw.id).any (·.eligible) = true := by
  cases membership with
  | some m => exact h
  | none =>
      have hmem : (⟨raw.id, .inGeneration, ""⟩ : Classified) ∈
          (GenerationCash.unbound activities).classified := List.mem_map.2 ⟨raw, hraw, rfl⟩
      change Option.any _ (Classifications.statusOf (GenerationCash.unbound activities).classified
        raw.id) = true
      unfold Classifications.statusOf
      cases hfind : List.find? (fun c => c.id = raw.id)
          (GenerationCash.unbound activities).classified with
      | none =>
          rw [List.find?_eq_none] at hfind
          exact absurd (by simp) (hfind _ hmem)
      | some c =>
          obtain ⟨x, -, rfl⟩ := List.mem_map.1 (List.mem_of_find?_eq_some hfind)
          rfl

/-- When a population is proved: the walk succeeds, it leaves no fill out, it adds up, and each fee
in cash has its population. -/
theorem validateFeePopulation_iff
    (hpop : CompletePopulation (populationSource asset fills intents membership) activities
      brokerQuantity membership) :
    (∃ result, validateFeePopulation asset (activities.map (·.toInboxActivity)) fills intents
        brokerQuantity membership = .ok result) ↔
      ∃ counted, countRows (populationSource asset fills intents membership) {}
          (activities.map (·.toInboxActivity)) = .ok counted ∧
        (∀ f ∈ (populationSource asset fills intents membership).ownFills, ∀ id,
          f.brokerFillId = some id → id ∈ counted.matched) ∧
        counted.net + openingQuantity (membership.bind (·.checkpoint)) (assetIdentityKey asset) =
          brokerQuantity ∧
        ∃ ps, cashFeePopulations (populationSource asset fills intents membership)
          (eligibleRows membership activities) counted.cashFees = .ok ps := by
  obtain ⟨hsome, hknown, hnodup⟩ := hpop.own
  have hown : ¬ ((populationSource asset fills intents membership).ownFills = [] ∨
      none ∈ (populationSource asset fills intents membership).ownFills.map (·.brokerFillId) ∨
      ¬ ((populationSource asset fills intents membership).ownFills.map
        (·.brokerFillId)).Nodup) := by
    rintro (h | h | h)
    · exact hsome h
    · exact hknown h
    · exact h hnodup
  -- the rows that count are found by their identity here, by themselves there
  have hwalk : countRows
      { asset := asset, fills := fills, intents := intents
        eligible := fun raw => (eligibleRows membership activities).any fun row => row.id = raw.id }
      {} (activities.map (·.toInboxActivity)) =
      countRows (populationSource asset fills intents membership) {}
        (activities.map (·.toInboxActivity)) :=
    countRows_congr (s := populationSource asset fills intents membership)
      fun raw hraw => any_eligibleRows hraw
  have hlinks := cashFeePopulations_congr (populationSource asset fills intents membership)
    (fun raw => (eligibleRows membership activities).any fun row => row.id = raw.id)
    (eligibleRows membership activities)
  unfold validateFeePopulation
  change (∃ result, (raiseIf _ _ >>= _) = .ok result) ↔ _
  rw [exists_raiseIf_bind]
  refine (and_iff_right hown).trans ?_
  rw [eligibleFor_eq hpop.resolved]
  change (∃ result, (countRows _ _ _ >>= _) = .ok result) ↔ _
  rw [hwalk]
  simp only [except_bind_eq_ok, raiseIf_eq_ok_iff]
  constructor
  · rintro ⟨result, counted, hcounted, -, hmatched, -, hsum, ps, hps, -⟩
    exact ⟨counted, hcounted, not_not.1 hmatched, not_not.1 hsum, ps, hlinks _ ▸ hps⟩
  · rintro ⟨counted, hcounted, hmatched, hsum, ps, hps⟩
    exact ⟨_, counted, hcounted, (), not_not.2 hmatched, (), not_not.2 hsum, ps,
      (hlinks _).trans hps, rfl⟩

theorem taken_of_posted {s : PopulationSource} {m : MembershipResult} {raw : CashActivity}
    (hclass : LocalExecution s raw.toInboxActivity ∨ raw.isCoinFee = true ∨
      (Recorder.ofActivity raw).isSome)
    (helig : (m.classified.statusOf raw.id).any (·.eligible) = true) (hread : WasRead m raw) :
    (Recorder.ofActivity raw = some .fee ∧ rowKind s raw.toInboxActivity = .ok .cash ∧
        movement s raw.toInboxActivity = 0 ∧ raw.isFill = false ∧ raw.createdAt ≠ none) ∨
      (Recorder.ofActivity raw ≠ some .fee ∧
        ((∃ r, Recorder.ofActivity raw = some r) → ¬ OffInstrument s raw.toInboxActivity →
          ∀ kind, rowKind s raw.toInboxActivity ≠ .ok kind) ∧
        (((∃ r, Recorder.ofActivity raw = some r) → OffInstrument s raw.toInboxActivity) →
          ∃ kind, TakenAs s raw.toInboxActivity kind)) := by
  obtain ⟨found, hfee⟩ := hread.fee
  cases hrecorder : Recorder.ofActivity raw with
  | none =>
      refine .inr ⟨by simp, fun h => absurd h (by simp), fun _ => ?_⟩
      rcases hclass with hexec | hcoin | hcash
      · exact hexec.taken
      · exact taken_of_isCoinFee hcoin hfee
      · rw [hrecorder] at hcash
        cases hcash
  | some r =>
      by_cases hr : r = .fee
      · subst hr
        have htype : raw.activityType = "FEE" ∨ (raw.activityType = "CFEE" ∧
            raw.description ≠ "Coin Pair Transaction Fee (Non USD)") :=
          Recorder.type_of_ofActivity hrecorder
        have hfill : raw.isFill = false := by
          rcases htype with h | ⟨h, -⟩ <;> simp [RawActivity.isFill, h]
        have hcoin : raw.isCoinFee = false := by
          rcases htype with h | ⟨-, h⟩ <;> simp [InboxActivity.isCoinFee, h]
        exact .inl ⟨rfl, rowKind_fee hrecorder hfee, by simp [movement, hfill, hcoin], hfill,
          createdAt_of_fee hrecorder hfee⟩
      · have hother : ∃ found, r.receipt raw = .ok found := by
          cases r with
          | fee => exact absurd rfl hr
          | adjustment => exact hread.adjustment helig
          | dividend =>
              obtain ⟨receipt, hreceipt⟩ := hread.dividend
              exact ⟨_, by simp [Recorder.receipt, hreceipt, Except.map]; rfl⟩
        obtain ⟨hoff, hon⟩ := rowKind_other (s := s) hrecorder hr hother
        exact .inr ⟨by simpa using hr, fun _ => hon, fun h => ⟨.passed, hoff (h ⟨r, rfl⟩)⟩⟩

/-- Cash has a time where it says when it was created. -/
theorem identified_of_cash {raw : CashActivity} (hid : raw.id ≠ "")
    (hcash : (Recorder.ofActivity raw).isSome = true) :
    Identified raw.toInboxActivity ↔ raw.createdAt ≠ none := by
  have hfill : raw.isFill = false := by
    by_contra hfill
    have htype : raw.activityType = "FILL" := by simpa [RawActivity.isFill] using hfill
    simp [Recorder.ofActivity, CashActivity.isDividend, htype, adjustmentTypes] at hcash
  unfold Identified activityTime
  rw [hfill]
  cases raw.createdAt with
  | none => simp
  | some time => simp [hid]

theorem kindOf_eq {s : PopulationSource} {raw : InboxActivity} {kind : RowKind}
    (h : rowKind s raw = .ok kind) : kindOf s raw = kind := by
  simp [kindOf, h, Except.toOption]

theorem letThrough_fee {s : PopulationSource} {eligible : List InboxActivity} {raw : CashActivity}
    (h : Recorder.ofActivity raw = some .fee) :
    LetThrough s eligible raw ↔ LinkResolves s eligible raw.toInboxActivity := by
  unfold LetThrough
  rw [h]

theorem letThrough_other {s : PopulationSource} {eligible : List InboxActivity} {raw : CashActivity}
    (h : Recorder.ofActivity raw ≠ some .fee) :
    LetThrough s eligible raw ↔ ((∃ r, Recorder.ofActivity raw = some r) →
      OffInstrument s raw.toInboxActivity ∧ raw.createdAt ≠ none) := by
  unfold LetThrough
  cases hrecorder : Recorder.ofActivity raw with
  | none => simp
  | some r =>
      cases r with
      | fee => exact absurd hrecorder h
      | adjustment => simp
      | dividend => simp

/-- The executions of a complete population are on record. -/
theorem CompletePopulation.candidatesOnRecord
    (hpop : CompletePopulation (populationSource asset fills intents membership) activities
      brokerQuantity membership) :
    CandidatesOnRecord (populationSource asset fills intents membership)
      (eligibleRows membership activities) := by
  intro row hrow hfill
  obtain ⟨hrow, hbelongs⟩ := List.mem_filter.1 hrow
  obtain ⟨raw, hraw, rfl⟩ := List.mem_map.1 hrow
  have htype : raw.activityType = "FILL" := by simpa [RawActivity.isFill] using hfill
  rcases hpop.classified raw hraw hbelongs with hexec | hcoin | hcash
  · exact hexec.recorded
  · simp [InboxActivity.isCoinFee, htype] at hcoin
  · -- an execution is of no type that the ledger posts
    simp [Recorder.ofActivity, CashActivity.isDividend, htype, adjustmentTypes] at hcash

/-- **The two classifications**: a complete population whose cash was posted is proved if and only
if the proof lets each of its cash activities through. -/
theorem classifiers_agree_iff {now : Instant} {l l' : GenerationLedger} {ids : List String}
    (hpop : CompletePopulation (populationSource asset fills intents membership) activities
      brokerQuantity membership)
    (hposted : persistGenerationFees (postedWith membership activities) now activities l =
      .ok (l', ids)) :
    (∃ result, validateFeePopulation asset (activities.map (·.toInboxActivity)) fills intents
        brokerQuantity membership = .ok result) ↔
      ∀ raw ∈ activities, belongs membership raw.toInboxActivity = true →
        LetThrough (populationSource asset fills intents membership)
          (eligibleRows membership activities) raw := by
  have hrecord := hpop.candidatesOnRecord
  have hread := persistGenerationFees_reads hposted
  have htaken : ∀ raw ∈ activities, belongs membership raw.toInboxActivity = true → _ :=
    fun raw hraw hbelongs => taken_of_posted (hpop.classified raw hraw hbelongs)
      (belongs_postedWith hraw hbelongs) (hread raw hraw)
  rw [validateFeePopulation_iff hpop]
  set s := populationSource asset fills intents membership with hs
  constructor
  · rintro ⟨counted, hcounted, -, -, ps, hps⟩ raw hraw hbelongs
    obtain ⟨hall, -, rfl⟩ := countRows_iff.1 hcounted
    have hmem : raw.toInboxActivity ∈ activities.map (·.toInboxActivity) :=
      List.mem_map_of_mem hraw
    rcases htaken raw hraw hbelongs with ⟨hfee, hrow, -, -, hcreated⟩ | ⟨hother, hrefused, -⟩
    · rw [letThrough_fee hfee, ← cashFeePopulation_iff hcreated hrecord]
      refine cashFeePopulations_iff.1 ⟨ps, hps⟩ _ ?_
      rw [cashFees_foldl, List.mem_append, List.mem_filter]
      exact .inr ⟨hmem, by simp [kindOf_eq hrow, RowKind.isCash]; exact hbelongs⟩
    · rw [letThrough_other hother]
      intro hcash
      constructor
      · by_contra hon
        obtain ⟨kind, hkind⟩ := (hall _ hmem).2.2 hbelongs
        exact hrefused hcash hon kind hkind
      · refine (identified_of_cash (hread raw hraw).named ?_).1 (hall _ hmem).1
        exact Option.isSome_iff_exists.2 hcash
  · intro hpasses
    -- each eligible row is taken for what it changes
    have hrows : ∀ raw ∈ activities, belongs membership raw.toInboxActivity = true →
        ∃ kind, rowKind s raw.toInboxActivity = .ok kind ∧
          kind.quantity = movement s raw.toInboxActivity ∧
          (raw.isFill = true → Names s raw.toInboxActivity → kind.isExecution = true) ∧
          (kind.isCash = true → LinkResolves s (eligibleRows membership activities)
            raw.toInboxActivity ∧ raw.createdAt ≠ none) ∧
          Identified raw.toInboxActivity := by
      intro raw hraw hbelongs
      have hpass := hpasses raw hraw hbelongs
      rcases htaken raw hraw hbelongs with
        ⟨hfee, hrow, hzero, hfill, hcreated⟩ | ⟨hother, -, htake⟩
      · refine ⟨.cash, hrow, hzero.symm, fun h => ?_, fun _ => ⟨(letThrough_fee hfee).1 hpass,
          hcreated⟩, (identified_of_cash (hread raw hraw).named (by simp [hfee])).2 hcreated⟩
        rw [hfill] at h
        cases h
      · have hpass := (letThrough_other hother).1 hpass
        obtain ⟨kind, htakes⟩ := htake fun h => (hpass h).1
        refine ⟨kind, htakes.row, htakes.quantity, fun h₁ h₂ => htakes.execution.2 ⟨h₁, h₂⟩,
          fun hcash => ?_, ?_⟩
        · rw [htakes.cash] at hcash
          cases hcash
        · cases hrecorder : Recorder.ofActivity raw with
          | none => exact hpop.identified raw hraw fun _ => hrecorder
          | some r =>
              exact (identified_of_cash (hread raw hraw).named (by simp [hrecorder])).2
                (hpass ⟨r, hrecorder⟩).2
    refine ⟨_, countRows_iff.2 ⟨?_, ?_, rfl⟩, ?_, ?_, ?_⟩
    · intro row hrow
      obtain ⟨raw, hraw, rfl⟩ := List.mem_map.1 hrow
      refine ⟨?_, List.not_mem_nil, fun hbelongs => ?_⟩
      · by_cases hbelongs : belongs membership raw.toInboxActivity = true
        · obtain ⟨-, -, -, -, -, hidentified⟩ := hrows raw hraw hbelongs
          exact hidentified
        · exact hpop.identified raw hraw fun h => absurd h hbelongs
      · obtain ⟨kind, hkind, -⟩ := hrows raw hraw hbelongs
        exact ⟨kind, hkind⟩
    · rw [List.map_map]
      exact hpop.nodup
    · intro f hf id hid
      obtain ⟨raw, hraw, hbelongs, hfill, hnames, hfillId⟩ := hpop.matched f hf
      obtain ⟨kind, hkind, -, hexec, -⟩ := hrows raw hraw hbelongs
      rw [mem_matched_foldl]
      refine .inr ⟨raw.toInboxActivity, List.mem_map_of_mem hraw, ?_, hbelongs, ?_⟩
      · rw [hfillId] at hid
        exact Option.some.inj hid
      · rw [kindOf_eq hkind]
        exact hexec hfill hnames
    · rw [net_foldl, ← hpop.addsUp, List.map_map]
      show 0 + _ + _ = _
      rw [zero_add]
      congr 2
      refine List.map_congr_left fun raw hraw => ?_
      show (if belongs membership raw.toInboxActivity then _ else _) = _
      by_cases hbelongs : belongs membership raw.toInboxActivity = true
      · obtain ⟨kind, hkind, hquantity, -⟩ := hrows raw hraw hbelongs
        rw [if_pos hbelongs, if_pos hbelongs, kindOf_eq hkind, hquantity]
      · rw [if_neg hbelongs, if_neg hbelongs]
    · refine cashFeePopulations_iff.2 fun row hrow => ?_
      rw [cashFees_foldl, List.mem_append, List.mem_filter] at hrow
      rcases hrow with hrow | ⟨hrow, hcash⟩
      · cases hrow
      obtain ⟨raw, hraw, rfl⟩ := List.mem_map.1 hrow
      obtain ⟨hbelongs, hcash⟩ := Bool.and_eq_true_iff.1 hcash
      obtain ⟨kind, hkind, -, -, hlink, -⟩ := hrows raw hraw hbelongs
      rw [kindOf_eq hkind] at hcash
      obtain ⟨hresolves, hcreated⟩ := hlink hcash
      exact (cashFeePopulation_iff hcreated hrecord).2 hresolves

end Population

/-! ### Cash that is posted and not let through -/

section Runs

private def raisedBy {α : Type} : Except Raised α → Option Raised
  | .error e => some e
  | .ok _ => none

private theorem exists_ok {α : Type} {x : Except Raised α} (h : x.toOption.isSome = true) :
    ∃ a, x = .ok a := by
  cases x with
  | ok a => exact ⟨a, rfl⟩
  | error e => cases h

/-- Ten shares were bought. -/
private def sharesBought : Fill :=
  ⟨{ fillId := "buy"
     tradeIntentId := "intent"
     orderId := "order"
     asset := { symbol := "AAPL", assetClass := .equity, nativeAssetId := "alpaca:AAPL" }
     side := .buy
     executionMode := .paper
     quantity := 10
     price := 100
     fees := 0
     filledAt := 5
     brokerFillId := some "buy" }, by decide +kernel⟩

private def sharesIntent : TradeIntent :=
  { tradeIntentId := "intent"
    idempotencyKey := "key"
    correlationId := "correlation"
    asset := sharesBought.asset
    side := .buy
    executionMode := .paper
    strategy := "momentum"
    createdAt := 4
    requestedQuantity := some 10
    status := .filled
    brokerOrderId := some "order" }

private def sharesReceipt : CashActivity :=
  { id := "buy", activityType := "FILL", symbol := "AAPL", side := "buy", qty := .exact 10,
    price := .exact 100, transactionTime := some 5, orderId := some "order" }

private def cashMoves (id activityType symbol : String) (amount : ℚ) : CashActivity :=
  { id := id, activityType := activityType, symbol := symbol, netAmount := .exact amount,
    status := "executed", currency := "USD", createdAt := some 6 }

private def sharesSource : PopulationSource :=
  populationSource sharesBought.asset [sharesBought] [sharesIntent] none

/-- Whatever cash moved besides, the population of the shares is complete. -/
private theorem complete_shares {cash : List CashActivity}
    (hkind : ∀ raw ∈ cash, (Recorder.ofActivity raw).isSome = true)
    (hnodup : ((sharesReceipt :: cash).map (·.id)).Nodup)
    (hsum : ((sharesReceipt :: cash).map fun raw =>
      movement sharesSource raw.toInboxActivity).sum = 10) :
    CompletePopulation sharesSource (sharesReceipt :: cash) 10 none where
  own := by decide +kernel
  resolved := fun m h => (by cases h)
  identified := by
    intro raw hraw hnone
    rcases List.mem_cons.1 hraw with rfl | hraw
    · exact ⟨by decide, 5, rfl⟩
    · have hcash := hkind raw hraw
      rw [hnone rfl] at hcash
      cases hcash
  nodup := hnodup
  classified := by
    intro raw hraw _
    rcases List.mem_cons.1 hraw with rfl | hraw
    · exact .inl ⟨rfl, by decide, ⟨sharesBought, List.mem_singleton_self _, rfl⟩,
        fun _ => exists_ok (by decide +kernel)⟩
    · exact .inr (.inr (hkind raw hraw))
  matched := by
    intro f hf
    have hf := List.mem_singleton.1 (List.mem_of_mem_filter hf)
    exact ⟨sharesReceipt, List.mem_cons_self, rfl, rfl, rfl, by rw [hf]; rfl⟩
  addsUp := by
    rw [← hsum]
    exact add_zero _

/-- A fee, one of the order, a deposit, and a dividend of other shares. -/
private def cashOfTheAccount : List CashActivity :=
  [cashMoves "fee" "FEE" "" (-1),
    { cashMoves "orderFee" "FEE" "" (-1) with orderId := some "order" },
    cashMoves "deposit" "CSD" "" 100, cashMoves "dividend" "DIV" "MSFT" 2]

/-- They all pass, and the population of the shares is proved. -/
theorem classifiers_agree_shares :
    ∃ result, validateFeePopulation sharesBought.asset
      ((sharesReceipt :: cashOfTheAccount).map (·.toInboxActivity)) [sharesBought] [sharesIntent]
      10 none = .ok result := by
  have hpop : CompletePopulation sharesSource (sharesReceipt :: cashOfTheAccount) 10 none :=
    complete_shares (by decide +kernel) (by decide +kernel) (by decide +kernel)
  obtain ⟨⟨l', ids⟩, hposted⟩ : ∃ result, persistGenerationFees
      (postedWith none (sharesReceipt :: cashOfTheAccount)) 10
      (sharesReceipt :: cashOfTheAccount) {} = .ok result := exists_ok (by decide +kernel)
  exact (classifiers_agree_iff hpop hposted).2 (by decide +kernel)

/-- Cash is posted beside the receipt of the shares, and then the shares have no population. -/
private def PostedRefused (raw : CashActivity) (e : Raised) : Prop :=
  CompletePopulation sharesSource [sharesReceipt, raw] 10 none ∧
    (∃ result, persistGenerationFees (postedWith none [sharesReceipt, raw]) 10
      [sharesReceipt, raw] {} = .ok result) ∧
    raisedBy (validateFeePopulation sharesBought.asset
      ([sharesReceipt, raw].map (·.toInboxActivity)) [sharesBought] [sharesIntent] 10 none) = some e

/-- **A dividend of the shares themselves is posted, and then they have no population**; and so are
cash that is taken from the account without naming anything, and a dividend of other shares of which
only the date is known. -/
theorem classifiers_disagree :
    PostedRefused (cashMoves "dividend" "DIV" "AAPL" 2)
        (assetFeeIntegrity "ASSET_FEE_POPULATION_UNCLASSIFIED_MOVEMENT") ∧
      PostedRefused (cashMoves "transfer" "JNLD" "" (-2))
        (assetFeeIntegrity "ASSET_FEE_POPULATION_UNCLASSIFIED_MOVEMENT") ∧
      PostedRefused { cashMoves "dividend" "DIV" "MSFT" 2 with
          createdAt := none
          creditDate := .day "2026-10-27" 1793073600000000 }
        (.valueError "activity_created_at must be timezone-aware") := by
  refine ⟨?_, ?_, ?_⟩
  all_goals
    exact ⟨complete_shares (by decide +kernel) (by decide +kernel) (by decide +kernel),
      exists_ok (by decide +kernel), by decide +kernel⟩

end Runs

end TradePulse
