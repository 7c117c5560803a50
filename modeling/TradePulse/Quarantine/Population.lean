/-
**A resolved oversell and the proof of the population.**

An oversell is resolved by executions that are not TradePulse's own.  The cash of an execution has
the key that the cash of a fill of the same activity would have, so no fill of the activity of an
execution is ever settled.  The population of the instrument, however, is proved only if every
execution of the instrument in the broker's feed is a fill on record.

Main definitions:

* `CoversIncluded` — the feed has the covers of a liability;
* `Settled` — a fill whose settlement is completed.

Main results:

* `exists_cover` — a liability that is resolved has a cover;
* `Sound.ne_of_settled` — a settled fill is of no execution's activity;
* `population_refused_of_resolved` — the population of an instrument with a resolved oversell is
  never proved, once its fills are settled.
-/

import TradePulse.Quarantine.Conservation
import TradePulse.Reconciliation.FeePopulation

set_option autoImplicit false

namespace TradePulse

namespace Quarantine

open Storage Process

/-- The feed has the covers of a liability: what it was resolved from, as executions of its
instrument, and in the generation, if there is one. -/
def CoversIncluded (b : Books) (l : ShortExposureLiability) (activities : List InboxActivity)
    (membership : Option MembershipResult) : Prop :=
  ∀ e ∈ b.quarantineExecutions,
    (∃ x ∈ b.quarantineResolutions, x.recordId = l.liabilityId ∧ x.activityId = e.activityId) →
      ∃ raw ∈ activities, raw.id = e.activityId ∧ raw.isFill = true ∧
        withoutSlash raw.symbol = withoutSlash l.asset.symbol ∧ BelongsTo membership raw

theorem exists_cover {b : Books} (h : Conserved b) {l : ShortExposureLiability}
    (hresolved : b.openQuantity (ofLiability l) = 0) :
    ∃ e ∈ b.quarantineExecutions, ∃ x ∈ b.quarantineResolutions,
      x.recordId = l.liabilityId ∧ x.activityId = e.activityId := by
  have hpos : 0 < b.resolved l.liabilityId := by
    have heq : b.resolved l.liabilityId = l.quantity := by
      unfold Books.openQuantity at hresolved
      exact (sub_eq_zero.1 hresolved).symm
    rw [heq]
    exact liability_quantity_pos l
  obtain ⟨x, hx, hid⟩ : ∃ x ∈ b.quarantineResolutions, x.recordId = l.liabilityId := by
    by_contra hnone
    have hzero : b.resolved l.liabilityId = 0 :=
      Table.sum_eq_zero fun x hx => if_neg fun hid => hnone ⟨x, hx, hid⟩
    rw [hzero] at hpos
    exact lt_irrefl 0 hpos
  obtain ⟨e, he⟩ := Option.isSome_iff_exists.1 (h.executed x hx)
  obtain ⟨hmem, heid⟩ := Table.get?_eq_some_iff.1 he
  exact ⟨e, hmem, x, hx, hid, heid.symm⟩

/-- A settled fill: it is recorded under the id of its activity, its settlement is completed, and its
cash is on the ledger. -/
def Settled (s : Store) (f : Fill) : Prop :=
  f.brokerFillId = some f.fillId ∧ ∃ event ∈ s.settlements.rows, event.fillId = f.fillId ∧
    event.status = .completed ∧ ∃ c ∈ s.cashLedger.rows, cashEvidence s event = .ok c

instance (s : Store) (f : Fill) : Decidable (Settled s f) :=
  inferInstanceAs (Decidable (_ ∧ ∃ event ∈ _, _))

/-- **A settled fill is of no execution's activity**: the two would have one key in the ledger. -/
theorem Sound.ne_of_settled {b : Books} (h : Sound b) {e : QuarantineExecution}
    (he : e ∈ b.quarantineExecutions) {f : Fill} (hf : Settled b.store f) :
    f.brokerFillId ≠ some e.activityId := by
  intro hsame
  obtain ⟨hactivity, event, -, hevent, -, c, hc, hcash⟩ := hf
  have hid : f.fillId = e.activityId := Option.some.inj (hactivity.symm.trans hsame)
  obtain ⟨fill, hfill, hcash⟩ := except_bind_eq_ok.1 hcash
  obtain ⟨m, -, hcash⟩ := except_bind_eq_ok.1 hcash
  have hfillId : fill.fillId = e.activityId := by
    unfold sourceFill at hfill
    split at hfill
    · cases hfill
    · rename_i hget
      split at hfill <;> cases hfill
      exact (Table.get?_eq_some_iff.1 hget).2.trans (hevent.trans hid)
  have hmem : c ∈ b.cashOf e.activityId := by
    refine List.mem_filter.2 ⟨hc, decide_eq_true (.inl ?_)⟩
    cases hcash
    rw [← hfillId]
  -- one row cannot be both entries
  obtain ⟨m', -, hown⟩ := except_bind_eq_ok.1 (h.evidence e he c hmem)
  have hreason : c.reason = "quarantine execution cash; accounting-v1" := by
    cases hown
    rfl
  have hreason' : c.reason = "immutable fill cash; accounting-v1" := by
    cases hcash
    rfl
  rw [hreason'] at hreason
  exact absurd hreason (by decide)

/-- **The population of a resolved oversell is never proved.**  Whatever happened before, whatever
else the feed has, and whatever the broker holds: once a liability is fully resolved and the fills
of the instrument are settled, a feed with its covers is refused. -/
theorem population_refused_of_resolved {s : Store} {orders : List OrderRow}
    {unresolved : Table UnresolvedExecution} {generationId : Option String} {files : List String}
    {w : Process.Pool Books Raised (ResPar Settlement.Op.Res Op.Res)}
    (hreach : concurrent.Reaches (fun _ _ => True)
      ⟨.unquarantined s orders unresolved generationId files, []⟩ w)
    {l : ShortExposureLiability} (hresolved : w.store.openQuantity (ofLiability l) = 0)
    (hsettled : ∀ f ∈ w.store.store.fills, assetIdentityKey f.asset = assetIdentityKey l.asset →
      Settled w.store.store f)
    {activities : List InboxActivity} {membership : Option MembershipResult}
    (hcovers : CoversIncluded w.store l activities membership) (brokerQuantity : ℚ)
    (result : List HistoricalFees.AssetFee × FeePopulationProof) :
    validateFeePopulation l.asset activities w.store.store.fills.rows
      w.store.store.tradeIntents.rows brokerQuantity membership ≠ .ok result := by
  have hsound : Sound w.store := (good_of_reaches hreach).1
  obtain ⟨e, he, hcover⟩ := exists_cover hsound.toConserved hresolved
  obtain ⟨raw, hraw, hid, hfill, hsymbol, hbelongs⟩ := hcovers e he hcover
  refine validateFeePopulation_external hraw hfill hsymbol hbelongs (fun f hf hown => ?_) result
  rw [hid]
  exact hsound.ne_of_settled he (hsettled f hf hown)

section Runs

/-- The sale, as the broker reports it. -/
private def saleReceipt : InboxActivity :=
  { id := "sale", activityType := "FILL", symbol := "AAPL", side := "sell", qty := .exact 2,
    price := .exact 12, transactionTime := some 1, orderId := some "order-sale" }

/-- The purchase that covers it. -/
private def coverReceipt : InboxActivity :=
  { id := "cover", activityType := "FILL", symbol := "AAPL", side := "buy", qty := .exact 2,
    price := .exact 11, transactionTime := some 2 }

private def aapl : AssetIdentity :=
  { symbol := "AAPL", assetClass := .equity, nativeAssetId := "alpaca:AAPL" }

/-- A pass projects the sale of two shares that were never bought; then two shares cover it. -/
private def coveredExactly : List Action :=
  List.flatten
    [ [.start (.inl {})], List.replicate 40 (.run 0 ({ now := 1 }, {})),
      [.start (.inr (.resolve "cover" "bought in by the broker" 3))],
      List.replicate 6 (.run 1 ({}, { activities := [buyIn "cover" 2 11 2] })) ]

/-- The sale is settled, its liability resolved, nothing is left over and no lot is open. -/
private def Finished (b : Books) : Prop :=
  (∀ e ∈ b.store.settlements, e.status = .completed) ∧
    (∀ f ∈ b.store.fills.rows, Settled b.store f) ∧ (b.records.map fun r => (r.recordId, b.openQuantity r)) = [("liability:sale", 0)] ∧
      b.store.positionLots.rows = []

private instance (b : Books) : Decidable (Finished b) := inferInstanceAs (Decidable (_ ∧ _ ∧ _ ∧ _))

/-- The population of the sale and its cover is never proved, whatever the account holds. -/
theorem population_refused_coveredExactly :
    ∃ w : Process.Pool Books Raised (ResPar Settlement.Op.Res Op.Res), Finished w.store ∧
      ∃ l ∈ w.store.store.shortExposureLiabilities, ∀ brokerQuantity result,
        validateFeePopulation l.asset [saleReceipt, coverReceipt] w.store.store.fills.rows
          w.store.store.tradeIntents.rows brokerQuantity none ≠ .ok result := by
  have hrun : (concurrent.run ⟨.unquarantined oversold [] default none [], []⟩
      coveredExactly).any (fun w => decide (Finished w.store ∧
        ∃ l ∈ w.store.store.shortExposureLiabilities.rows,
          w.store.openQuantity (ofLiability l) = 0 ∧
            withoutSlash l.asset.symbol = withoutSlash "AAPL" ∧
            ∀ e ∈ w.store.quarantineExecutions.rows, e.activityId = "cover")) = true := by
    decide +kernel
  obtain ⟨w, hreach, hfinished, l, hl, hresolved, hsymbol, honly⟩ := Machine.exists_of_run hrun
  refine ⟨w, hfinished, l, hl, population_refused_of_resolved hreach hresolved
    (fun f hf _ => hfinished.2.1 f hf) ?_⟩
  intro e he _
  refine ⟨coverReceipt, by simp, (honly e he).symm, rfl, hsymbol.symm, ?_⟩
  intro m hm
  cases hm

/-- What an attempt raises. -/
private def raised {α : Type} : Except Raised α → Option Raised
  | .error e => some e
  | .ok _ => none

/-- What the population of the sale raises, when the account holds nothing. -/
private def refusal (b : Books) : Option Raised :=
  raised (validateFeePopulation aapl [saleReceipt, coverReceipt] b.store.fills.rows
    b.store.tradeIntents.rows 0 none)

/-- **The cover is taken for an execution from outside.** -/
theorem population_refused :
    ∃ w, concurrent.Reaches (fun _ _ => True) ⟨.unquarantined oversold [] default none [], []⟩ w ∧
      Finished w.store ∧ refusal w.store = some (HistoricalFees.assetFeeIntegrity
        "ASSET_FEE_POPULATION_EXTERNAL_OR_MISMATCHED_FILL") := by
  have hrun : (concurrent.run ⟨.unquarantined oversold [] default none [], []⟩
      coveredExactly).any (fun w => decide (Finished w.store ∧
        refusal w.store = some (HistoricalFees.assetFeeIntegrity
          "ASSET_FEE_POPULATION_EXTERNAL_OR_MISMATCHED_FILL"))) = true := by
    decide +kernel
  exact Machine.exists_of_run hrun

end Runs

end Quarantine

end TradePulse
