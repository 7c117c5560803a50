/-
**Two runs of the risk engine.**

`Risk/Headroom.lean` describes one run of `evaluate_risk`.  This module compares two.  In the first
comparison the situation around a request becomes tighter: more is held, fewer funds are left, the
quote is worse, a latch is newly set.  A request that is approved in the tighter situation is
approved in the looser one, for at least the same quantity.  In the second comparison the situation
is the same and the request becomes smaller: a quantity that the engine would have left, and that is
worth an order, is approved as it is.

Main definitions:

* `Situation`, `RiskCheckInput.inSituation` — what surrounds a request;
* `Tighter` — one situation is at least as tight as another, in every respect.

Main results:

* `marketReasons_mono`, `gateReasons_mono` — a check that passes in the tighter situation passes in
  the looser one;
* `capsOf_tighter` — every cap is at least as tight;
* `approves_mono` — **the engine is monotone**;
* `approves_smaller` — **a smaller quantity worth an order is approved as it is**.
-/

import TradePulse.Risk.Headroom

set_option autoImplicit false

namespace TradePulse.Risk

open Sizing (Cap sizeBy floorTo)

/-! ### Situations -/

/-- What surrounds a request: the portfolio, the options and the two signals of its strategy. -/
structure Situation where
  snapshot : PortfolioSnapshot
  opts : RiskEvalOptions
  confidence : Option ℚ := none
  regimeMultiplier : Option RegimeMultiplier := none

/-- A request with the signals of a situation. -/
def RiskCheckInput.inSituation (intent : RiskCheckInput) (s : Situation) : RiskCheckInput :=
  { intent with confidence := s.confidence, regimeMultiplier := s.regimeMultiplier }

/-- One multiplier is at most another; a value that is not finite compares with nothing. -/
def RegimeMultiplier.AtMost : RegimeMultiplier → RegimeMultiplier → Prop
  | finite a, finite b => a ≤ b
  | _, _ => False

/-- The options quote a spread, in per cent of a positive mid price. -/
def RiskEvalOptions.Quotes (opts : RiskEvalOptions) (pct : ℚ) : Prop :=
  ∃ bid ask, opts.bid = some bid ∧ opts.ask = some ask ∧ spreadPct bid ask = some pct

/-- The second situation is at least as tight as the first in every respect.  A confidence, a regime
multiplier or a cash balance that the first does not have may be any in the second. -/
structure Tighter (first second : Situation) : Prop where
  equity : second.snapshot.totalEquity ≤ first.snapshot.totalEquity
  holdings : first.snapshot.holdingsValue ≤ second.snapshot.holdingsValue
  sectors : ∀ sector, first.snapshot.exposureOf sector ≤ second.snapshot.exposureOf sector
  positions : first.snapshot.openPositions ≤ second.snapshot.openPositions
  orders : first.snapshot.outstandingOrders ≤ second.snapshot.outstandingOrders
  trades : first.snapshot.tradesToday ≤ second.snapshot.tradesToday
  pnl : second.snapshot.dailyPnlPct ≤ first.snapshot.dailyPnlPct
  held : first.opts.heldNotional ≤ second.opts.heldNotional
  openRisk : first.opts.openRisk ≤ second.opts.openRisk
  entries : first.opts.symbolEntriesToday ≤ second.opts.symbolEntriesToday
  fees : first.opts.estimatedFees ≤ second.opts.estimatedFees
  cash : ∀ c ∈ first.opts.availableCash, ∃ c' ∈ second.opts.availableCash, c' ≤ c
  killSwitch : first.opts.killSwitch = true → second.opts.killSwitch = true
  drawdown : first.opts.maxDrawdownBreached = true → second.opts.maxDrawdownBreached = true
  slot : second.opts.candidateHoldsSlot = true → first.opts.candidateHoldsSlot = true
  checks : first.opts.skipMarketDataChecks = second.opts.skipMarketDataChecks
  spread : (first.opts.bid = second.opts.bid ∧ first.opts.ask = second.opts.ask) ∨
    ∃ p p', first.opts.Quotes p ∧ second.opts.Quotes p' ∧ p ≤ p'
  slippage : ∀ p' ∈ second.opts.estimatedSlippagePct,
    ∃ p ∈ first.opts.estimatedSlippagePct, p ≤ p'
  confidence : ∀ c ∈ first.confidence, ∃ c' ∈ second.confidence, c' ≤ c
  regime : ∀ m ∈ first.regimeMultiplier, ∃ m' ∈ second.regimeMultiplier, m'.AtMost m

/-! ### The checks before sizing -/

@[simp] theorem reasonIf_eq_nil {p : Prop} [Decidable p] {reason : RiskReason} :
    reasonIf p reason = [] ↔ ¬ p := by
  unfold reasonIf
  split <;> simp_all

section Checks

variable {intent : RiskCheckInput} {limits : EntryLimits}

/-- With a quote the spread check compares, and the cost rule weighs, the quoted spread. -/
theorem spreadReasons_eq_nil_of_quotes {opts : RiskEvalOptions} {pct : ℚ} (h : opts.Quotes pct) :
    spreadReasons intent limits opts = [] ↔
      (intent.side = .buy → limits.spreadLimitFor intent.assetClass ≠ 0 →
        opts.skipMarketDataChecks = false → pct ≤ limits.spreadLimitFor intent.assetClass) := by
  obtain ⟨bid, ask, hbid, hask, hpct⟩ := h
  simp only [spreadReasons, hbid, hask, hpct]
  split
  · rename_i hcheck
    obtain ⟨hbuy, hlimit, hskip⟩ := hcheck
    simp only [Bool.not_eq_true'] at hskip
    by_cases hlt : limits.spreadLimitFor intent.assetClass < pct
    · simp [hlt, hbuy, hlimit, hskip]
    · simp [hlt, not_lt.1 hlt]
  · rename_i hcheck
    simp only [true_iff]
    intro hbuy hlimit hskip
    exact absurd ⟨hbuy, hlimit, by simp [hskip]⟩ hcheck

theorem costReasons_eq_nil_of_quotes {opts : RiskEvalOptions} {pct : ℚ} (h : opts.Quotes pct) :
    costReasons intent limits opts = [] ↔
      ∀ stop ∈ intent.stopLoss, intent.side = .buy → opts.protectiveExit = false →
        0 < intent.price → stop < intent.price → opts.skipMarketDataChecks = false →
        pct + 2 * feePctPerSide intent.assetClass ≤
          limits.maxCostToRiskPct / 100 * ((intent.price - stop) / intent.price * 100) := by
  obtain ⟨bid, ask, hbid, hask, hpct⟩ := h
  unfold costReasons
  cases intent.stopLoss with
  | none => simp
  | some stop =>
      simp only [hbid, hask, hpct, Option.mem_def, Option.some.injEq, forall_eq']
      split
      · rename_i hcheck
        obtain ⟨hbuy, hprotective, hprice, hstop, hskip⟩ := hcheck
        simp only [Bool.not_eq_true'] at hprotective hskip
        split
        · rename_i hlt
          simp [hbuy, hprotective, hprice, hstop, hskip, hlt]
        · rename_i hle
          simp [not_lt.1 hle]
      · rename_i hcheck
        simp only [true_iff]
        intro hbuy hprotective hprice hstop hskip
        exact absurd ⟨hbuy, by simp [hprotective], hprice, hstop, by simp [hskip]⟩ hcheck

theorem slippageReasons_eq_nil {opts : RiskEvalOptions} :
    slippageReasons intent limits opts = [] ↔
      (intent.side = .buy → limits.slippageLimitFor intent.assetClass ≠ 0 →
        opts.skipMarketDataChecks = false →
        ∃ p ∈ opts.estimatedSlippagePct, p ≤ limits.slippageLimitFor intent.assetClass) := by
  unfold slippageReasons
  dsimp only
  split
  · rename_i hcheck
    obtain ⟨hbuy, hlimit, hskip⟩ := hcheck
    simp only [Bool.not_eq_true'] at hskip
    cases opts.estimatedSlippagePct with
    | none => simp [hbuy, hlimit, hskip]
    | some p => simp [hbuy, hlimit, hskip, not_lt]
  · rename_i hcheck
    simp only [true_iff]
    intro hbuy hlimit hskip
    exact absurd ⟨hbuy, hlimit, by simp [hskip]⟩ hcheck

theorem drawdownReasons_eq_nil {opts : RiskEvalOptions} :
    drawdownReasons intent opts = [] ↔
      (intent.side = .buy → opts.protectiveExit = false → opts.maxDrawdownBreached = false) := by
  unfold drawdownReasons
  split
  · rename_i hcheck
    simp only [Bool.not_eq_true'] at hcheck
    simp [hcheck.1, hcheck.2.1, hcheck.2.2]
  · rename_i hcheck
    simpa using hcheck

theorem spreadReasons_congr {opts opts' : RiskEvalOptions} (hbid : opts.bid = opts'.bid)
    (hask : opts.ask = opts'.ask) (hchecks : opts.skipMarketDataChecks = opts'.skipMarketDataChecks) :
    spreadReasons intent limits opts = spreadReasons intent limits opts' := by
  simp only [spreadReasons, hbid, hask, hchecks]

theorem costReasons_congr {opts opts' : RiskEvalOptions} (hbid : opts.bid = opts'.bid)
    (hask : opts.ask = opts'.ask) (hchecks : opts.skipMarketDataChecks = opts'.skipMarketDataChecks)
    (hprotective : opts.protectiveExit = opts'.protectiveExit) :
    costReasons intent limits opts = costReasons intent limits opts' := by
  simp only [costReasons, hbid, hask, hchecks, hprotective]

variable {first second : Situation}

/-- **Quote checks that pass in the tighter situation pass in the looser one.** -/
theorem marketReasons_mono (h : Tighter first second)
    (hprotective : first.opts.protectiveExit = second.opts.protectiveExit)
    (hnone : marketReasons intent limits second.opts = []) :
    marketReasons intent limits first.opts = [] := by
  simp only [marketReasons, List.append_eq_nil_iff] at hnone ⊢
  obtain ⟨⟨⟨hspread, hslippage⟩, hdrawdown⟩, hcost⟩ := hnone
  refine ⟨⟨⟨?_, ?_⟩, ?_⟩, ?_⟩
  · rcases h.spread with ⟨hbid, hask⟩ | ⟨p, p', hq, hq', hle⟩
    · rwa [spreadReasons_congr hbid hask h.checks]
    · rw [spreadReasons_eq_nil_of_quotes hq]
      rw [spreadReasons_eq_nil_of_quotes hq'] at hspread
      intro hbuy hlimit hskip
      exact hle.trans (hspread hbuy hlimit (h.checks ▸ hskip))
  · rw [slippageReasons_eq_nil] at hslippage ⊢
    intro hbuy hlimit hskip
    obtain ⟨p', hp', hbound⟩ := hslippage hbuy hlimit (h.checks ▸ hskip)
    obtain ⟨p, hp, hle⟩ := h.slippage p' hp'
    exact ⟨p, hp, hle.trans hbound⟩
  · rw [drawdownReasons_eq_nil] at hdrawdown ⊢
    intro hbuy hexit
    have hfalse := hdrawdown hbuy (hprotective ▸ hexit)
    by_contra hbreach
    rw [h.drawdown (by simpa using hbreach)] at hfalse
    cases hfalse
  · rcases h.spread with ⟨hbid, hask⟩ | ⟨p, p', hq, hq', hle⟩
    · rwa [costReasons_congr hbid hask h.checks hprotective]
    · rw [costReasons_eq_nil_of_quotes hq]
      rw [costReasons_eq_nil_of_quotes hq'] at hcost
      intro stop hstop hbuy hexit hprice hbelow hskip
      have hcost := hcost stop hstop hbuy (hprotective ▸ hexit) hprice hbelow (h.checks ▸ hskip)
      linarith

theorem gateReasons_eq_nil {opts : RiskEvalOptions} {snapshot : PortfolioSnapshot} :
    gateReasons intent limits opts snapshot = [] ↔
      (∀ c ∈ intent.confidence, limits.minConfidence ≤ c) ∧
        (∀ m ∈ intent.regimeMultiplier, m.InRange) ∧
        snapshot.tradesToday < limits.maxDailyTrades ∧
        (snapshot.openPositions < limits.maxOpenPositions ∨ opts.candidateHoldsSlot = true) ∧
        -limits.maxDailyLossPct < snapshot.dailyPnlPct ∧
        opts.symbolEntriesToday < limits.maxEntriesPerSymbolPerDay ∧
        (limits.maxSimultaneousOrders ≠ 0 →
          snapshot.outstandingOrders < limits.maxSimultaneousOrders) := by
  simp only [gateReasons, List.append_eq_nil_iff, reasonIf_eq_nil, not_le, not_and, and_assoc]
  refine and_congr ?_ (and_congr ?_ (and_congr Iff.rfl (and_congr ?_ Iff.rfl)))
  · cases intent.confidence <;> simp
  · cases intent.regimeMultiplier <;> simp
  · cases opts.candidateHoldsSlot <;> simp

/-- **Gates that are open in the tighter situation are open in the looser one**, when the looser
situation's own regime multiplier is one the engine accepts. -/
theorem gateReasons_mono (h : Tighter first second)
    (hregime : ∀ m ∈ first.regimeMultiplier, m.InRange)
    (hnone : gateReasons (intent.inSituation second) limits second.opts second.snapshot = []) :
    gateReasons (intent.inSituation first) limits first.opts first.snapshot = [] := by
  rw [gateReasons_eq_nil] at hnone ⊢
  obtain ⟨hconfidence, -, htrades, hpositions, hpnl, hentries, horders⟩ := hnone
  refine ⟨?_, hregime, h.trades.trans_lt htrades, ?_, hpnl.trans_le h.pnl,
    h.entries.trans_lt hentries, fun hset => h.orders.trans_lt (horders hset)⟩
  · intro c hc
    obtain ⟨c', hc', hle⟩ := h.confidence c hc
    exact (hconfidence c' hc').trans hle
  · exact hpositions.imp h.positions.trans_lt h.slot

end Checks

/-! ### The risk budget -/

section Budget

theorem confidenceMultiplier_le_one (c minimum : ℚ) {f : ℚ} (hf : f ≤ 1) :
    confidenceMultiplier (some c) minimum f ≤ 1 := by
  simp only [confidenceMultiplier]
  split
  · exact le_rfl
  · rename_i hspan
    push Not at hspan
    have hfraction : (c - minimum) / (100 - minimum) ≤ 1 :=
      (div_le_one hspan.1).2 (by linarith [hspan.2])
    have hrest := mul_le_of_le_one_right (sub_nonneg.2 hf) hfraction
    linarith

theorem confidenceMultiplier_pos {c minimum f : ℚ} (hc : minimum ≤ c) (hpos : 0 < f) (hf : f ≤ 1) :
    0 < confidenceMultiplier (some c) minimum f := by
  simp only [confidenceMultiplier]
  split
  · exact one_pos
  · rename_i hspan
    push Not at hspan
    have hfraction : 0 ≤ (c - minimum) / (100 - minimum) :=
      div_nonneg (sub_nonneg.2 hc) hspan.1.le
    have hrest : 0 ≤ (1 - f) * ((c - minimum) / (100 - minimum)) :=
      mul_nonneg (sub_nonneg.2 hf) hfraction
    linarith

/-- A higher confidence releases more of the budget. -/
theorem confidenceMultiplier_mono {c c' : ℚ} (minimum : ℚ) {f : ℚ} (hle : c' ≤ c) (hf : f ≤ 1) :
    confidenceMultiplier (some c') minimum f ≤ confidenceMultiplier (some c) minimum f := by
  by_cases hfull : 100 - minimum ≤ 0 ∨ 100 ≤ c
  · have hone : confidenceMultiplier (some c) minimum f = 1 := if_pos hfull
    exact hone ▸ confidenceMultiplier_le_one c' minimum hf
  · push Not at hfull
    have hfull' : ¬ (100 - minimum ≤ 0 ∨ 100 ≤ c') := by
      push Not
      exact ⟨hfull.1, hle.trans_lt hfull.2⟩
    simp only [confidenceMultiplier, if_neg hfull', if_neg (not_or.2 ⟨hfull.1.not_ge,
      hfull.2.not_ge⟩)]
    have hfraction : (c' - minimum) / (100 - minimum) ≤ (c - minimum) / (100 - minimum) :=
      div_le_div_of_nonneg_right (by linarith) hfull.1.le
    have hscaled := mul_le_mul_of_nonneg_left hfraction (sub_nonneg.2 hf)
    linarith

/-- The confidence multipliers of two situations compare as their confidences do. -/
theorem confidenceMultiplier_le {first second : Option ℚ} (minimum : ℚ) {f : ℚ} (hf : f ≤ 1)
    (h : ∀ c ∈ first, ∃ c' ∈ second, c' ≤ c) :
    confidenceMultiplier second minimum f ≤ confidenceMultiplier first minimum f := by
  cases first with
  | none =>
      cases second with
      | none => exact le_rfl
      | some c' => exact confidenceMultiplier_le_one c' minimum hf
  | some c =>
      obtain ⟨c', hc', hle⟩ := h c rfl
      rw [Option.mem_def.1 hc']
      exact confidenceMultiplier_mono minimum hle hf

theorem confidenceMultiplier_bounds {confidence : Option ℚ} {minimum f : ℚ}
    (hmin : ∀ c ∈ confidence, minimum ≤ c) (hpos : 0 < f) (hf : f ≤ 1) :
    0 < confidenceMultiplier confidence minimum f ∧
      confidenceMultiplier confidence minimum f ≤ 1 := by
  cases confidence with
  | none => exact ⟨one_pos, le_rfl⟩
  | some c =>
      exact ⟨confidenceMultiplier_pos (hmin c rfl) hpos hf,
        confidenceMultiplier_le_one c minimum hf⟩

/-- The factor by which the regime scales the budget. -/
def regimeFactor : Option RegimeMultiplier → ℚ
  | some (.finite m) => m
  | _ => 1

theorem regimeFactor_mem {m : Option RegimeMultiplier} (h : ∀ x ∈ m, x.InRange) :
    0 ≤ regimeFactor m ∧ regimeFactor m ≤ 1 := by
  cases m with
  | none => exact ⟨zero_le_one, le_rfl⟩
  | some x =>
      cases x with
      | finite value => exact h _ rfl
      | notFinite => exact absurd (h _ rfl) id

theorem regimeFactor_mono {first second : Option RegimeMultiplier}
    (hsecond : ∀ x ∈ second, x.InRange) (h : ∀ m ∈ first, ∃ m' ∈ second, m'.AtMost m) :
    regimeFactor second ≤ regimeFactor first := by
  cases first with
  | none => exact (regimeFactor_mem hsecond).2
  | some m =>
      obtain ⟨m', hm', hle⟩ := h m rfl
      rw [Option.mem_def.1 hm']
      cases m <;> cases m' <;> first | exact hle | exact hle.elim

variable {intent : RiskCheckInput} {snapshot : PortfolioSnapshot} {limits : EntryLimits}

/-- The budget as a product, when both signals are ones the gates accept. -/
theorem riskBudget_eq (hconfidence : ∀ c ∈ intent.confidence, limits.minConfidence ≤ c)
    (hregime : ∀ m ∈ intent.regimeMultiplier, m.InRange) :
    riskBudget intent snapshot limits =
      limits.maxRiskPerTradePct / 100 * snapshot.totalEquity *
        confidenceMultiplier intent.confidence limits.minConfidence
          limits.minPositionSizeMultiplier * regimeFactor intent.regimeMultiplier := by
  have hscale : ∀ b x : ℚ, x ≤ 1 → (if x < 1 then b * x else b) = b * x := by
    intro b x hx
    split
    · rfl
    · rw [le_antisymm hx (not_lt.1 ‹_›), mul_one]
  have hmult := limits.minPositionSizeMultiplier_mem
  have hbudget := hscale (limits.maxRiskPerTradePct / 100 * snapshot.totalEquity) _
    (confidenceMultiplier_bounds hconfidence hmult.1 hmult.2).2
  have hone := (regimeFactor_mem hregime).2
  simp only [riskBudget, hbudget]
  cases hm : intent.regimeMultiplier with
  | none => simp [regimeFactor]
  | some m =>
      cases m with
      | finite value =>
          rw [hm] at hone
          exact hscale _ _ hone
      | notFinite => simp [regimeFactor]

variable {first second : Situation}

theorem riskBudget_mono (h : Tighter first second) (hequity : 0 < second.snapshot.totalEquity)
    (hregime : ∀ m ∈ first.regimeMultiplier, m.InRange)
    (hconfidence' : ∀ c ∈ second.confidence, limits.minConfidence ≤ c)
    (hregime' : ∀ m ∈ second.regimeMultiplier, m.InRange) :
    riskBudget (intent.inSituation second) second.snapshot limits ≤
      riskBudget (intent.inSituation first) first.snapshot limits := by
  have hconfidence : ∀ c ∈ first.confidence, limits.minConfidence ≤ c := by
    intro c hc
    obtain ⟨c', hc', hle⟩ := h.confidence c hc
    exact (hconfidence' c' hc').trans hle
  obtain ⟨-, -, hpct, -⟩ := limits.nonneg
  obtain ⟨hpos, hone⟩ := limits.minPositionSizeMultiplier_mem
  have hrate : 0 ≤ limits.maxRiskPerTradePct / 100 := by positivity
  have hbase : limits.maxRiskPerTradePct / 100 * second.snapshot.totalEquity ≤
      limits.maxRiskPerTradePct / 100 * first.snapshot.totalEquity :=
    mul_le_mul_of_nonneg_left h.equity hrate
  have hbase' : 0 ≤ limits.maxRiskPerTradePct / 100 * first.snapshot.totalEquity :=
    mul_nonneg hrate (hequity.le.trans h.equity)
  have hc := confidenceMultiplier_le limits.minConfidence hone h.confidence
  have hc' := (confidenceMultiplier_bounds hconfidence' hpos hone).1.le
  have hm := regimeFactor_mono hregime' h.regime
  have hm' := (regimeFactor_mem hregime').1
  have hsecond : riskBudget (intent.inSituation second) second.snapshot limits = _ :=
    riskBudget_eq hconfidence' hregime'
  have hfirst : riskBudget (intent.inSituation first) first.snapshot limits = _ :=
    riskBudget_eq hconfidence hregime
  rw [hsecond, hfirst]
  exact mul_le_mul (mul_le_mul hbase hc hc' hbase') hm hm' (mul_nonneg hbase' (hc'.trans hc))

end Budget

/-! ### The caps -/

section Caps

variable {intent : RiskCheckInput} {limits : EntryLimits} {first second : Situation}

theorem remainingRisk_mono (h : Tighter first second) :
    remainingRisk second.snapshot limits second.opts ≤
      remainingRisk first.snapshot limits first.opts := by
  obtain ⟨-, -, -, -, hpct, -⟩ := limits.nonneg
  have hbase := mul_le_mul_of_nonneg_left h.equity (by positivity : 0 ≤ limits.maxOpenRiskPct / 100)
  exact sub_le_sub hbase h.openRisk

theorem positionHeadroom_mono (h : Tighter first second) :
    positionHeadroom second.snapshot limits second.opts ≤
      positionHeadroom first.snapshot limits first.opts := by
  obtain ⟨hpct, -⟩ := limits.nonneg
  have hbase := mul_le_mul_of_nonneg_left h.equity (by positivity : 0 ≤ limits.maxPositionPct / 100)
  exact sub_le_sub hbase h.held

theorem sectorHeadroom_mono (h : Tighter first second) :
    sectorHeadroom (intent.inSituation second) second.snapshot limits ≤
      sectorHeadroom (intent.inSituation first) first.snapshot limits := by
  obtain ⟨-, hpct, -⟩ := limits.nonneg
  have hbase := mul_le_mul_of_nonneg_left h.equity (by positivity : 0 ≤ limits.maxSectorPct / 100)
  refine sub_le_sub hbase ?_
  change (if intent.sector ≠ unmanagedSector then _ else _) ≤
    (if intent.sector ≠ unmanagedSector then _ else _)
  split
  · exact add_le_add (h.sectors _) (h.sectors _)
  · exact h.sectors _

theorem exposureHeadroom_mono (h : Tighter first second) :
    exposureHeadroom second.snapshot limits ≤ exposureHeadroom first.snapshot limits := by
  obtain ⟨-, -, -, hpct, -⟩ := limits.nonneg
  have hbase :=
    mul_le_mul_of_nonneg_left h.equity (by positivity : 0 ≤ limits.maxTotalExposurePct / 100)
  exact sub_le_sub hbase h.holdings

theorem bufferedCash_mono {c c' : ℚ} (h : c' ≤ c) : bufferedCash c' ≤ bufferedCash c :=
  mul_le_mul_of_nonneg_right h (by norm_num)

/-- The risk of one unit at the stop that sizing uses is positive. -/
theorem unitRisk_pos_of_sizingStop {stop : ℚ} (h : sizingStop intent limits = some stop) :
    0 < intent.unitRisk stop := by
  have hkept := (Option.filter_eq_some_iff.1 h).2
  simp only [Bool.and_eq_true, decide_eq_true_eq] at hkept
  exact hkept.2

/-- **Every cap of the tighter situation is at least as tight.** -/
theorem capsOf_tighter (h : Tighter first second) (hequity : 0 < second.snapshot.totalEquity)
    (hunit : 0 < intent.notionalPerUnit) (hregime : ∀ m ∈ first.regimeMultiplier, m.InRange)
    (hconfidence' : ∀ c ∈ second.confidence, limits.minConfidence ≤ c)
    (hregime' : ∀ m ∈ second.regimeMultiplier, m.InRange) :
    List.Forall₂ Cap.Tighter
      (capsOf (intent.inSituation second) second.snapshot limits second.opts)
      (capsOf (intent.inSituation first) first.snapshot limits first.opts) := by
  have hstop : ∀ s : Situation, sizingStop (intent.inSituation s) limits = sizingStop intent limits :=
    fun _ => rfl
  refine .cons ?_ (.cons ?_ (.cons ?_ (.cons ?_ (.cons ?_ (.cons ?_ .nil)))))
  · unfold riskCap
    rw [hstop, hstop]
    cases hs : sizingStop intent limits with
    | none => exact Cap.tighter_off _
    | some stop =>
        exact div_le_div_of_nonneg_right (riskBudget_mono h hequity hregime hconfidence' hregime')
          (unitRisk_pos_of_sizingStop hs).le
  · unfold openRiskCap
    rw [hstop, hstop]
    cases hs : sizingStop intent limits with
    | none => exact Cap.tighter_off _
    | some stop =>
        exact div_le_div_of_nonneg_right (max_le_max (remainingRisk_mono h) le_rfl)
          (unitRisk_pos_of_sizingStop hs).le
  · exact div_le_div_of_nonneg_right (positionHeadroom_mono h) hunit.le
  · exact div_le_div_of_nonneg_right (sectorHeadroom_mono h) hunit.le
  · unfold exposureCap
    split
    · exact div_le_div_of_nonneg_right (exposureHeadroom_mono h) hunit.le
    · exact Cap.tighter_off _
  · unfold cashCap
    cases hcash : first.opts.availableCash with
    | none => exact Cap.tighter_off _
    | some c =>
        obtain ⟨c', hc', hle⟩ := h.cash c hcash
        rw [Option.mem_def.1 hc']
        exact div_le_div_of_nonneg_right (sub_le_sub (bufferedCash_mono hle) h.fees) hunit.le

theorem Fits.mono (h : Tighter first second) {q : ℚ}
    (hfits : Fits (intent.inSituation second) second.snapshot limits second.opts q) :
    Fits (intent.inSituation first) first.snapshot limits first.opts q where
  position := hfits.position.trans (positionHeadroom_mono h)
  sector := hfits.sector.trans (sectorHeadroom_mono h)
  exposure := fun hset => (hfits.exposure hset).trans (exposureHeadroom_mono h)
  cash := by
    intro c hc
    obtain ⟨c', hc', hle⟩ := h.cash c hc
    have hsecond := hfits.cash c' hc'
    have hbuffer := bufferedCash_mono hle
    have hfees := h.fees
    have hsame : q * (intent.inSituation first).notionalPerUnit =
        q * (intent.inSituation second).notionalPerUnit := rfl
    linarith

end Caps

/-! ### The decisions -/

section Decisions

variable {intent : RiskCheckInput} {limits : EntryLimits} {first second : Situation}

/-- **Sizing is monotone.** -/
theorem sizing_mono (h : Tighter first second) (hequity : 0 < second.snapshot.totalEquity)
    (hregime : ∀ m ∈ first.regimeMultiplier, m.InRange)
    (hconfidence' : ∀ c ∈ second.confidence, limits.minConfidence ≤ c)
    (hregime' : ∀ m ∈ second.regimeMultiplier, m.InRange) {s : SizingState}
    (hs : sizing (intent.inSituation second) second.snapshot limits second.opts = .ok s)
    (hpos : 0 < s.approved) :
    ∃ s', sizing (intent.inSituation first) first.snapshot limits first.opts = .ok s' ∧
      s.approved ≤ s'.approved := by
  have hequity' := hequity.trans_le h.equity
  have hqty : 0 < (intent.inSituation second).requestedQuantity := requested_pos hs hpos
  rcases le_or_gt intent.price 0 with hprice | hprice
  · -- neither run sizes anything
    have hskip : ∀ t : Situation, ¬ (0 < t.snapshot.totalEquity ∧ 0 < (intent.inSituation t).price) :=
      fun _ hrun => hprice.not_gt hrun.2
    rw [sizing_skipped (hskip second)] at hs
    cases hs
    exact ⟨_, sizing_skipped (hskip first), le_rfl⟩
  have hprice' : ∀ t : Situation, 0 < (intent.inSituation t).price := fun _ => hprice
  rcases le_or_gt intent.notionalPerUnit 0 with hunit | hunit
  · have hunit' : ∀ t : Situation, (intent.inSituation t).notionalPerUnit ≤ 0 := fun _ => hunit
    obtain ⟨hall, hfits⟩ :=
      (sizing_pos_iff hequity (hprice' second) (hunit' second) hpos).1 ⟨s, hs, rfl⟩
    obtain ⟨s', hs', hsame⟩ :=
      (sizing_pos_iff hequity' (hprice' first) (hunit' first) hpos).2 ⟨hall, hfits.mono h⟩
    exact ⟨s', hs', hsame.ge⟩
  · have hunit' : ∀ t : Situation, 0 < (intent.inSituation t).notionalPerUnit := fun _ => hunit
    obtain ⟨t, ht, hsize⟩ := sizing_eq second.snapshot limits second.opts hequity (hprice' second)
      (hunit' second) hqty.le
    rw [hs] at ht
    cases ht
    obtain ⟨s', hs', hsize'⟩ := sizing_eq first.snapshot limits first.opts hequity' (hprice' first)
      (hunit' first) hqty.le
    refine ⟨s', hs', ?_⟩
    rw [hsize, hsize']
    exact Sizing.sizeBy_mono (precision_pos _)
      (capsOf_tighter h hequity hunit hregime hconfidence' hregime') hqty.le

theorem BelowMinimumLot.of_le {q q' : ℚ} (hle : q ≤ q')
    (h : BelowMinimumLot intent limits q') : BelowMinimumLot intent limits q := by
  rcases h with h | ⟨hunit, h⟩
  · exact .inl (hle.trans_lt h)
  · exact .inr ⟨hunit, (mul_le_mul_of_nonneg_right hle hunit.le).trans_lt h⟩

/-- **The engine is monotone**: an entry approved in the tighter situation is approved in the looser
one, for at least the same quantity.  The regime multiplier of the looser situation must be one the
engine accepts. -/
theorem approves_mono (hbuy : intent.side = .buy) (hentry : first.opts.protectiveExit = false)
    (hentry' : second.opts.protectiveExit = false) (hequity : 0 < second.snapshot.totalEquity)
    (h : Tighter first second) (hregime : ∀ m ∈ first.regimeMultiplier, m.InRange) {q : ℚ}
    (happroved : Approves (intent.inSituation second) limits second.opts (some second.snapshot) q) :
    ∃ q', q ≤ q' ∧
      Approves (intent.inSituation first) limits first.opts (some first.snapshot) q' := by
  have hbuy' : ∀ t : Situation, (intent.inSituation t).side = .buy := fun _ => hbuy
  obtain ⟨hkill, hmarket, hgate, ⟨s, hs, rfl⟩, hlot⟩ :=
    (approves_iff (hbuy' second) hentry').1 happroved
  obtain ⟨hconfidence', hregime', -⟩ := gateReasons_eq_nil.1 hgate
  have hpos := pos_of_not_belowMinimumLot hlot
  obtain ⟨s', hs', hle⟩ := sizing_mono h hequity hregime hconfidence' hregime' hs hpos
  refine ⟨s'.approved, hle, (approves_iff (hbuy' first) hentry).2 ⟨?_, ?_, ?_, ⟨s', hs', rfl⟩, ?_⟩⟩
  · by_contra hactive
    rw [h.killSwitch (by simpa using hactive)] at hkill
    cases hkill
  · exact marketReasons_mono h (hentry.trans hentry'.symm) hmarket
  · exact gateReasons_mono h hregime hgate
  · exact fun hbelow => hlot (hbelow.of_le hle)

end Decisions

/-- The empty account, with a neutral regime. -/
def calmSituation : Situation where
  snapshot := emptyAccount
  opts := sampleOptions
  regimeMultiplier := some (.finite 1)

/-- The same account with less cash, a wider quote, something held and a colder regime. -/
def tenseSituation : Situation where
  snapshot := { emptyAccount with totalEquity := 9000, holdingsValue := 500, tradesToday := 1 }
  opts := { sampleOptions with
    bid := some (998 / 10)
    availableCash := some 400
    heldNotional := 500 }
  confidence := some 80
  regimeMultiplier := some (.finite (1 / 2))

theorem tenseSituation_tighter : Tighter calmSituation tenseSituation where
  equity := by decide +kernel
  holdings := by decide +kernel
  sectors := fun _ => le_rfl
  positions := le_rfl
  orders := le_rfl
  trades := by decide +kernel
  pnl := le_rfl
  held := by decide +kernel
  openRisk := le_rfl
  entries := le_rfl
  fees := le_rfl
  cash := by
    intro c hc
    exact ⟨400, rfl, by cases hc; decide +kernel⟩
  killSwitch := id
  drawdown := id
  slot := id
  checks := rfl
  spread := .inr ⟨200 / 1999, 400 / 1998, ⟨999 / 10, 100, rfl, rfl, by decide +kernel⟩,
    ⟨998 / 10, 100, rfl, rfl, by decide +kernel⟩, by decide +kernel⟩
  slippage := fun p hp => ⟨p, hp, le_rfl⟩
  confidence := fun c hc => by cases hc
  regime := by
    intro m hm
    cases hm
    exact ⟨.finite (1 / 2), rfl, by change (1 / 2 : ℚ) ≤ 1; norm_num⟩

/-- A request that the tense situation cuts to what cash is left is approved in the calm one. -/
theorem approves_mono_tense :
    ∃ q', 99 / 25 ≤ q' ∧
      Approves (sampleEntry.inSituation calmSituation) sampleLimits calmSituation.opts
        (some calmSituation.snapshot) q' :=
  approves_mono rfl rfl rfl (by decide +kernel) tenseSituation_tighter
    (by intro m hm; cases hm; decide +kernel)
    ⟨⟨true, 99 / 25, [.riskBudgetScaledByConfidence (3 / 4), .riskBudgetScaledByRegime (1 / 2),
      .positionCapped 4 .maxPositionPct, .positionCapped (99 / 25) .availableCash]⟩,
      by decide +kernel, rfl, rfl⟩

/-- The calm situation with a multiplier above one. -/
def feverishSituation : Situation :=
  { calmSituation with regimeMultiplier := some (.finite (3 / 2)) }

theorem calmSituation_tighter : Tighter feverishSituation calmSituation where
  equity := le_rfl
  holdings := le_rfl
  sectors := fun _ => le_rfl
  positions := le_rfl
  orders := le_rfl
  trades := le_rfl
  pnl := le_rfl
  held := le_rfl
  openRisk := le_rfl
  entries := le_rfl
  fees := le_rfl
  cash := fun c hc => ⟨c, hc, le_rfl⟩
  killSwitch := id
  drawdown := id
  slot := id
  checks := rfl
  spread := .inl ⟨rfl, rfl⟩
  slippage := fun p hp => ⟨p, hp, le_rfl⟩
  confidence := fun c hc => ⟨c, hc, le_rfl⟩
  regime := by
    intro m hm
    cases hm
    exact ⟨.finite 1, rfl, by change (1 : ℚ) ≤ 3 / 2; norm_num⟩

/-- **A multiplier above one is refused**: lowering it to one turns a refusal into an approval. -/
theorem not_approved_above_one :
    Tighter feverishSituation calmSituation ∧ 0 < calmSituation.snapshot.totalEquity ∧
      Approves (sampleEntry.inSituation calmSituation) sampleLimits calmSituation.opts
        (some calmSituation.snapshot) 5 ∧
      ∀ q, ¬ Approves (sampleEntry.inSituation feverishSituation) sampleLimits
        feverishSituation.opts (some feverishSituation.snapshot) q := by
  refine ⟨calmSituation_tighter, by decide +kernel, ⟨⟨true, 5, [.ok]⟩, by decide +kernel, rfl, rfl⟩,
    ?_⟩
  intro q happroved
  have hgate := ((approves_iff rfl rfl).1 happroved).2.2.1
  have hrange := (gateReasons_eq_nil.1 hgate).2.1 (.finite (3 / 2)) rfl
  exact absurd hrange.2 (by norm_num)

/-! ### A smaller request -/

/-- The same request for another quantity. -/
def RiskCheckInput.withQuantity (intent : RiskCheckInput) (quantity : ℚ) : RiskCheckInput :=
  { intent with requestedQuantity := quantity }

section Smaller

variable {intent : RiskCheckInput} {limits : EntryLimits} {opts : RiskEvalOptions}

/-- The sizing block leaves a smaller quantity alone. -/
theorem sizing_smaller {snapshot : PortfolioSnapshot} (hunit : 0 ≤ intent.notionalPerUnit)
    {s : SizingState} (hs : sizing intent snapshot limits opts = .ok s) {r : ℚ} (hr : 0 < r)
    (hle : r ≤ s.approved) :
    ∃ s', sizing (intent.withQuantity r) snapshot limits opts = .ok s' ∧ s'.approved = r := by
  by_cases hrun : 0 < snapshot.totalEquity ∧ 0 < intent.price
  swap
  · exact ⟨_, sizing_skipped hrun, rfl⟩
  obtain ⟨hequity, hprice⟩ := hrun
  have hprice' : 0 < (intent.withQuantity r).price := hprice
  have hpos : 0 < s.approved := hr.trans_le hle
  rcases hunit.eq_or_lt with hzero | hunit
  · -- a unit without notional: the headrooms are compared with zero, whatever the quantity
    have hzero : intent.notionalPerUnit = 0 := hzero.symm
    have hzero' : (intent.withQuantity r).notionalPerUnit = 0 := hzero
    obtain ⟨-, hposition, hsector, hexposure, hcash⟩ :=
      (sizing_pos_iff hequity hprice hzero.le hpos).1 ⟨s, hs, rfl⟩
    rw [hzero, mul_zero] at hposition hsector hexposure
    simp only [hzero, mul_zero] at hcash
    refine (sizing_pos_iff hequity hprice' hzero'.le hr).2 ⟨rfl, ?_, ?_, ?_, ?_⟩ <;>
      simp only [hzero', mul_zero]
    exacts [hposition, hsector, hexposure, hcash]
  · have hunit' : 0 < (intent.withQuantity r).notionalPerUnit := hunit
    have hqty := requested_pos hs hpos
    obtain ⟨t, ht, hsize⟩ := sizing_eq snapshot limits opts hequity hprice hunit hqty.le
    rw [hs] at ht
    cases ht
    obtain ⟨s', hs', hsize'⟩ := sizing_eq snapshot limits opts hequity hprice' hunit' hr.le
    refine ⟨s', hs', hsize'.trans ?_⟩
    exact Sizing.sizeBy_of_le (precision_pos _) hqty.le hr (hsize ▸ hle)

/-- **A smaller quantity that is worth an order is approved as it is.** -/
theorem approves_smaller (hbuy : intent.side = .buy)
    {snapshot : Option PortfolioSnapshot} {a r : ℚ}
    (happroved : Approves intent limits opts snapshot a) (hr : 0 < r) (hle : r ≤ a)
    (hminimum : minimumQuantity intent.assetClass ≤ r)
    (hworth : limits.minLotNotional ≤ r * intent.notionalPerUnit) :
    Approves (intent.withQuantity r) limits opts snapshot r := by
  have hbuy' : (intent.withQuantity r).side = .buy := hbuy
  -- a unit whose notional is negative makes no order worth anything
  have hunit : 0 ≤ intent.notionalPerUnit :=
    nonneg_of_mul_nonneg_right (limits.minLotNotional_nonneg.trans hworth) hr
  have hlot : ¬ BelowMinimumLot (intent.withQuantity r) limits r := by
    rintro (hbelow | ⟨-, hbelow⟩)
    · exact hminimum.not_gt hbelow
    · exact hworth.not_gt hbelow
  cases hentry : opts.protectiveExit with
  | true =>
      -- a protective purchase is not sized: any quantity passes with the same quote
      have hmarket : marketReasons intent limits opts = [] := by
        obtain ⟨d, hd, hyes, -⟩ := happroved
        by_contra hreasons
        simp only [evaluateRisk, hentry, Bool.not_true, Bool.false_eq_true, and_false, if_false,
          if_true, if_pos hreasons] at hd
        cases hd
        simp [RiskDecision.denied] at hyes
      have hmarket' : marketReasons (intent.withQuantity r) limits opts = [] := hmarket
      refine ⟨⟨true, r, [.protectiveExit]⟩, ?_, rfl, rfl⟩
      unfold evaluateRisk
      rw [if_neg (by simp [hentry]), if_pos hentry, if_neg (not_not.2 hmarket')]
      rfl
  | false =>
      cases snapshot with
      | none =>
          obtain ⟨d, hd, hyes, -⟩ := happroved
          cases hkill : opts.killSwitch <;>
            simp [evaluateRisk, hentry, hkill, hbuy, RiskDecision.denied] at hd
          subst hd
          cases hyes
      | some snapshot =>
          obtain ⟨hkill, hmarket, hgate, ⟨s, hs, rfl⟩, -⟩ := (approves_iff hbuy hentry).1 happroved
          obtain ⟨s', hs', hsame⟩ := sizing_smaller hunit hs hr hle
          exact (approves_iff hbuy' hentry).2 ⟨hkill, hmarket, hgate, ⟨s', hs', hsame⟩, hlot⟩

end Smaller

end TradePulse.Risk
