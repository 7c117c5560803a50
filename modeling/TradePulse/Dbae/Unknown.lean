/-
**What is unknown permits nothing.**

Evidence is weakened by withholding some of its fields, or by letting it grow stale.  The policy
allows an entry only on fields that are known, so whatever it allows on weakened evidence it allows
on the evidence itself.  The same holds of the shape of a quantity and of its protective exit, up to
one field: an asset whose smallest order is unknown reads as an asset without one, unless it is a
crypto asset, which is refused then.

Main definitions:

* `Withheld` — a field that is known no more, or as it was;
* `AccountEvidence.Weakened`, `AssetTradingCapabilities.Weakened` — weaker evidence;
* `CoreVerified`, `Eligible` — what the policy asks of the evidence.

Main results:

* `evaluateEntryPolicy_allowed_iff` — an entry is allowed exactly on eligible evidence;
* `unknown_never_permissive` — **what is allowed, shaped and left on weakened evidence is allowed
  and left on the evidence itself, except by a smallest order that was withheld**;
* `withheld_minimum_permits` — withholding the smallest order of an equity makes its exit feasible.
-/

import TradePulse.Dbae.Policy

set_option autoImplicit false

namespace TradePulse.Dbae

/-! ### Weaker evidence -/

/-- A field that is known no more, or as it was. -/
def Withheld {α : Type} (x' x : Option α) : Prop := x' = none ∨ x' = x

theorem Withheld.known {α : Type} {x' x : Option α} {a : α} (h : Withheld x' x)
    (hknown : x' = some a) : x = some a := by
  rcases h with h | h
  · rw [h] at hknown
    cases hknown
  · rw [← h, hknown]

theorem Withheld.isSome {α : Type} {x' x : Option α} (h : Withheld x' x)
    (hknown : x'.isSome = true) : x.isSome = true := by
  obtain ⟨a, ha⟩ := Option.isSome_iff_exists.1 hknown
  rw [h.known ha]
  rfl

/-- Evidence of the same time, or stale evidence. -/
def AsFresh (now receivedAt' receivedAt : Instant) : Prop :=
  receivedAt' = receivedAt ∨ evidenceFresh receivedAt' now = false

theorem AsFresh.fresh {now receivedAt' receivedAt : Instant}
    (h : AsFresh now receivedAt' receivedAt) (hfresh : evidenceFresh receivedAt' now = true) :
    evidenceFresh receivedAt now = true := by
  rcases h with rfl | h
  · exact hfresh
  · rw [h] at hfresh
    cases hfresh

structure AccountEvidence.Weakened (now : Instant) (a' a : AccountEvidence) : Prop where
  status : Withheld a'.status a.status
  tradingBlocked : Withheld a'.tradingBlocked a.tradingBlocked
  accountBlocked : Withheld a'.accountBlocked a.accountBlocked
  tradeSuspendedByUser : Withheld a'.tradeSuspendedByUser a.tradeSuspendedByUser
  suspendTrade : Withheld a'.suspendTrade a.suspendTrade
  closingTransactionsOnly : Withheld a'.closingTransactionsOnly a.closingTransactionsOnly
  fractionalTrading : Withheld a'.fractionalTrading a.fractionalTrading
  equity : Withheld a'.equity a.equity
  cash : Withheld a'.cash a.cash
  buyingPower : Withheld a'.buyingPower a.buyingPower
  nonMarginableBuyingPower : Withheld a'.nonMarginableBuyingPower a.nonMarginableBuyingPower
  accountMultiplier : Withheld a'.accountMultiplier a.accountMultiplier
  cryptoStatus : Withheld a'.cryptoStatus a.cryptoStatus
  optionsTradingLevel : Withheld a'.optionsTradingLevel a.optionsTradingLevel
  receivedAt : AsFresh now a'.receivedAt a.receivedAt

structure AssetTradingCapabilities.Weakened (now : Instant) (a' a : AssetTradingCapabilities) :
    Prop where
  active : Withheld a'.active a.active
  tradable : Withheld a'.tradable a.tradable
  fractionable : Withheld a'.fractionable a.fractionable
  minOrderSize : Withheld a'.minOrderSize a.minOrderSize
  minTradeIncrement : Withheld a'.minTradeIncrement a.minTradeIncrement
  receivedAt : AsFresh now a'.receivedAt a.receivedAt

/-! ### What the policy asks of the evidence -/

/-- The core account check: every field is known, and as it should be. -/
structure CoreVerified (account : AccountEvidence) (now : Instant) : Prop where
  fresh : evidenceFresh account.receivedAt now = true
  status : account.status = some "ACTIVE"
  tradingBlocked : account.tradingBlocked = some false
  accountBlocked : account.accountBlocked = some false
  tradeSuspendedByUser : account.tradeSuspendedByUser = some false
  suspendTrade : account.suspendTrade = some false
  closingTransactionsOnly : account.closingTransactionsOnly = some false
  accountMultiplier : ∃ m, account.accountMultiplier = some m ∧ m ∈ acceptedAccountMultipliers
  equity : account.equity.isSome = true
  cash : account.cash.isSome = true
  buyingPower : account.buyingPower.isSome = true

/-- What is asked for an entry of a class: the account, a band that unlocks the class, and the
asset. -/
structure Eligible (account : AccountEvidence) (bandEquity : Option ℚ)
    (asset : AssetTradingCapabilities) (assetClass : AssetClass) (now : Instant) : Prop where
  core : CoreVerified account now
  permission : classPermissionReason account assetClass = none
  band : ∃ equity, bandEquity = some equity ∧ bandFor equity ≠ .belowMinimum ∧
    classUnlocked (bandFor equity) assetClass = true ∧
    (assetClass = .equity → bandFor equity = .micro ∨ bandFor equity = .microPlus →
      asset.fractionable = some true ∧ account.fractionalTrading = some true)
  fresh : evidenceFresh asset.receivedAt now = true
  active : asset.active = some true
  tradable : asset.tradable = some true
  increments : assetClass = .crypto →
    positive asset.minOrderSize = true ∧ positive asset.minTradeIncrement = true

section Reasons

variable {p : Bool} {reason : String} {reasons : List String}

theorem addReason_ne_nil : addReason reasons reason ≠ [] := by
  unfold addReason
  split
  · rename_i hmem
    exact List.ne_nil_of_mem hmem
  · simp

theorem addReasonIf_eq_nil_iff : addReasonIf p reason reasons = [] ↔ p = false ∧ reasons = [] := by
  unfold addReasonIf
  cases p with
  | false => simp
  | true => simp [addReason_ne_nil]

/-- A flag that is neither set nor unknown is cleared. -/
theorem flag_cleared {flag : Option Bool} (hset : flag ≠ some true) (hunknown : flag ≠ none) :
    flag = some false := by
  cases flag with
  | none => exact absurd rfl hunknown
  | some b =>
      cases b with
      | false => rfl
      | true => exact absurd rfl hset

end Reasons

theorem coreAccountReasons_eq_nil_iff {account : AccountEvidence} {now : Instant} :
    coreAccountReasons account now = [] ↔ CoreVerified account now := by
  constructor
  · intro h
    unfold coreAccountReasons at h
    split at h
    · cases h
    · rename_i hstale
      dsimp only at h
      obtain ⟨hfigures, h⟩ := addReasonIf_eq_nil_iff.1 h
      split at h
      · exact absurd h addReason_ne_nil
      obtain ⟨hmultiplier, h⟩ := addReasonIf_eq_nil_iff.1 h
      obtain ⟨hunknown, h⟩ := addReasonIf_eq_nil_iff.1 h
      obtain ⟨hclosing, h⟩ := addReasonIf_eq_nil_iff.1 h
      obtain ⟨hblocked, h⟩ := addReasonIf_eq_nil_iff.1 h
      simp only [List.any_append, List.any_cons, List.any_nil, Bool.or_false, Bool.or_eq_false_iff,
        beq_eq_false_iff_ne] at hfigures hunknown hclosing hblocked
      obtain ⟨hset₁, hset₂, hset₃, hset₄⟩ := hblocked
      obtain ⟨⟨hknown₁, hknown₂, hknown₃, hknown₄⟩, hknown₅⟩ := hunknown
      refine ⟨by simpa using hstale, ?_, flag_cleared hset₁ hknown₁, flag_cleared hset₂ hknown₂,
        flag_cleared hset₃ hknown₃, flag_cleared hset₄ hknown₄, flag_cleared hclosing hknown₅, ?_,
        Option.isSome_iff_ne_none.2 hfigures.1.1, Option.isSome_iff_ne_none.2 hfigures.1.2,
        Option.isSome_iff_ne_none.2 hfigures.2⟩
      · cases hstatus : account.status with
        | none =>
            rw [hstatus] at h
            cases h
        | some status =>
            rw [hstatus] at h
            by_contra hne
            simp [show status ≠ "ACTIVE" from fun he => hne (by rw [he])] at h
      · simpa [Option.any_eq_true] using hmultiplier
  · intro h
    obtain ⟨m, hm, haccepted⟩ := h.accountMultiplier
    have hone : m ≠ 1 := by
      rintro rfl
      exact absurd haccepted (by decide)
    obtain ⟨e, he⟩ := Option.isSome_iff_exists.1 h.equity
    obtain ⟨c, hc⟩ := Option.isSome_iff_exists.1 h.cash
    obtain ⟨b, hb⟩ := Option.isSome_iff_exists.1 h.buyingPower
    simp [coreAccountReasons, h.fresh, h.status, h.tradingBlocked, h.accountBlocked,
      h.tradeSuspendedByUser, h.suspendTrade, h.closingTransactionsOnly, hm, hone, haccepted, he,
      hc, hb, addReasonIf]

/-- The reasons against an asset, spelled out. -/
theorem assetReasons_eq_nil_iff {account : AccountEvidence} {asset : AssetTradingCapabilities}
    {assetClass : AssetClass} {band : Band} {reasons : List String} :
    assetReasons account asset assetClass band reasons = [] ↔
      reasons = [] ∧ classUnlocked band assetClass = true ∧ asset.active = some true ∧
        asset.tradable = some true ∧
        (assetClass = .equity → band = .micro ∨ band = .microPlus →
          asset.fractionable = some true ∧ account.fractionalTrading = some true) ∧
        (assetClass = .crypto →
          positive asset.minOrderSize = true ∧ positive asset.minTradeIncrement = true) := by
  have hcommon : addReasonIf (asset.active != some true || asset.tradable != some true)
      "DBAE_ASSET_NOT_TRADABLE"
      (addReasonIf (!classUnlocked band assetClass) "DBAE_ASSET_CLASS_LOCKED" reasons) = [] ↔
      reasons = [] ∧ classUnlocked band assetClass = true ∧ asset.active = some true ∧
        asset.tradable = some true := by
    rw [addReasonIf_eq_nil_iff, addReasonIf_eq_nil_iff]
    simp only [Bool.or_eq_false_iff, bne_eq_false_iff_eq, Bool.not_eq_false']
    exact ⟨fun h => ⟨h.2.2, h.2.1, h.1.1, h.1.2⟩, fun h => ⟨⟨h.2.2.1, h.2.2.2⟩, h.2.1, h.1⟩⟩
  cases assetClass with
  | equity =>
      simp only [assetReasons]
      by_cases hmicro : band = .micro ∨ band = .microPlus
      · rw [if_pos hmicro, addReasonIf_eq_nil_iff, addReasonIf_eq_nil_iff, hcommon]
        simp only [bne_eq_false_iff_eq, hmicro, reduceCtorEq, false_implies, true_implies, and_true]
        exact ⟨fun h => ⟨h.2.2.1, h.2.2.2.1, h.2.2.2.2.1, h.2.2.2.2.2, h.2.1, h.1⟩,
          fun h => ⟨h.2.2.2.2.2, h.2.2.2.2.1, h.1, h.2.1, h.2.2.1, h.2.2.2.1⟩⟩
      · rw [if_neg hmicro, hcommon]
        simp only [hmicro, reduceCtorEq, false_implies, implies_true, and_true]
  | crypto =>
      simp only [assetReasons]
      rw [addReasonIf_eq_nil_iff, hcommon]
      simp only [Bool.not_eq_false', Bool.and_eq_true, reduceCtorEq, false_implies, true_implies,
        true_and]
      exact ⟨fun h => ⟨h.2.1, h.2.2.1, h.2.2.2.1, h.2.2.2.2, h.1⟩,
        fun h => ⟨h.2.2.2.2, h.1, h.2.1, h.2.2.1, h.2.2.2.1⟩⟩
  | _ =>
      simp only [assetReasons]
      rw [hcommon]
      simp only [reduceCtorEq, false_implies, and_true]

/-- Evidence of which nothing is known lets no entry through. -/
theorem assetReasons_stale {account : AccountEvidence} {assetClass : AssetClass} {band : Band}
    {receivedAt : Instant} {reasons : List String} :
    assetReasons account { receivedAt := receivedAt } assetClass band reasons ≠ [] := by
  intro h
  have hactive := (assetReasons_eq_nil_iff.1 h).2.2.1
  cases hactive

section Policy

variable {account account' : AccountEvidence} {bandEquity bandEquity' : Option ℚ}
  {asset asset' : AssetTradingCapabilities} {proposal : EntryProposal}

theorem evaluateEntryPolicy_of_eligible {equity : ℚ}
    (h : Eligible account (some equity) asset proposal.asset.assetClass proposal.now) :
    evaluateEntryPolicy account (some equity) asset proposal =
      ⟨true, [], bandFor equity, some equity,
        fractionalAllowed account asset proposal.asset.assetClass []⟩ := by
  obtain ⟨_, heq, hminimum, hunlocked, hmicro⟩ := h.band
  obtain rfl := Option.some.inj heq
  have hasset : assetReasons account asset proposal.asset.assetClass (bandFor equity)
      (classPermissionReason account proposal.asset.assetClass).toList = [] := by
    rw [assetReasons_eq_nil_iff, h.permission]
    exact ⟨rfl, hunlocked, h.active, h.tradable, hmicro, h.increments⟩
  simp only [evaluateEntryPolicy, coreAccountReasons_eq_nil_iff.2 h.core, h.fresh, hminimum,
    hasset, ne_eq, not_true_eq_false, if_false, if_true, reduceCtorEq]

/-- **An entry is allowed exactly on eligible evidence.** -/
theorem evaluateEntryPolicy_allowed_iff :
    (evaluateEntryPolicy account bandEquity asset proposal).allowed = true ↔
      Eligible account bandEquity asset proposal.asset.assetClass proposal.now := by
  constructor
  · intro h
    simp only [evaluateEntryPolicy] at h
    by_cases hcore : coreAccountReasons account proposal.now = []
    swap
    · rw [if_pos hcore] at h
      cases h
    rw [if_neg (not_not.2 hcore)] at h
    cases bandEquity with
    | none => cases h
    | some equity =>
        rw [if_neg (Option.some_ne_none equity)] at h
        dsimp only at h
        by_cases hminimum : bandFor equity = .belowMinimum
        · rw [if_pos hminimum] at h
          cases h
        rw [if_neg hminimum] at h
        by_cases hfresh : evidenceFresh asset.receivedAt proposal.now = true
        swap
        · rw [if_neg hfresh, if_pos assetReasons_stale] at h
          cases h
        rw [if_pos hfresh] at h
        by_cases hasset : assetReasons account asset proposal.asset.assetClass (bandFor equity)
            (classPermissionReason account proposal.asset.assetClass).toList = []
        swap
        · rw [if_pos hasset] at h
          cases h
        obtain ⟨hpermission, hunlocked, hactive, htradable, hmicro, hcrypto⟩ :=
          assetReasons_eq_nil_iff.1 hasset
        exact ⟨coreAccountReasons_eq_nil_iff.1 hcore, Option.toList_eq_nil_iff.1 hpermission,
          ⟨equity, rfl, hminimum, hunlocked, hmicro⟩, hfresh, hactive, htradable, hcrypto⟩
  · intro h
    obtain ⟨equity, rfl, -⟩ := h.band
    rw [evaluateEntryPolicy_of_eligible h]

/-! ### Weaker evidence permits no more -/

theorem CoreVerified.of_weakened {now : Instant} (hw : account'.Weakened now account)
    (h : CoreVerified account' now) : CoreVerified account now := by
  obtain ⟨m, hm, haccepted⟩ := h.accountMultiplier
  exact ⟨hw.receivedAt.fresh h.fresh, hw.status.known h.status,
    hw.tradingBlocked.known h.tradingBlocked, hw.accountBlocked.known h.accountBlocked,
    hw.tradeSuspendedByUser.known h.tradeSuspendedByUser, hw.suspendTrade.known h.suspendTrade,
    hw.closingTransactionsOnly.known h.closingTransactionsOnly,
    ⟨m, hw.accountMultiplier.known hm, haccepted⟩, hw.equity.isSome h.equity,
    hw.cash.isSome h.cash, hw.buyingPower.isSome h.buyingPower⟩

theorem classPermissionReason_of_weakened {now : Instant} {assetClass : AssetClass}
    (hw : account'.Weakened now account) (h : classPermissionReason account' assetClass = none) :
    classPermissionReason account assetClass = none := by
  cases assetClass with
  | crypto =>
      simp only [classPermissionReason] at h ⊢
      split at h
      · cases h
      · rename_i hverified
        push Not at hverified
        obtain ⟨hstatus, hpower⟩ := hverified
        have hpower' : account.nonMarginableBuyingPower.isSome = true :=
          hw.nonMarginableBuyingPower.isSome (Option.isSome_iff_ne_none.2 hpower)
        rw [if_neg]
        push Not
        exact ⟨hw.cryptoStatus.known hstatus, Option.isSome_iff_ne_none.1 hpower'⟩
  | option =>
      simp only [classPermissionReason] at h ⊢
      cases hlevel : account'.optionsTradingLevel with
      | none =>
          rw [hlevel] at h
          cases h
      | some level =>
          rw [hlevel] at h
          rw [hw.optionsTradingLevel.known hlevel]
          exact h
  | _ => rfl

theorem positive_of_withheld {x' x : Option ℚ} (hw : Withheld x' x) (h : positive x' = true) :
    positive x = true ∧ x' = x := by
  cases hx : x' with
  | none =>
      rw [hx] at h
      cases h
  | some q =>
      rw [hw.known hx]
      rw [hx] at h
      exact ⟨h, rfl⟩

theorem Eligible.of_weakened {now : Instant} {assetClass : AssetClass}
    (ha : account'.Weakened now account) (hb : Withheld bandEquity' bandEquity)
    (hc : asset'.Weakened now asset) (h : Eligible account' bandEquity' asset' assetClass now) :
    Eligible account bandEquity asset assetClass now where
  core := h.core.of_weakened ha
  permission := classPermissionReason_of_weakened ha h.permission
  band := by
    obtain ⟨equity, hequity, hminimum, hunlocked, hmicro⟩ := h.band
    refine ⟨equity, hb.known hequity, hminimum, hunlocked, fun hclass hband => ?_⟩
    obtain ⟨hfractionable, htrading⟩ := hmicro hclass hband
    exact ⟨hc.fractionable.known hfractionable, ha.fractionalTrading.known htrading⟩
  fresh := hc.receivedAt.fresh h.fresh
  active := hc.active.known h.active
  tradable := hc.tradable.known h.tradable
  increments := by
    intro hcrypto
    obtain ⟨hminimum, hincrement⟩ := h.increments hcrypto
    exact ⟨(positive_of_withheld hc.minOrderSize hminimum).1,
      (positive_of_withheld hc.minTradeIncrement hincrement).1⟩

theorem fractionalAllowed_of_weakened {now : Instant} {assetClass : AssetClass}
    (ha : account'.Weakened now account) (hc : asset'.Weakened now asset)
    (h : fractionalAllowed account' asset' assetClass [] = true) :
    fractionalAllowed account asset assetClass [] = true := by
  cases assetClass with
  | equity =>
      simp only [fractionalAllowed, Bool.and_eq_true, beq_iff_eq] at h ⊢
      exact ⟨ha.fractionalTrading.known h.1, hc.fractionable.known h.2⟩
  | crypto => rfl
  | _ => cases h

/-- A policy that allows fractions where another one does, and evidence with the increments of
another where these are read, refuse the shape of no more exits. -/
theorem exitShapeRefusal_of_weakened {policy policy' : ExecutionPolicy} {assetClass : AssetClass}
    {qty : ℚ} (hfractional : policy'.fractionalAllowed = true → policy.fractionalAllowed = true)
    (hincrements : assetClass = .crypto → asset'.minOrderSize = asset.minOrderSize ∧
      asset'.minTradeIncrement = asset.minTradeIncrement)
    (h : exitShapeRefusal policy' asset' assetClass qty = none) :
    exitShapeRefusal policy asset assetClass qty = none := by
  unfold exitShapeRefusal at h ⊢
  by_cases hcrypto : assetClass = .crypto
  · obtain ⟨hminimum, hincrement⟩ := hincrements hcrypto
    rw [if_pos hcrypto] at h ⊢
    rw [← hminimum, ← hincrement]
    exact h
  · rw [if_neg hcrypto] at h ⊢
    split at h
    · cases h
    · rename_i hallowed
      rw [if_neg]
      intro hrefused
      simp only [Bool.and_eq_true, Bool.not_eq_true'] at hallowed hrefused
      refine hallowed ⟨hrefused.1, ?_⟩
      by_contra hfractional'
      rw [hfractional (by simpa using hfractional')] at hrefused
      cases hrefused.2

end Policy
/-! ### The protective exit -/

section Exit

variable {policy : ExecutionPolicy} {asset asset' : AssetTradingCapabilities}
  {proposal : EntryProposal} {qty : ℚ}

/-- No scope of an exit below the minimum is verified, so an exit is feasible when its shape is and
it is worth the threshold. -/
theorem exitFeasible_none_iff : exitFeasible policy asset proposal qty = .ok none ↔
    (policy.allowed = true ∧ 0 < qty) ∧
      exitShapeRefusal policy asset proposal.asset.assetClass qty = none ∧
      ∃ m, contractMultiplierOf proposal.asset = .ok m ∧
        liquidationThreshold asset proposal.stopPrice ≤ qty * proposal.stopPrice * m := by
  constructor
  · intro h
    obtain ⟨_, hshapable, h⟩ := except_bind_eq_ok.1 h
    split at h
    · cases h
    · rename_i hshape
      obtain ⟨m, hm, h⟩ := except_bind_eq_ok.1 h
      refine ⟨requireShapable_ok hshapable, hshape, m, hm, ?_⟩
      by_contra hworth
      simp [hworth, subMinimumLiquidationEvidence] at h
  · rintro ⟨⟨hallowed, hpos⟩, hshape, m, hm, hworth⟩
    have hshapable : requireShapable policy qty = .ok () :=
      except_bind_eq_ok.2 ⟨(), raiseIf_eq_ok_iff.2 (by simp [hallowed]),
        raiseIf_eq_ok_iff.2 (not_le.2 hpos)⟩
    simp only [exitFeasible, hshapable, hshape, hm, bind, Except.bind]
    rw [if_pos hworth]

/-- The smallest order of the asset was withheld, and the quantity is worth less than that at the
stop. -/
def MinimumWithheld (asset' asset : AssetTradingCapabilities) (proposal : EntryProposal) (qty : ℚ) :
    Prop :=
  asset'.minOrderSize = none ∧ ∃ minimum, asset.minOrderSize = some minimum ∧
    ∃ m, contractMultiplierOf proposal.asset = .ok m ∧
      qty * proposal.stopPrice * m < minimum * proposal.stopPrice

/-- The threshold is the same, except for a smallest order that was withheld. -/
theorem threshold_of_withheld {value : ℚ} (hw : Withheld asset'.minOrderSize asset.minOrderSize)
    (h : liquidationThreshold asset' proposal.stopPrice ≤ value) :
    liquidationThreshold asset proposal.stopPrice ≤ value ↔
      ¬ (asset'.minOrderSize = none ∧ ∃ minimum, asset.minOrderSize = some minimum ∧
        value < minimum * proposal.stopPrice) := by
  have hdollar : 1 ≤ value := (one_le_liquidationThreshold _).trans h
  cases hminimum : asset.minOrderSize with
  | none =>
      refine iff_of_true ?_ (by rintro ⟨-, m, hm, -⟩; cases hm)
      simpa only [liquidationThreshold, hminimum] using hdollar
  | some minimum =>
      simp only [liquidationThreshold, hminimum, max_le_iff]
      constructor
      · rintro ⟨-, hworth⟩ ⟨-, m, hm, hless⟩
        obtain rfl := Option.some.inj hm
        exact absurd hworth (not_le.2 hless)
      · intro hnot
        refine ⟨hdollar, ?_⟩
        by_contra hworth
        rcases hw with hnone | hsame
        · exact hnot ⟨hnone, minimum, rfl, not_le.1 hworth⟩
        · simp only [liquidationThreshold, hsame, hminimum, max_le_iff] at h
          exact hworth h.2

end Exit

section Weakened

variable {account account' : AccountEvidence} {bandEquity bandEquity' : Option ℚ}
  {asset asset' : AssetTradingCapabilities} {proposal : EntryProposal}

theorem fractionalAllowed_mono (ha : account'.Weakened proposal.now account)
    (hc : asset'.Weakened proposal.now asset)
    (heligible' : Eligible account' bandEquity' asset' proposal.asset.assetClass proposal.now)
    (heligible : Eligible account bandEquity asset proposal.asset.assetClass proposal.now)
    (h : (evaluateEntryPolicy account' bandEquity' asset' proposal).fractionalAllowed = true) :
    (evaluateEntryPolicy account bandEquity asset proposal).fractionalAllowed = true := by
  obtain ⟨equity', rfl, -⟩ := heligible'.band
  obtain ⟨equity, rfl, -⟩ := heligible.band
  rw [evaluateEntryPolicy_of_eligible heligible'] at h
  rw [evaluateEntryPolicy_of_eligible heligible]
  exact fractionalAllowed_of_weakened ha hc h

/-- An exit that is feasible on weakened evidence is feasible on the evidence itself, except by a
smallest order that was withheld. -/
theorem exitFeasible_of_weakened {qty : ℚ} (ha : account'.Weakened proposal.now account)
    (hb : Withheld bandEquity' bandEquity) (hc : asset'.Weakened proposal.now asset)
    (hexit : exitFeasible (evaluateEntryPolicy account' bandEquity' asset' proposal) asset' proposal
      qty = .ok none) :
    exitFeasible (evaluateEntryPolicy account bandEquity asset proposal) asset proposal qty =
      .ok none ↔ ¬ MinimumWithheld asset' asset proposal qty := by
  obtain ⟨⟨hallowed', hpos⟩, hshape', m, hm, hworth⟩ := exitFeasible_none_iff.1 hexit
  have heligible' := evaluateEntryPolicy_allowed_iff.1 hallowed'
  have heligible := heligible'.of_weakened ha hb hc
  -- a crypto entry is allowed only on known increments, which are those of the evidence itself
  have hincrements : proposal.asset.assetClass = .crypto →
      asset'.minOrderSize = asset.minOrderSize ∧
        asset'.minTradeIncrement = asset.minTradeIncrement := by
    intro hcrypto
    obtain ⟨hminimum, hincrement⟩ := heligible'.increments hcrypto
    exact ⟨(positive_of_withheld hc.minOrderSize hminimum).2,
      (positive_of_withheld hc.minTradeIncrement hincrement).2⟩
  have hshape := exitShapeRefusal_of_weakened
    (fractionalAllowed_mono ha hc heligible' heligible) hincrements hshape'
  have hthreshold := threshold_of_withheld hc.minOrderSize hworth
  rw [exitFeasible_none_iff]
  constructor
  · rintro ⟨-, -, m', hm', hworth'⟩ ⟨hnone, minimum, hminimum, m'', hm'', hless⟩
    rw [hm] at hm' hm''
    cases hm'
    cases hm''
    exact hthreshold.1 hworth' ⟨hnone, minimum, hminimum, hless⟩
  · intro hnot
    refine ⟨⟨evaluateEntryPolicy_allowed_iff.2 heligible, hpos⟩, hshape, m, hm, hthreshold.2 ?_⟩
    rintro ⟨hnone, minimum, hminimum, hless⟩
    exact hnot ⟨hnone, minimum, hminimum, m, hm, hless⟩

/-- **What is allowed on weakened evidence is allowed on the evidence itself, where fractions are
too; and a quantity, shaped or not, that may be left on weakened evidence may be left on it except
by a smallest order that was withheld.** -/
theorem unknown_never_permissive {qty : ℚ}
    (ha : account'.Weakened proposal.now account) (hb : Withheld bandEquity' bandEquity)
    (hc : asset'.Weakened proposal.now asset)
    (hallowed : (evaluateEntryPolicy account' bandEquity' asset' proposal).allowed = true)
    (hexit : exitFeasible (evaluateEntryPolicy account' bandEquity' asset' proposal) asset' proposal
      qty = .ok none) :
    (evaluateEntryPolicy account bandEquity asset proposal).allowed = true ∧
      ((evaluateEntryPolicy account' bandEquity' asset' proposal).fractionalAllowed = true →
        (evaluateEntryPolicy account bandEquity asset proposal).fractionalAllowed = true) ∧
      (exitFeasible (evaluateEntryPolicy account bandEquity asset proposal) asset proposal qty =
          .ok none ↔ ¬ MinimumWithheld asset' asset proposal qty) := by
  have heligible' := evaluateEntryPolicy_allowed_iff.1 hallowed
  have heligible := heligible'.of_weakened ha hb hc
  exact ⟨evaluateEntryPolicy_allowed_iff.2 heligible,
    fractionalAllowed_mono ha hc heligible' heligible, exitFeasible_of_weakened ha hb hc hexit⟩

end Weakened

/-- An account with everything known, and a share. -/
def verifiedAccount : AccountEvidence where
  status := some "ACTIVE"
  tradingBlocked := some false
  accountBlocked := some false
  tradeSuspendedByUser := some false
  suspendTrade := some false
  closingTransactionsOnly := some false
  fractionalTrading := some true
  equity := some 1000
  cash := some 1000
  buyingPower := some 1000
  accountMultiplier := some 2
  receivedAt := 0

def verifiedShare (minOrderSize : Option ℚ) : AssetTradingCapabilities where
  active := some true
  tradable := some true
  fractionable := some true
  minOrderSize := minOrderSize
  receivedAt := 0

def shareProposal : EntryProposal := ⟨⟨"FRAC", .equity, "FRAC", none, none⟩, 10, 9, .paper, 0⟩

/-- The same account, of which less is known. -/
def lessKnownAccount : AccountEvidence := { verifiedAccount with fractionalTrading := none }

theorem lessKnownAccount_weakened (now : Instant) :
    lessKnownAccount.Weakened now verifiedAccount where
  status := .inr rfl
  tradingBlocked := .inr rfl
  accountBlocked := .inr rfl
  tradeSuspendedByUser := .inr rfl
  suspendTrade := .inr rfl
  closingTransactionsOnly := .inr rfl
  fractionalTrading := .inl rfl
  equity := .inr rfl
  cash := .inr rfl
  buyingPower := .inr rfl
  nonMarginableBuyingPower := .inr rfl
  accountMultiplier := .inr rfl
  cryptoStatus := .inr rfl
  optionsTradingLevel := .inr rfl
  receivedAt := .inl rfl

theorem verifiedShare_weakened (now : Instant) (minOrderSize : Option ℚ) :
    (verifiedShare none).Weakened now (verifiedShare minOrderSize) where
  active := .inr rfl
  tradable := .inr rfl
  fractionable := .inr rfl
  minOrderSize := .inl rfl
  minTradeIncrement := .inr rfl
  receivedAt := .inl rfl

/-- Two whole shares that may be bought without knowing of fractional trading may be bought. -/
theorem unknown_never_permissive_share :
    (evaluateEntryPolicy verifiedAccount (some 1000) (verifiedShare none) shareProposal).allowed
        = true ∧
      exitFeasible (evaluateEntryPolicy verifiedAccount (some 1000) (verifiedShare none)
        shareProposal) (verifiedShare none) shareProposal 2 = .ok none := by
  have hboth := unknown_never_permissive (lessKnownAccount_weakened shareProposal.now)
    (.inr (rfl : some (1000 : ℚ) = some 1000)) (verifiedShare_weakened shareProposal.now none)
    (by decide +kernel) (by decide +kernel : exitFeasible _ _ _ 2 = .ok none)
  refine ⟨hboth.1, hboth.2.2.2 ?_⟩
  rintro ⟨-, minimum, hminimum, -⟩
  cases hminimum

/-- **An unknown smallest order permits what a known one refuses**: one share is worth nine dollars
at the stop, and less than the smallest order of five. -/
theorem withheld_minimum_permits :
    (verifiedShare none).Weakened shareProposal.now (verifiedShare (some 5)) ∧
      (evaluateEntryPolicy verifiedAccount (some 1000) (verifiedShare none) shareProposal).allowed
        = true ∧
      shapeQuantity (evaluateEntryPolicy verifiedAccount (some 1000) (verifiedShare none)
        shareProposal) (verifiedShare none) .equity 1 = .ok ⟨1, .unchanged, none⟩ ∧
      exitFeasible (evaluateEntryPolicy verifiedAccount (some 1000) (verifiedShare none)
        shareProposal) (verifiedShare none) shareProposal 1 = .ok none ∧
      exitFeasible (evaluateEntryPolicy verifiedAccount (some 1000) (verifiedShare (some 5))
        shareProposal) (verifiedShare (some 5)) shareProposal 1 =
          .ok (some "DBAE_SUB_MINIMUM_LIQUIDATION_UNVERIFIED") :=
  ⟨verifiedShare_weakened _ _, by decide +kernel, by decide +kernel, by decide +kernel,
    by decide +kernel⟩

end TradePulse.Dbae
