/-
**A rule for the first stage.**

The first stage reads the lots of the instrument, plans the fill against them, applies the planned
closures one by one and opens what is left.  The rule asks what is known at these points and leaves
one obligation for each transaction that writes.

Main definitions:

* `LotKnowledge` — the knowledge at the points of the first stage;
* `LotKnowledge.Holds` — what has to be shown of its transactions.

Main results:

* `LotKnowledge.Holds.projectLot` — then the first stage keeps the invariant and the guarantee.
-/

import TradePulse.Settlement.PassRule

set_option autoImplicit false

namespace TradePulse

namespace Settlement

open Process

/-- What is known at the points of the first stage. -/
structure LotKnowledge (σ : Type) where
  /-- Before it. -/
  start : σ → Prop
  /-- When the lots were read. -/
  seen : List PositionLot → σ → Prop
  /-- While the closures of a plan are applied; the list is of those still to come. -/
  closing : List PositionLot → SignedLotPlan → List LotClosure → σ → Prop
  /-- When it is over, in whatever way. -/
  ended : σ → Prop

/-- The lots a fill is planned against. -/
def visibleLots (s : Store) (asset : AssetIdentity) : List PositionLot :=
  (s.lotsByAsset asset).filter fun l => !s.convertedLots.contains l.lotId

/-- The plan of a fill against the lots that were read, none of them short. -/
def Planned (event : SettlementEvent) (lots : List PositionLot) (plan : SignedLotPlan) : Prop :=
  planSignedLotFill lots event = .ok plan ∧ ∀ c ∈ plan.closures, c.lot.positionSide = .long

namespace LotKnowledge

/-- What has to be shown of the transactions of the first stage. -/
structure Holds {σ : Type} (Γ : Setting σ Outside Raised Op.Res) (event : SettlementEvent)
    (N : LotKnowledge σ) : Prop where
  read : Sat Γ (unconvertedLots .projectLot event.asset) N.start N.seen (fun _ => N.ended)
  planned : ∀ lots plan s, Γ.inv s → N.seen lots s → Planned event lots plan →
    N.closing lots plan plan.closures s
  close : ∀ lots plan c cs, Planned event lots plan →
    Sat Γ (perform (.closeLot c event)) (N.closing lots plan (c :: cs))
      (fun _ => N.closing lots plan cs) (fun _ => N.ended)
  owe : ∀ lots plan b, Planned event lots plan → plan.openingDirection = .short →
    oversellLiability event plan.openingQuantity = .ok b →
      Sat Γ (perform (.createLiability b)) (N.closing lots plan []) (fun _ => N.ended)
        (fun _ => N.ended)
  mixed : ∀ lots plan, Planned event lots plan →
    Sat Γ (mixedLotOrigin event) (N.closing lots plan []) (fun _ => N.ended) (fun _ => N.ended)
  name : ∀ lots plan, Sat Γ (perform .uuid4) (N.closing lots plan [])
    (fun _ => N.closing lots plan []) (fun _ => N.ended)
  «open» : ∀ lots plan lotId l, Planned event lots plan → plan.openingDirection ≠ .short →
    openedLot event lotId plan.openingDirection plan.openingQuantity = .ok l →
      Sat Γ (perform (.createLot l event.brokerOrderId)) (N.closing lots plan [])
        (fun _ => N.ended) (fun _ => N.ended)
  seen_ended : ∀ lots s, N.seen lots s → N.ended s
  closing_ended : ∀ lots plan cs s, N.closing lots plan cs s → N.ended s

variable {σ : Type} {Γ : Setting σ Outside Raised Op.Res} {event : SettlementEvent}
  {N : LotKnowledge σ}

namespace Holds

theorem openPosition (h : N.Holds Γ event) {lots : List PositionLot} {plan : SignedLotPlan}
    (hplan : Planned event lots plan) :
    Sat Γ (openPosition lots event plan) (N.closing lots plan []) (fun _ => N.ended)
      (fun _ => N.ended) := by
  unfold Settlement.openPosition
  split
  · split
    · rename_i hshort
      refine Sat.bind_of (Q := fun b s => oversellLiability event plan.openingQuantity = .ok b ∧
        N.closing lots plan [] s) (Sat.ofExcept (fun b hb s _ hk => ⟨hb, hk⟩)
          fun _ _ s _ hk => h.closing_ended lots plan [] s hk) fun b => ?_
      refine Sat.of_pointwise fun s _ hk => ⟨N.closing lots plan [], hk.2, ?_⟩
      exact Sat.bind_of (h.owe lots plan b hplan hshort hk.1) fun _ _ _ hk => hk
    · rename_i hlong
      split
      · exact h.mixed lots plan hplan
      · refine Sat.bind_of (h.name lots plan) fun lotId => ?_
        refine Sat.bind_of (Q := fun l s => openedLot event lotId plan.openingDirection
          plan.openingQuantity = .ok l ∧ N.closing lots plan [] s)
          (Sat.ofExcept (fun l hl s _ hk => ⟨hl, hk⟩)
            fun _ _ s _ hk => h.closing_ended lots plan [] s hk) fun l => ?_
        refine Sat.of_pointwise fun s _ hk => ⟨N.closing lots plan [], hk.2, ?_⟩
        exact Sat.bind_of (h.open lots plan lotId l hplan hlong hk.1) fun _ _ _ hk => hk
  · exact fun s _ hk => h.closing_ended lots plan [] s hk

/-- **The first stage.** -/
theorem projectLot (h : N.Holds Γ event) :
    Sat Γ (projectLot event) N.start (fun _ => N.ended) (fun _ => N.ended) := by
  refine Sat.bind_of h.read fun lots => ?_
  refine Sat.bind_of (Q := fun plan s => planSignedLotFill lots event = .ok plan ∧ N.seen lots s)
    (Sat.ofExcept (fun plan hplan s _ hk => ⟨hplan, hk⟩)
      fun _ _ s _ hk => h.seen_ended lots s hk) fun plan => ?_
  refine Sat.bind_of (Q := fun _ s => Planned event lots plan ∧
    N.closing lots plan plan.closures s) (Sat.ofExcept (fun _ hlong s hs hk => ?_)
      fun _ _ s _ hk => h.seen_ended lots s hk.2) fun _ => ?_
  · obtain ⟨hplan, hseen⟩ := hk
    have hplanned : Planned event lots plan := by
      refine ⟨hplan, fun c hc => ?_⟩
      rw [raiseIf_eq_ok_iff] at hlong
      cases hside : c.lot.positionSide with
      | long => rfl
      | short =>
          refine absurd (List.any_eq_true.2 ⟨c, hc, ?_⟩) hlong
          rw [hside]
          rfl
    exact ⟨hplanned, h.planned lots plan s hs hseen hplanned⟩
  · refine Sat.of_pointwise fun s _ hk => ⟨N.closing lots plan plan.closures, hk.2, ?_⟩
    refine Sat.bind_of (Sat.forEach (L := N.closing lots plan) (fun c cs => ?_) plan.closures)
      fun _ => ?_
    · exact Sat.bind_of (h.close lots plan c cs hk.1) fun _ _ _ hk => hk
    · exact Sat.bind_of (h.openPosition hk.1) fun _ _ _ hk => hk

end Holds

end LotKnowledge

end Settlement

end TradePulse
