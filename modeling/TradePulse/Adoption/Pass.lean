/-
**Adopting unmanaged positions** (`adoption/__init__.py`).

A long position that the broker holds and nothing here manages becomes a lot and a holding, so that
it is protected like any other.  A pass looks at each position that the broker reports: one that the
opening of the generation lists is adopted at once; any other must be seen twice with the same
quantity, which an episode keeps account of.

The episode is written in one transaction and the adoption in a later one; between the two the pass
fetches candles, and other passes go on.

Main definitions:

* `Position`, `positionAsset`, `positionKey` — what the broker reports;
* `Episode`, `AdoptionRow`, `AdoptionBooks` — the tables;
* `observe`, `closeVanished`, `writeAdoption` — the transactions;
* `adoptionPass` — the pass, as a program over them;
* `Elsewhere`, `system` — what other code does to the tables, and passes side by side.
-/

import TradePulse.Process.Pool
import TradePulse.Quarantine.Records
import TradePulse.Reconciliation.FeePopulation

set_option autoImplicit false

namespace TradePulse

namespace Adopting

open Storage Process

/-! ### Positions -/

/-- A position as the broker reports it. -/
structure Position where
  symbol : String
  assetClass : AssetClass
  qty : ℚ
  avgEntryPrice : ℚ
  currentPrice : ℚ
  deriving DecidableEq

/-- `_position_asset`. -/
def positionAsset (p : Position) : AssetIdentity where
  symbol := String.ofList (upper (strip (upper p.symbol.toList)))
  assetClass := p.assetClass
  nativeAssetId := String.ofList (strip ("alpaca:".toList ++ upper p.symbol.toList))
  contractMultiplier := if p.assetClass = .option then some 100 else none

/-- `asset_key_from_broker_symbol`; a blank symbol has no key. -/
def positionKey (p : Position) : Except Raised String :=
  if strip p.symbol.toList = [] then .error (.valueError "symbol is required")
  else .ok (assetKeyFromBrokerSymbol p.assetClass p.symbol)

/-- `held`: the quantity of each instrument; of two positions of one instrument the last counts. -/
def heldOf : List Position → Except Raised (List (String × ℚ))
  | [] => .ok []
  | p :: rest => do
      let key ← positionKey p
      let others ← heldOf rest
      return (key, p.qty) :: others

/-- `held.get(key, Decimal(0))`. -/
def heldQty (held : List (String × ℚ)) (key : String) : ℚ :=
  ((held.reverse.find? fun h => h.1 = key).map (·.2)).getD 0

/-! ### The tables -/

inductive EpisodeStatus
  | observing | superseded | vanished | adopted
  deriving DecidableEq

/-- A row of `unmanaged_observations`: an unmanaged position that is being watched. -/
structure Episode where
  episodeId : String
  accountRef : String
  assetKey : String
  firstQty : ℚ
  lastQty : ℚ
  firstSeenAt : Instant
  lastSeenAt : Instant
  status : EpisodeStatus := .observing
  closedAt : Option Instant := none
  deriving DecidableEq

instance : Record Episode where
  recordId e := e.episodeId
  uniqueValue _ := none

inductive Classification
  | openingInventory | unexpectedExternal
  deriving DecidableEq

/-- A row of `position_adoptions`: what settlement reads of it, and what it is the adoption of. -/
structure AdoptionRow extends Adoption where
  accountRef : String
  assetKey : String
  asset : AssetIdentity
  classification : Classification
  sourceId : String
  adoptionMarkPrice : ℚ
  stopSource : String
  deriving DecidableEq

instance : Record AdoptionRow where
  recordId r := r.adoptionId
  uniqueValue _ := none

/-- Two adoptions are of different sources (`UNIQUE(account_ref, asset_key, source_id)`). -/
def SameSource (a b : AdoptionRow) : Prop :=
  a.accountRef = b.accountRef ∧ a.assetKey = b.assetKey ∧ a.sourceId = b.sourceId

instance (a b : AdoptionRow) : Decidable (SameSource a b) := inferInstanceAs (Decidable (_ ∧ _))

/-- That a pass saw a position, and in which episode. -/
structure Sighting where
  accountRef : String
  assetKey : String
  episodeId : String
  qty : ℚ
  deriving DecidableEq

/-- What one adoption wrote, and the two sightings of the position before it. -/
structure Written where
  row : AdoptionRow
  lot : PositionLot
  holding : Holding
  recent : List Sighting

/-- The tables of an adoption beside those of the store.  What was seen and what was written is
kept as well, the latest sighting first; no transaction reads it. -/
structure AdoptionBooks extends Store where
  unmanagedObservations : Table Episode := default
  adoptionRows : Table AdoptionRow := default
  /-- The instruments with an open quarantined record. -/
  openRecords : List String := []
  openingCheckpoint : Option OpeningCheckpoint := none
  sightings : List Sighting := []
  written : List Written := []

namespace AdoptionBooks

/-- `_open_lots`. -/
def openLots (s : AdoptionBooks) (key : String) : List PositionLot :=
  s.positionLots.rows.filter fun l =>
    assetIdentityKey l.asset = key ∧ l.isOpen = true ∧ l.lotId ∉ s.convertedLots

/-- The instrument has a holding or an open lot. -/
def managed (s : AdoptionBooks) (key : String) : Prop :=
  (s.holdings.get? key).isSome = true ∨ s.openLots key ≠ []

instance (s : AdoptionBooks) (key : String) : Decidable (s.managed key) :=
  inferInstanceAs (Decidable (_ ∨ _))

/-- The episode in which a position is being watched. -/
def observing (s : AdoptionBooks) (accountRef key : String) : Option Episode :=
  s.unmanagedObservations.rows.find? fun e =>
    e.accountRef = accountRef ∧ e.assetKey = key ∧ e.status = .observing

end AdoptionBooks

/-! ### Eligibility and classification -/

/-- `_eligible`: why a position is not adopted, if it is not. -/
def ineligible (s : AdoptionBooks) (p : Position) (key : String) : Option String :=
  if p.qty ≤ 0 then some (if p.qty < 0 then "UNSUPPORTED_SHORT_POSITION" else "FLAT")
  else if p.assetClass = .crypto then some "CRYPTO_ADOPTION_UNSUPPORTED"
  else if p.assetClass ≠ .equity ∧ p.assetClass ≠ .option then some "ASSET_CLASS_UNSUPPORTED"
  else if s.managed key then some "PARTIALLY_MANAGED"
  else if key ∈ s.openRecords then some "QUARANTINED"
  else none

/-- `classify`: the opening that lists the position at exactly this quantity, if there is one. -/
def classify (checkpoint : Option OpeningCheckpoint) (key : String) (qty : ℚ) : Option String :=
  checkpoint.bind fun c =>
    if c.positions.any fun p =>
      assetKeyFromBrokerSymbol p.assetClass p.symbol = key ∧ p.qty = qty
    then some c.checkpointId else none

/-! ### Episodes -/

/-- A constraint of the database. -/
def constraintFailed : Raised := ⟨.other, "UNIQUE constraint failed"⟩

/-- `INSERT INTO unmanaged_observations`: one episode at most watches a position. -/
def insertEpisode (t : Table Episode) (e : Episode) : Except Raised (Table Episode) := do
  raiseIf (t.rows.any fun a => a.status = .observing ∧ a.accountRef = e.accountRef ∧
    a.assetKey = e.assetKey) constraintFailed
  Quarantine.insertRow t e

/-- `_close_episode`. -/
def closeEpisode (t : Table Episode) (episodeId : String) (status : EpisodeStatus)
    (now : Instant) : Except Raised (Table Episode) :=
  match t.get? episodeId with
  | none => .error ⟨.other, "'NoneType' object is not subscriptable"⟩
  | some e => .ok (t.put { e with status := status, closedAt := some now })

/-- An instant as it is written in an identity: its microseconds. -/
def stamp (now : Instant) : String := toString now

/-- A day as it is written in an identity: its number. -/
def dayStamp (now : Instant) : String := toString (now / 86400000000)

/-- A new episode, and the sighting that opens it. -/
def openEpisode (s : AdoptionBooks) (accountRef key : String) (qty : ℚ) (now : Instant) :
    Except Raised (Option String × AdoptionBooks) := do
  let episodeId := accountRef ++ ":" ++ key ++ ":" ++ stamp now
  let t ← insertEpisode s.unmanagedObservations
    { episodeId := episodeId
      accountRef := accountRef
      assetKey := key
      firstQty := qty
      lastQty := qty
      firstSeenAt := now
      lastSeenAt := now }
  return (none,
    { s with
      unmanagedObservations := t
      sightings := ⟨accountRef, key, episodeId, qty⟩ :: s.sightings })

/-- `observe`: one sighting; the episode is returned where the quantity did not change. -/
def observe (s : AdoptionBooks) (accountRef key : String) (qty : ℚ) (now : Instant) :
    Except Raised (Option String × AdoptionBooks) :=
  if s.managed key then .ok (none, s)
  else
    match s.observing accountRef key with
    | none => openEpisode s accountRef key qty now
    | some e =>
        if e.firstQty = qty ∧ e.lastQty = qty then
          .ok (some e.episodeId,
            { s with
              unmanagedObservations := s.unmanagedObservations.put { e with lastSeenAt := now }
              sightings := ⟨accountRef, key, e.episodeId, qty⟩ :: s.sightings })
        else do
          let t ← closeEpisode s.unmanagedObservations e.episodeId .superseded now
          openEpisode { s with unmanagedObservations := t } accountRef key qty now

/-- The loop of `close_vanished`, over the episodes that are open. -/
def closeAll (held : List (String × ℚ)) (now : Instant) :
    List Episode → Table Episode → Except Raised (Table Episode)
  | [], t => .ok t
  | e :: rest, t =>
      if heldQty held e.assetKey ≤ 0 then do
        let t ← closeEpisode t e.episodeId .vanished now
        closeAll held now rest t
      else closeAll held now rest t

/-- `close_vanished`. -/
def closeVanished (s : AdoptionBooks) (accountRef : String) (held : List (String × ℚ))
    (now : Instant) : Except Raised AdoptionBooks := do
  let episodes := s.unmanagedObservations.rows.filter fun e =>
    e.accountRef = accountRef ∧ e.status = .observing
  let t ← closeAll held now episodes s.unmanagedObservations
  return { s with unmanagedObservations := t }

/-! ### The adoption -/

/-- The lot of an adoption. -/
def adoptedLot (row : AdoptionRow) : Except Raised PositionLot :=
  PositionLot.make
    { lotId := adoptedLotPrefix ++ row.adoptionId
      originatingFillId := adoptionFillPrefix ++ row.adoptionId
      asset := row.asset
      positionSide := .long
      openedQuantity := row.adoptedQuantity
      remainingQuantity := row.adoptedQuantity
      acquisitionPrice := row.brokerAvgEntryPrice
      openedAt := row.adoptedAt
      mfePrice := some row.adoptionMarkPrice
      maePrice := some row.adoptionMarkPrice }

/-- The holding of an adoption. -/
def adoptedHolding (row : AdoptionRow) : Except Raised Holding :=
  Holding.make
    { asset := row.asset
      quantity := row.adoptedQuantity
      averagePrice := row.brokerAvgEntryPrice
      updatedAt := row.adoptedAt
      stopLoss := some row.stopLoss
      targetPrice := none }

/-- `adoption_event`, without its texts. -/
def adoptionEvent (row : AdoptionRow) : AuditEvent where
  eventId := "adopted_position:" ++ row.adoptionId
  eventType := "adopted_position"
  entityId := row.adoptionId
  occurredAt := row.adoptedAt

/-- `INSERT INTO position_adoptions`: a source is adopted once. -/
def insertAdoption (t : Table AdoptionRow) (row : AdoptionRow) :
    Except Raised (Table AdoptionRow) := do
  raiseIf (t.rows.any fun a => SameSource a row) constraintFailed
  Quarantine.insertRow t row

/-- The sightings of a position. -/
def sightingsOf (sightings : List Sighting) (accountRef key : String) : List Sighting :=
  sightings.filter fun x => x.accountRef = accountRef ∧ x.assetKey = key

/-- Close the episode of an adoption, if it has one. -/
def closeAdopted (t : Table Episode) (row : AdoptionRow) :
    Option String → Except Raised (Table Episode)
  | none => .ok t
  | some episode => closeEpisode t episode .adopted row.adoptedAt

/-- `write_adoption`: the row, the lot, the holding and the audit event, or nothing. -/
def writeAdoption (s : AdoptionBooks) (row : AdoptionRow) (episode : Option String) :
    Except Raised (Bool × AdoptionBooks) :=
  if s.managed row.assetKey ∨ (s.adoptionRows.rows.any fun a => SameSource a row) = true then
    .ok (false, s)
  else do
    let rows ← insertAdoption s.adoptionRows row
    let lot ← adoptedLot row
    let lots ← Quarantine.insertRow s.positionLots lot
    let holding ← adoptedHolding row
    let holdings ← Quarantine.insertRow s.holdings holding
    let episodes ← closeAdopted s.unmanagedObservations row episode
    return (true,
      { s with
        adoptionRows := rows
        positionAdoptions := s.positionAdoptions.createOnce row.toAdoption
        positionLots := lots
        holdings := holdings
        auditEvents := s.auditEvents.createOnce (adoptionEvent row)
        unmanagedObservations := episodes
        written := s.written ++ [⟨row, lot, holding,
          (sightingsOf s.sightings row.accountRef row.assetKey).take 2⟩] })

/-! ### The pass -/

/-- The transactions of a pass, and what it asks the world outside. -/
inductive AdoptionOp
  | loadBoundOpeningCheckpoint
  | closeVanished (accountRef : String) (held : List (String × ℚ)) (now : Instant)
  | eligible (p : Position) (key : String)
  | observe (accountRef key : String) (qty : ℚ) (now : Instant)
  /-- The stop of the position, from candles of the market and the limits that are set. -/
  | entryStopLoss (p : Position)
  /-- Write an audit event, and alert once. -/
  | alertOnce (event : AuditEvent)
  | writeAdoption (row : AdoptionRow) (episode : Option String)

@[reducible] def AdoptionOp.Res : AdoptionOp → Type
  | .loadBoundOpeningCheckpoint => Option OpeningCheckpoint
  | .closeVanished _ _ _ => Unit
  | .eligible _ _ => Option String
  | .observe _ _ _ _ => Option String
  | .entryStopLoss _ => Except String (ℚ × String)
  | .alertOnce _ => Unit
  | .writeAdoption _ _ => Bool

/-- Programs of a pass. -/
abbrev Adopt (α : Type) := Prog Raised AdoptionOp.Res α

/-- Perform one transaction. -/
abbrev perform (o : AdoptionOp) : Adopt o.Res := Prog.perform o

/-- What the candles and the limits say of a stop: its price and where it comes from, or why there
is none. -/
abbrev StopAnswer := Except String (ℚ × String)

/-- What a transaction does to the tables. -/
def exec : (o : AdoptionOp) → StopAnswer → AdoptionBooks →
    Except Raised (o.Res × AdoptionBooks)
  | .loadBoundOpeningCheckpoint, _, s => .ok (s.openingCheckpoint, s)
  | .closeVanished accountRef held now, _, s => do
      let s ← closeVanished s accountRef held now
      return ((), s)
  | .eligible p key, _, s => .ok (ineligible s p key, s)
  | .observe accountRef key qty now, _, s => observe s accountRef key qty now
  | .entryStopLoss _, stop, s => .ok (stop, s)
  | .alertOnce event, _, s =>
      .ok ((), { s with auditEvents := s.auditEvents.createOnce event })
  | .writeAdoption row episode, _, s => writeAdoption s row episode

/-- `_safe_id`; `digest` is the hash of a text. -/
def safeId (digest : String → String) (raw : String) : String := "adp_" ++ digest raw

/-- The position has no stop, and stays unmanaged. -/
def refuseStop (key : String) (now : Instant) : Adopt Unit :=
  perform (.alertOnce
    { eventId := "adoption_stop_input_invalid:" ++ key ++ ":" ++ dayStamp now
      eventType := "adoption_stop_input_invalid"
      entityId := key
      occurredAt := now })

/-- Adopt a position from a source: find its stop, and write it. -/
def adoptFrom (digest : String → String) (accountRef key : String) (p : Position)
    (classification : Classification) (sourceId : String) (episode : Option String)
    (now : Instant) : Adopt Unit :=
  if p.avgEntryPrice ≤ 0 ∨ p.currentPrice ≤ 0 then refuseStop key now
  else do
    match ← perform (.entryStopLoss p) with
    | .error _ => refuseStop key now
    | .ok (stop, stopSource) => do
        let raw := if classification = .openingInventory then sourceId ++ "|" ++ key else sourceId
        let row : AdoptionRow :=
          { adoptionId := safeId digest raw
            brokerAvgEntryPrice := p.avgEntryPrice
            adoptedQuantity := p.qty
            adoptedAt := now
            stopLoss := stop
            accountRef := accountRef
            assetKey := key
            asset := positionAsset p
            classification := classification
            sourceId := sourceId
            adoptionMarkPrice := p.currentPrice
            stopSource := stopSource }
        -- an error of the database reaches the pass as one of its own class, and ends it
        let written ← perform (.writeAdoption row episode)
        if written then perform (.alertOnce (adoptionEvent row)) else return ()

/-- The body of the loop of `adoption_pass`. -/
def adoptPosition (digest : String → String) (accountRef : String)
    (checkpoint : Option OpeningCheckpoint) (now : Instant) (p : Position) : Adopt Unit :=
  match positionKey p with
  | .error _ => return ()
  | .ok key => do
      match ← perform (.eligible p key) with
      | some _ => return ()
      | none => do
          match classify checkpoint key p.qty with
          | some checkpointId =>
              adoptFrom digest accountRef key p .openingInventory checkpointId none now
          | none => do
              match ← perform (.observe accountRef key p.qty now) with
              -- stability needs a second matching sighting
              | none => return ()
              | some episode =>
                  adoptFrom digest accountRef key p .unexpectedExternal episode (some episode) now

/-- What a pass is started with. -/
structure PassArgs where
  accountRef : String
  positions : List Position
  now : Instant
  deriving DecidableEq

/-- `adoption_pass`. -/
def adoptionPass (digest : String → String) (a : PassArgs) : Adopt Unit := do
  let checkpoint ← perform .loadBoundOpeningCheckpoint
  let held ← Prog.ofExcept (heldOf a.positions)
  perform (.closeVanished a.accountRef held a.now)
  Prog.forEach a.positions (adoptPosition digest a.accountRef checkpoint a.now)

/-! ### Passes, and what goes on elsewhere -/

/-- What other code does to the tables: sales close lots, settlement and the monitor write holdings,
lots are opened by fills and converted, the quarantine and the binding of a generation change. -/
inductive Elsewhere
  | saveHolding (holding : Holding)
  | deleteHolding (key : String)
  | saveLot (lot : PositionLot)
  | createLot (lot : PositionLot)
  | convertLot (lotId : String)
  | quarantine (openRecords : List String)
  | bind (checkpoint : Option OpeningCheckpoint)

/-- What a lot was opened with did not change. -/
def SameOpening (l l' : PositionLot) : Prop :=
  l.originatingFillId = l'.originatingFillId ∧ l.openedQuantity = l'.openedQuantity ∧
    l.acquisitionPrice = l'.acquisitionPrice ∧ l.openedAt = l'.openedAt

instance (l l' : PositionLot) : Decidable (SameOpening l l') :=
  inferInstanceAs (Decidable (_ ∧ _))

/-- A change of the tables by other code. -/
def elsewhere (s : AdoptionBooks) : Elsewhere → Option AdoptionBooks
  | .saveHolding holding =>
      some { s with holdings := (s.holdings.put holding).createOnce holding }
  | .deleteHolding key => some { s with holdings := s.holdings.delete key }
  | .saveLot lot =>
      match s.positionLots.get? lot.lotId with
      | none => none
      | some old =>
          if SameOpening old lot then some { s with positionLots := s.positionLots.put lot } else none
  | .createLot lot =>
      if lot.origin = .fill then some { s with positionLots := s.positionLots.createOnce lot }
      else none
  | .convertLot lotId => some { s with convertedLots := lotId :: s.convertedLots }
  | .quarantine openRecords => some { s with openRecords := openRecords }
  | .bind checkpoint => some { s with openingCheckpoint := checkpoint }

/-- Any number of passes, and other code. -/
def system (digest : String → String) :
    System AdoptionBooks StopAnswer Raised PassArgs Elsewhere AdoptionOp.Res where
  exec := exec
  call := adoptionPass digest
  env t s := elsewhere s t

end Adopting

end TradePulse
