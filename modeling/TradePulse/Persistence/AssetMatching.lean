/-
**Matching assets in SQL** (`list_by_asset` and `exists_with_status_and_asset` of
`persistence/repositories.py`, `asset_identity_key` of `models/market.py`).

What an asset is, is said twice: by a key, which Python computes from its class, its venue and its
native identifier, and by a condition on the fields of the stored row, which the database evaluates.
Python takes a blank venue for none and lowers every letter; the database takes a venue for none only
if it is null, and lowers the letters of ASCII.

Main definitions:

* `StrLower` — `str.lower`;
* `identityKey` — the key, with it;
* `selectedByAsset`, `listByAsset`, `existsWithStatusAndAsset` — the queries.

Main results:

* `eq_of_append_separator` — a text before a separator is told from what follows it;
* `key_eq_of_selected` — a row that is selected has the key;
* `selects_the_key_iff` — when the rows that are selected are those that have the key;
* `listByAsset_of_writtenAlike`, `existsWithStatusAndAsset_of_writtenAlike` — the two queries then.
-/

import Mathlib.Data.List.Sort
import Mathlib.Data.String.Basic
import TradePulse.Models.Market

set_option autoImplicit false

namespace TradePulse

namespace Persistence

/-! ### Lowering -/

/-- `LOWER` of the database, for the letters of ASCII. -/
def sqlLower (s : String) : String := String.ofList (s.toList.map Char.toLower)

theorem toLower_toLower (c : Char) : c.toLower.toLower = c.toLower := by
  by_cases h : c.val ≥ 'A'.val ∧ c.val ≤ 'Z'.val
  · have hval : c.toLower.val = c.val + 32 := congrArg Char.val (dif_pos h)
    refine dif_neg fun hagain => ?_
    rw [hval] at hagain
    have h1 : 65 ≤ c.val.toNat := UInt32.le_iff_toNat_le.1 h.1
    have h2 : c.val.toNat ≤ 90 := UInt32.le_iff_toNat_le.1 h.2
    have h3 : (c.val + 32).toNat ≤ 90 := UInt32.le_iff_toNat_le.1 hagain.2
    rw [UInt32.toNat_add] at h3
    simp only [UInt32.reduceToNat] at h3
    omega
  · have hsame : c.toLower = c := dif_neg h
    rw [hsame, hsame]

/-- `str.lower`: on ASCII it is `LOWER`, it takes no account of what `LOWER` did before, what is
lowered stays, and a text that is not blank is not lowered to a blank one. -/
structure StrLower where
  lower : String → String
  ascii : ∀ s, (∀ c ∈ s.toList, c.toNat < 128) → lower s = sqlLower s
  afterSql : ∀ s, lower (sqlLower s) = lower s
  idempotent : ∀ s, lower (lower s) = lower s
  eq_blank : ∀ s, lower s = "" → s = ""

/-- On texts of ASCII `LOWER` itself is such a function. -/
instance : Inhabited StrLower where
  default :=
    { lower := sqlLower
      ascii := fun _ _ => rfl
      afterSql := fun s => by
        simp only [sqlLower, String.toList_ofList, List.map_map, Function.comp_def, toLower_toLower]
      idempotent := fun s => by
        simp only [sqlLower, String.toList_ofList, List.map_map, Function.comp_def, toLower_toLower]
      eq_blank := by
        intro s h
        have hlist := congrArg String.toList h
        simp only [sqlLower, String.toList_ofList] at hlist
        exact String.toList_injective (List.map_eq_nil_iff.1 hlist) }

/-! ### The key -/

/-- `asset.venue or "default"`. -/
def venueOf (asset : AssetIdentity) : String :=
  match asset.venue with
  | some v => if v = "" then "default" else v
  | none => "default"

/-- `asset_identity_key`. -/
def identityKey (str : StrLower) (asset : AssetIdentity) : String :=
  asset.assetClass.value ++ ":" ++ str.lower (venueOf asset) ++ ":" ++ asset.nativeAssetId

/-! ### The queries -/

/-- A row of a table of records with an asset. -/
structure AssetRow where
  recordId : String
  createdAt : Instant
  status : String := ""
  asset : AssetIdentity
  deriving DecidableEq

/-- `COALESCE(venue, 'default')`. -/
def coalescedVenue (asset : AssetIdentity) : String := asset.venue.getD "default"

/-- The `WHERE` of both queries. -/
def matchesAsset (str : StrLower) (asset : AssetIdentity) (row : AssetRow) : Prop :=
  row.asset.assetClass.value = asset.assetClass.value ∧
    sqlLower (coalescedVenue row.asset) = str.lower (venueOf asset) ∧
      row.asset.nativeAssetId = asset.nativeAssetId

instance (str : StrLower) (asset : AssetIdentity) (row : AssetRow) :
    Decidable (matchesAsset str asset row) :=
  inferInstanceAs (Decidable (_ ∧ _ ∧ _))

/-- The rows that a query selects. -/
def selectedByAsset (str : StrLower) (rows : List AssetRow) (asset : AssetIdentity) :
    List AssetRow :=
  rows.filter fun row => matchesAsset str asset row

/-- By time of creation, and then by identifier. -/
def AssetRow.NotAfter (a b : AssetRow) : Prop :=
  a.createdAt < b.createdAt ∨ (a.createdAt = b.createdAt ∧ a.recordId ≤ b.recordId)

instance : DecidableRel AssetRow.NotAfter := fun a b =>
  inferInstanceAs (Decidable (a.createdAt < b.createdAt ∨
    (a.createdAt = b.createdAt ∧ a.recordId ≤ b.recordId)))

/-- The first rows after a cursor. -/
def pageOf (rows : List AssetRow) (limit : ℕ) (after : Option (Instant × String)) :
    List AssetRow :=
  let later := rows.filter fun row =>
    after.all fun (time, id) => time < row.createdAt ∨ (time = row.createdAt ∧ id < row.recordId)
  (later.insertionSort AssetRow.NotAfter).take limit

/-- `list_by_asset`. -/
def listByAsset (str : StrLower) (rows : List AssetRow) (asset : AssetIdentity) (limit : ℕ)
    (after : Option (Instant × String)) : Except Raised (List AssetRow) := do
  raiseIf (limit < 1 ∨ 1000 < limit) (.valueError "limit must be between 1 and 1000")
  return pageOf (selectedByAsset str rows asset) limit after

/-- `exists_with_status_and_asset`. -/
def existsWithStatusAndAsset (str : StrLower) (rows : List AssetRow) (statuses : List String)
    (asset : AssetIdentity) : Except Raised Bool := do
  raiseIf (statuses = []) (.valueError "statuses must not be empty")
  return (selectedByAsset str (rows.filter fun row => row.status ∈ statuses) asset) ≠ []

/-! ### Keys -/

theorem eq_of_append_separator {α : Type} {c : α} {a b r s : List α} (ha : c ∉ a) (hb : c ∉ b)
    (h : a ++ c :: r = b ++ c :: s) : a = b ∧ r = s := by
  induction a generalizing b with
  | nil =>
      cases b with
      | nil => exact ⟨rfl, (List.cons.inj h).2⟩
      | cons y b => exact absurd (List.cons.inj h).1 fun hc => hb (hc ▸ List.mem_cons_self ..)
  | cons x a ih =>
      cases b with
      | nil => exact absurd (List.cons.inj h).1 fun hc => ha (hc ▸ List.mem_cons_self ..)
      | cons y b =>
          obtain ⟨rfl, htail⟩ := List.cons.inj h
          obtain ⟨rfl, hrest⟩ := ih (fun hm => ha (List.mem_cons_of_mem _ hm))
            (fun hm => hb (List.mem_cons_of_mem _ hm)) htail
          exact ⟨rfl, hrest⟩

theorem separator_notMem (c : AssetClass) : ':' ∉ c.value.toList := by
  cases c <;> decide

/-- Assets with one key and one native identifier have one class and one venue, when it is
lowered. -/
theorem identityKey_eq_iff {str : StrLower} {a b : AssetIdentity}
    (hnative : b.nativeAssetId = a.nativeAssetId) :
    identityKey str b = identityKey str a ↔
      b.assetClass.value = a.assetClass.value ∧
        str.lower (venueOf b) = str.lower (venueOf a) := by
  unfold identityKey
  rw [hnative]
  constructor
  · intro h
    have hlist := congrArg String.toList h
    simp only [String.toList_append, List.append_assoc] at hlist
    obtain ⟨hclass, hrest⟩ := eq_of_append_separator (separator_notMem b.assetClass)
      (separator_notMem a.assetClass) hlist
    exact ⟨String.toList_injective hclass, String.toList_injective (List.append_cancel_right hrest)⟩
  · rintro ⟨hclass, hvenue⟩
    rw [hclass, hvenue]

/-- A venue that is not blank is the same for both. -/
theorem coalescedVenue_eq {b : AssetIdentity} (h : b.venue ≠ some "") :
    coalescedVenue b = venueOf b := by
  unfold coalescedVenue venueOf
  cases hv : b.venue with
  | none => rfl
  | some v =>
      have hne : v ≠ "" := fun hblank => h (hv.trans (congrArg some hblank))
      simp [hne]

theorem venueOf_ne_blank (a : AssetIdentity) : venueOf a ≠ "" := by
  unfold venueOf
  split
  · split
    · decide
    · assumption
  · decide

theorem venue_ne_blank_of_selected {str : StrLower} {a : AssetIdentity} {row : AssetRow}
    (h : matchesAsset str a row) : row.asset.venue ≠ some "" := by
  intro hblank
  have hvenue := h.2.1
  rw [show coalescedVenue row.asset = "" by simp [coalescedVenue, hblank]] at hvenue
  exact venueOf_ne_blank a (str.eq_blank _ (hvenue.symm.trans (by decide)))

/-- **A row that is selected has the key.** -/
theorem key_eq_of_selected {str : StrLower} {a : AssetIdentity} {row : AssetRow}
    (h : matchesAsset str a row) : identityKey str row.asset = identityKey str a := by
  obtain ⟨hclass, hvenue, hnative⟩ := h
  refine (identityKey_eq_iff hnative).2 ⟨hclass, ?_⟩
  calc str.lower (venueOf row.asset)
      = str.lower (sqlLower (coalescedVenue row.asset)) := by
        rw [coalescedVenue_eq (venue_ne_blank_of_selected ⟨hclass, hvenue, hnative⟩), str.afterSql]
    _ = str.lower (str.lower (venueOf a)) := by rw [hvenue]
    _ = str.lower (venueOf a) := str.idempotent _

/-- A row with the key of an asset is written as the database expects it: its venue is not blank, its
letters are lowered alike by both, and its native identifier is that of the asset. -/
def WrittenAlike (str : StrLower) (a : AssetIdentity) (row : AssetRow) : Prop :=
  row.asset.venue ≠ some "" ∧
    sqlLower (venueOf row.asset) = str.lower (venueOf row.asset) ∧
      row.asset.nativeAssetId = a.nativeAssetId

/-- A row that has the key is selected exactly if it is written alike. -/
theorem selected_iff_of_key {str : StrLower} {a : AssetIdentity} {row : AssetRow}
    (hkey : identityKey str row.asset = identityKey str a) :
    matchesAsset str a row ↔ WrittenAlike str a row := by
  constructor
  · intro h
    have hblank := venue_ne_blank_of_selected h
    obtain ⟨hclass, hvenue, hnative⟩ := h
    refine ⟨hblank, ?_, hnative⟩
    rw [((identityKey_eq_iff hnative).1 hkey).2, ← hvenue, coalescedVenue_eq hblank]
  · rintro ⟨hblank, hlower, hnative⟩
    obtain ⟨hclass, hvenue⟩ := (identityKey_eq_iff hnative).1 hkey
    refine ⟨hclass, ?_, hnative⟩
    rw [coalescedVenue_eq hblank, hlower, hvenue]

/-- What is selected where every row with the key is written alike. -/
theorem selectedByAsset_of_writtenAlike {str : StrLower} {a : AssetIdentity} {rows : List AssetRow}
    (halike : ∀ row ∈ rows, identityKey str row.asset = identityKey str a →
      WrittenAlike str a row) :
    selectedByAsset str rows a =
      rows.filter fun row => identityKey str row.asset = identityKey str a := by
  refine List.filter_congr fun row hrow => ?_
  rw [decide_eq_decide]
  constructor
  · exact key_eq_of_selected
  · intro hkey
    exact (selected_iff_of_key hkey).2 (halike row hrow hkey)

/-- **The queries select what has the key of an asset if and only if** every row with its key is
written alike. -/
theorem selects_the_key_iff (str : StrLower) (a : AssetIdentity) (rows : List AssetRow) :
    selectedByAsset str rows a =
        rows.filter (fun row => identityKey str row.asset = identityKey str a) ↔
      ∀ row ∈ rows, identityKey str row.asset = identityKey str a → WrittenAlike str a row := by
  refine ⟨fun heq row hrow hkey => ?_, selectedByAsset_of_writtenAlike⟩
  have hmem : row ∈ selectedByAsset str rows a := by
    rw [heq]
    exact List.mem_filter.2 ⟨hrow, by simpa using hkey⟩
  exact (selected_iff_of_key hkey).1 (by simpa using (List.mem_filter.1 hmem).2)

/-- A page of an asset is then a page of the rows with its key. -/
theorem listByAsset_of_writtenAlike {str : StrLower} {a : AssetIdentity} {rows : List AssetRow}
    (halike : ∀ row ∈ rows, identityKey str row.asset = identityKey str a → WrittenAlike str a row)
    {limit : ℕ} (hlimit : 1 ≤ limit ∧ limit ≤ 1000) (after : Option (Instant × String)) :
    listByAsset str rows a limit after =
      .ok (pageOf (rows.filter fun row => identityKey str row.asset = identityKey str a)
        limit after) := by
  have hin : ¬ (limit < 1 ∨ 1000 < limit) := by omega
  unfold listByAsset
  rw [raiseIf, if_neg hin, selectedByAsset_of_writtenAlike halike]
  rfl

/-- A record of an asset in one of some states exists, then, if one with its key does. -/
theorem existsWithStatusAndAsset_of_writtenAlike {str : StrLower} {a : AssetIdentity}
    {rows : List AssetRow} {statuses : List String} (hstatuses : statuses ≠ [])
    (halike : ∀ row ∈ rows, identityKey str row.asset = identityKey str a →
      WrittenAlike str a row) :
    existsWithStatusAndAsset str rows statuses a = .ok true ↔
      ∃ row ∈ rows, row.status ∈ statuses ∧ identityKey str row.asset = identityKey str a := by
  unfold existsWithStatusAndAsset
  rw [raiseIf, if_neg hstatuses, selectedByAsset_of_writtenAlike fun row hrow =>
    halike row (List.mem_of_mem_filter hrow)]
  change Except.ok _ = Except.ok true ↔ _
  simp only [Except.ok.injEq, ne_eq, List.filter_eq_nil_iff, List.mem_filter, decide_eq_true_eq,
    not_forall, not_not, exists_prop]
  exact exists_congr fun row => by rw [and_assoc]

section Runs

/-- A lot whose venue is blank. -/
private def blankVenue : AssetRow where
  recordId := "lot-1"
  createdAt := 0
  asset :=
    { symbol := "AAPL", assetClass := .equity, nativeAssetId := "alpaca:AAPL", venue := some "" }

/-- **The database does not find the lot of an asset with a blank venue**, not even by the asset of
the lot itself. -/
theorem blank_venue_not_selected :
    ∃ a rows, ∀ str : StrLower, selectedByAsset str rows a = [] ∧
      rows.filter (fun row => identityKey str row.asset = identityKey str a) = rows ∧
        rows ≠ [] := by
  refine ⟨blankVenue.asset, [blankVenue], fun str => ⟨?_, ?_, by simp⟩⟩
  · refine List.filter_eq_nil_iff.2 fun row hrow hmatch => ?_
    obtain rfl := List.mem_singleton.1 hrow
    exact venue_ne_blank_of_selected (by simpa using hmatch) rfl
  · refine List.filter_eq_self.2 fun row hrow => ?_
    obtain rfl := List.mem_singleton.1 hrow
    simp

end Runs

end Persistence

end TradePulse
