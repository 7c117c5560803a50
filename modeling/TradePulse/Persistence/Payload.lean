/-
**Payloads: the values inside a stored record.**

A record is stored as an object with one field for each field of its dataclass; nested records,
enumerations, decimals and times are written in the same way wherever they occur.  Reading names
each field of the object and reads it, with a default where one is given.

Main definitions:

* `decimalJson`, `dateJson`, `enumJson`, `optionJson`, `assetJson` — what is written;
* `text`, `decimal`, `datetime`, `member`, `orNone`, `mapping` — how a value is read;
* `read`, `readOr` — a field of an object;
* `assetIdentity` — an instrument.

Main results:

* `decimal_decimalJson`, `datetime_dateJson`, `member_enumJson`, `orNone_optionJson`,
  `mapping_toJson` — **what is written is read back**;
* `assetIdentity_encode` — an instrument is read back, but without the multiplier that it was built
  with.
-/

import TradePulse.Models.Stored

set_option autoImplicit false

namespace TradePulse

open Encoding

namespace Stored

/-! ### Enumerations -/

/-- An enumeration whose members have texts. -/
class StrEnum (α : Type) where
  members : List α
  value : α → String
  mem_members : ∀ a, a ∈ members
  value_injective : Function.Injective value

instance : StrEnum AssetClass where
  members := [.equity, .crypto, .option, .forex, .commodity, .fixedIncome]
  value := AssetClass.value
  mem_members a := by cases a <;> decide
  value_injective a b h := by cases a <;> cases b <;> first | rfl | exact absurd h (by decide)

instance : StrEnum Side where
  members := [.buy, .sell]
  value := Side.value
  mem_members a := by cases a <;> decide
  value_injective a b h := by cases a <;> cases b <;> first | rfl | exact absurd h (by decide)

instance : StrEnum ExecutionMode where
  members := [.paper, .live]
  value := ExecutionMode.value
  mem_members a := by cases a <;> decide
  value_injective a b h := by cases a <;> cases b <;> first | rfl | exact absurd h (by decide)

instance : StrEnum SettlementStatus where
  members := [.pending, .processing, .completed, .retryableFailed, .terminalFailed,
    .integrityBlocked]
  value := SettlementStatus.value
  mem_members a := by cases a <;> decide
  value_injective a b h := by cases a <;> cases b <;> first | rfl | exact absurd h (by decide)

instance : StrEnum IntegrityHoldType where
  members := [.verificationPending, .fillQuantityDisputed, .shortExposure, .mixedLotOrigin]
  value := IntegrityHoldType.value
  mem_members a := by cases a <;> decide
  value_injective a b h := by cases a <;> cases b <;> first | rfl | exact absurd h (by decide)

instance : StrEnum TradeIntentStatus where
  members := [.proposed, .riskApproved, .submitted, .accepted, .partiallyFilled, .filled,
    .rejected, .canceled, .expired, .failed, .submissionUnknown]
  value := TradeIntentStatus.value
  mem_members a := by cases a <;> decide
  value_injective a b h := by cases a <;> cases b <;> first | rfl | exact absurd h (by decide)

instance : StrEnum PositionSide where
  members := [.long, .short]
  value := PositionSide.value
  mem_members a := by cases a <;> decide
  value_injective a b h := by cases a <;> cases b <;> first | rfl | exact absurd h (by decide)

/-! ### The leaves of a payload -/

def decimalJson (d : Decimal) : Json := .str (decimalText d)

def dateJson (t : DateTime) : Json := .str (String.ofList t.isoformat)

def enumJson {α : Type} [StrEnum α] (a : α) : Json := .str (StrEnum.value a)

/-- A value, or null when there is none. -/
def optionJson {α : Type} (f : α → Json) (x : Option α) : Json := x.elim .null f

def text : Json → Except Raised String
  | .str s => .ok s
  | _ => .error ⟨.other, "a text is expected"⟩

/-- `_decimal`. -/
def decimal : Json → Except Raised Decimal
  | .str s =>
      match Decimal.parse s.toList with
      | some d => .ok d
      | none => .error ⟨.other, "InvalidOperation"⟩
  | .int n => .ok ⟨decide (n < 0), n.natAbs, 0⟩
  | _ => .error ⟨.other, "InvalidOperation"⟩

/-- `_datetime`. -/
def datetime : Json → Except Raised DateTime
  | .str s =>
      match fromisoformat s.toList with
      | some t => .ok t
      | none => .error (.valueError "timestamp: mandatory aware timestamp invalid")
  | _ => .error (.valueError "timestamp: mandatory aware timestamp invalid")

/-- The member of an enumeration with a text. -/
def member {α : Type} [StrEnum α] : Json → Except Raised α
  | .str s =>
      match StrEnum.members.find? fun a : α => StrEnum.value a == s with
      | some a => .ok a
      | none => .error (.valueError (s ++ " is not a valid value"))
  | _ => .error (.valueError "not a valid value")

def flag : Json → Except Raised Bool
  | .bool b => .ok b
  | _ => .error ⟨.other, "a flag is expected"⟩

/-- `bool(value)`, of a value that is a flag or missing. -/
def truth : Json → Except Raised Bool
  | .null => .ok false
  | v => flag v

def number : Json → Except Raised ℚ
  | .num q => .ok q
  | .int n => .ok n
  | _ => .error ⟨.other, "a number is expected"⟩

def integer : Json → Except Raised ℤ
  | .int n => .ok n
  | _ => .error ⟨.other, "an integer is expected"⟩

/-- `_decimal_or_none`, `_datetime_or_none`, and the same for the others. -/
def orNone {α : Type} (f : Json → Except Raised α) : Json → Except Raised (Option α)
  | .null => .ok none
  | v => (f v).map some

/-- `{k: f(v) for k, v in (value or {}).items()}`. -/
def mapping {α : Type} (f : Json → Except Raised α) : Json → Except Raised (Mapping α)
  | .null => .ok .empty
  | v =>
      match Mapping.ofJson (fun x => (f x).toOption) v with
      | some m => .ok m
      | none => .error ⟨.other, "an object is expected"⟩

/-- `d[key]`. -/
def read {α : Type} (key : String) (f : Json → Except Raised α) (d : Json) : Except Raised α :=
  match d.get? key with
  | some v => f v
  | none => .error ⟨.other, "KeyError: " ++ key⟩

/-- `d.get(key, default)`. -/
def readOr {α : Type} (key : String) (default : Json) (f : Json → Except Raised α) (d : Json) :
    Except Raised α :=
  f ((d.get? key).getD default)

/-! ### The leaves are read back -/

/-- What is written is read back, and is not null. -/
structure ReadBack {α : Type} (write : α → Json) (f : Json → Except Raised α) : Prop where
  back : ∀ a, f (write a) = .ok a
  ne_null : ∀ a, write a ≠ .null

@[simp] theorem text_str (s : String) : text (.str s) = .ok s := rfl

@[simp] theorem flag_bool (b : Bool) : flag (.bool b) = .ok b := rfl

@[simp] theorem truth_bool (b : Bool) : truth (.bool b) = .ok b := rfl

@[simp] theorem integer_int (n : ℤ) : integer (.int n) = .ok n := rfl

theorem readBack_text : ReadBack Json.str text := ⟨fun _ => rfl, fun _ h => by cases h⟩

@[simp] theorem decimal_decimalJson (d : Decimal) : decimal (decimalJson d) = .ok d := by
  simp only [decimal, decimalJson, decimalText, String.toList_ofList, Decimal.parse_toSciString]

theorem readBack_decimal : ReadBack decimalJson decimal :=
  ⟨decimal_decimalJson, fun _ h => by cases h⟩

@[simp] theorem datetime_dateJson (t : DateTime) : datetime (dateJson t) = .ok t := by
  simp only [datetime, dateJson, String.toList_ofList, fromisoformat_isoformat]

theorem readBack_datetime : ReadBack dateJson datetime :=
  ⟨datetime_dateJson, fun _ h => by cases h⟩

@[simp] theorem member_enumJson {α : Type} [StrEnum α] (a : α) : member (enumJson a) = .ok a := by
  have hfind : (StrEnum.members.find? fun b : α => StrEnum.value b == StrEnum.value a) =
      some a := by
    cases h : StrEnum.members.find? fun b : α => StrEnum.value b == StrEnum.value a with
    | none =>
        have := List.find?_eq_none.1 h a (StrEnum.mem_members a)
        exact absurd (beq_self_eq_true _) this
    | some b =>
        have hvalue := List.find?_some h
        rw [StrEnum.value_injective (eq_of_beq hvalue)]
  simp only [member, enumJson, hfind]

theorem readBack_number : ReadBack Json.num number := ⟨fun _ => rfl, fun _ h => by cases h⟩

theorem orNone_optionJson {α : Type} {write : α → Json} {f : Json → Except Raised α}
    (h : ReadBack write f) (x : Option α) : orNone f (optionJson write x) = .ok x := by
  cases x with
  | none => rfl
  | some a =>
      have hsome : orNone f (write a) = (f (write a)).map some := by
        have := h.ne_null a
        unfold orNone
        split
        · rename_i heq
          exact absurd heq this
        · rfl
      rw [optionJson, Option.elim_some, hsome, h.back]
      rfl

@[simp] theorem orNone_text (x : Option String) : orNone text (optionJson .str x) = .ok x :=
  orNone_optionJson readBack_text x

@[simp] theorem orNone_decimal (x : Option Decimal) :
    orNone decimal (optionJson decimalJson x) = .ok x :=
  orNone_optionJson readBack_decimal x

@[simp] theorem orNone_datetime (x : Option DateTime) :
    orNone datetime (optionJson dateJson x) = .ok x :=
  orNone_optionJson readBack_datetime x

@[simp] theorem orNone_number (x : Option ℚ) : orNone number (optionJson .num x) = .ok x :=
  orNone_optionJson readBack_number x

theorem mapping_toJson {α : Type} {write : α → Json} {f : Json → Except Raised α}
    (h : ∀ a, f (write a) = .ok a) (m : Mapping α) : mapping f (m.toJson write) = .ok m := by
  have hback := Mapping.ofJson_toJson (f := write) (g := fun x => (f x).toOption)
    (fun a => by rw [h]; rfl) m
  unfold mapping
  split
  · rename_i heq
    exact absurd heq (by simp [Mapping.toJson])
  · rw [hback]

@[simp] theorem mapping_text (m : Mapping String) : mapping text (m.toJson .str) = .ok m :=
  mapping_toJson text_str m

@[simp] theorem mapping_decimal (m : Mapping Decimal) :
    mapping decimal (m.toJson decimalJson) = .ok m :=
  mapping_toJson decimal_decimalJson m

@[simp] theorem mapping_free (m : Mapping Json) : mapping .ok (m.toJson id) = .ok m :=
  mapping_toJson (fun _ => rfl) m

@[simp] theorem ok_bind {α β : Type} (a : α) (f : α → Except Raised β) :
    ((Except.ok a : Except Raised α) >>= f) = f a := rfl

/-! ### Instruments -/

def multiplierJson : Multiplier → Json
  | .decimal d => decimalJson d
  | .text s => .str s
  | .int n => .int n

/-- The fields of an instrument. -/
def assetFields (a : AssetIdentity) : List (String × Json) :=
  [ ("symbol", .str a.symbol),
    ("asset_class", enumJson a.assetClass),
    ("native_asset_id", .str a.nativeAssetId),
    ("venue", optionJson .str a.venue),
    ("metadata", a.metadata.toJson .str),
    ("contract_multiplier", optionJson multiplierJson a.contractMultiplier) ]

def assetJson (a : AssetIdentity) : Json := Json.object (assetFields a)

/-- `_asset_identity`. -/
def assetIdentity (str : StrMethods) (d : Json) : Except Raised AssetIdentity := do
  let symbol ← read "symbol" text d
  let assetClass ← read "asset_class" member d
  let nativeAssetId ← read "native_asset_id" text d
  let venue ← readOr "venue" .null (orNone text) d
  let metadata ← readOr "metadata" .null (mapping text) d
  build str
    { symbol := symbol
      assetClass := assetClass
      nativeAssetId := nativeAssetId
      venue := venue
      metadata := metadata }

/-- The instrument without the multiplier it was built with. -/
def AssetIdentity.reread (a : AssetIdentity) : AssetIdentity := { a with contractMultiplier := none }

theorem get?_assetJson (a : AssetIdentity) (key : String) :
    (assetJson a).get? key = (assetFields a).lookup key := by
  refine Json.get?_object ?_ key
  simp only [assetFields, List.map_cons, List.map_nil]
  decide

theorem built_reread {str : StrMethods} {a : AssetIdentity} (h : Built str a) :
    Built str a.reread := by
  obtain ⟨hnormal, hsound⟩ := (built_iff str).1 h
  refine (built_iff str).2 ⟨?_, ?_⟩
  · have hsymbol := congrArg AssetIdentity.symbol hnormal
    have hnative := congrArg AssetIdentity.nativeAssetId hnormal
    change AssetIdentity.mk (str.upper (str.strip a.symbol)) _ (str.strip a.nativeAssetId) _ _ _ = _
    change str.upper (str.strip a.symbol) = a.symbol at hsymbol
    change str.strip a.nativeAssetId = a.nativeAssetId at hnative
    rw [hsymbol, hnative]
    rfl
  · intro c hc
    change c ∈ AssetIdentity.checks str a.reread at hc
    simp only [AssetIdentity.checks, AssetIdentity.reread, Option.all_none, List.mem_cons,
      List.not_mem_nil, or_false] at hc
    rcases hc with rfl | rfl | rfl | rfl
    · exact hsound _ List.mem_cons_self
    · exact hsound _ (List.mem_cons_of_mem _ List.mem_cons_self)
    · rfl
    · rfl

/-- **An instrument is read back without the multiplier it was built with.** -/
theorem assetIdentity_encode {str : StrMethods} {a : AssetIdentity} (h : Built str a) :
    assetIdentity str (assetJson a) = .ok a.reread := by
  have hbuild := build_of_built str (built_reread h)
  simp only [AssetIdentity.reread] at hbuild
  simp [assetIdentity, read, readOr, get?_assetJson, assetFields, List.lookup_cons, hbuild,
    AssetIdentity.reread]

end Stored

end TradePulse
