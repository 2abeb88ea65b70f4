import TradeIntake.Json.Read

/-!
# Trade data

The facts of a trade: nine values, each of which a document may lack, and the counterparties.

Model of `TradeField` (`crates/extract/src/fields.rs`) and of `crates/extract/src/types.rs`:
`ExtractedTradeData`, `CounterpartyInfo`, `CounterpartyRole` as `Role`, and `TradingCapacity`.

* **`get?_set`**: a value that is put into a field changes that field only.
* **`ofJson?_toJson`**: trade data reads back from its JSON.
-/

namespace TradeIntake

/-- One of the nine values of a trade. -/
inductive TradeField where
  | tradeId
  | uti
  | usi
  | tradeDate
  | effectiveDate
  | maturityDate
  | notionalAmount
  | currency
  | productType
  deriving Repr, DecidableEq

namespace TradeField

/-- Every field, in its order. -/
def all : List TradeField := [
  .tradeId, .uti, .usi, .tradeDate, .effectiveDate, .maturityDate, .notionalAmount, .currency,
  .productType]

/-- The name of a field. -/
def name : TradeField → String
  | tradeId => "tradeId"
  | uti => "uti"
  | usi => "usi"
  | tradeDate => "tradeDate"
  | effectiveDate => "effectiveDate"
  | maturityDate => "maturityDate"
  | notionalAmount => "notionalAmount"
  | currency => "currency"
  | productType => "productType"

end TradeField

/-- The side of a trade that a counterparty is on. -/
inductive Role where
  | partyA
  | partyB
  deriving Repr, DecidableEq

/-- Roles as words. -/
def Role.spelling : Spelling Role where
  all := [.partyA, .partyB]
  word
    | .partyA => "PARTY_A"
    | .partyB => "PARTY_B"
  mem_all r := by cases r <;> decide
  word_injective r s h := by cases r <;> cases s <;> first | rfl | exact absurd h (by decide)

/-- In what capacity a counterparty trades. -/
inductive TradingCapacity where
  | principal
  deriving Repr, DecidableEq

/-- Capacities as words. -/
def TradingCapacity.spelling : Spelling TradingCapacity where
  all := [.principal]
  word _ := "PRINCIPAL"
  mem_all c := by cases c; decide
  word_injective _ _ _ := rfl

/-- A counterparty of a trade. -/
structure Counterparty where
  /-- The legal entity identifier. -/
  lei : String
  role : Role
  tradingCapacity : TradingCapacity
  deriving Repr, DecidableEq

namespace Counterparty

/-- The names of the fields. -/
def fieldNames : List String := ["lei", "role", "tradingCapacity"]

/-- Read a counterparty. -/
def ofJson? (v : Json) : Option Counterparty :=
  match Json.fields? fieldNames v with
  | some [lei, role, tradingCapacity] => do
    return {
      lei := ← Field.required Json.text? lei
      role := ← Field.required (Json.spelled? Role.spelling) role
      tradingCapacity :=
        ← Field.required (Json.spelled? TradingCapacity.spelling) tradingCapacity }
  | _ => none

/-- The fields with their values. -/
def fields (c : Counterparty) : List (String × Option Json) := [
  ("lei", some (.string c.lei)),
  ("role", some (.ofSpelling Role.spelling c.role)),
  ("tradingCapacity", some (.ofSpelling TradingCapacity.spelling c.tradingCapacity))]

/-- The counterparty as JSON. -/
def toJson (c : Counterparty) : Json := .record c.fields

theorem ofJson?_toJson (c : Counterparty) : ofJson? c.toJson = some c := by
  have h : Json.fields? fieldNames c.toJson = some (c.fields.map (·.2)) :=
    Json.fields?_record rfl (by decide)
  simp [ofJson?, h, fields]

end Counterparty

/-- The facts of a trade. -/
structure TradeData where
  tradeId? : Option String := none
  uti? : Option String := none
  usi? : Option String := none
  tradeDate? : Option String := none
  effectiveDate? : Option String := none
  maturityDate? : Option String := none
  notionalAmount? : Option String := none
  currency? : Option String := none
  productType? : Option String := none
  counterparties : List Counterparty := []
  deriving Repr, DecidableEq

namespace TradeData

/-- The value of a field. -/
def get? (d : TradeData) : TradeField → Option String
  | .tradeId => d.tradeId?
  | .uti => d.uti?
  | .usi => d.usi?
  | .tradeDate => d.tradeDate?
  | .effectiveDate => d.effectiveDate?
  | .maturityDate => d.maturityDate?
  | .notionalAmount => d.notionalAmount?
  | .currency => d.currency?
  | .productType => d.productType?

/-- Put a value, or none, into a field. -/
def set (d : TradeData) (value? : Option String) : TradeField → TradeData
  | .tradeId => { d with tradeId? := value? }
  | .uti => { d with uti? := value? }
  | .usi => { d with usi? := value? }
  | .tradeDate => { d with tradeDate? := value? }
  | .effectiveDate => { d with effectiveDate? := value? }
  | .maturityDate => { d with maturityDate? := value? }
  | .notionalAmount => { d with notionalAmount? := value? }
  | .currency => { d with currency? := value? }
  | .productType => { d with productType? := value? }

@[simp] theorem get?_set (d : TradeData) (value? : Option String) (f g : TradeField) :
    (d.set value? f).get? g = if g = f then value? else d.get? g := by
  cases f <;> cases g <;> rfl

/-- How many fields have a value. -/
def populated (d : TradeData) : Nat :=
  TradeField.all.countP fun f => (d.get? f).isSome

/-- The names of the fields. -/
def fieldNames : List String :=
  TradeField.all.map TradeField.name ++ ["counterparties"]

/-- Read trade data. -/
def ofJson? (v : Json) : Option TradeData :=
  match Json.fields? fieldNames v with
  | some [tradeId, uti, usi, tradeDate, effectiveDate, maturityDate, notionalAmount, currency,
      productType, counterparties] => do
    return {
      tradeId? := ← Json.optional? Json.text? tradeId
      uti? := ← Json.optional? Json.text? uti
      usi? := ← Json.optional? Json.text? usi
      tradeDate? := ← Json.optional? Json.text? tradeDate
      effectiveDate? := ← Json.optional? Json.text? effectiveDate
      maturityDate? := ← Json.optional? Json.text? maturityDate
      notionalAmount? := ← Json.optional? Json.text? notionalAmount
      currency? := ← Json.optional? Json.text? currency
      productType? := ← Json.optional? Json.text? productType
      counterparties := ← Json.listOrEmpty? Counterparty.ofJson? counterparties }
  | _ => none

/-- The fields with their values. -/
def fields (d : TradeData) : List (String × Option Json) :=
  TradeField.all.map (fun f => (f.name, (d.get? f).map .string)) ++
    [("counterparties", some (.array (d.counterparties.map Counterparty.toJson)))]

/-- Trade data as JSON. -/
def toJson (d : TradeData) : Json := .record d.fields

theorem ofJson?_toJson (d : TradeData) : ofJson? d.toJson = some d := by
  have h : Json.fields? fieldNames d.toJson = some (d.fields.map (·.2)) :=
    Json.fields?_record rfl (by decide)
  have hc : Json.listOrEmpty? Counterparty.ofJson?
      (some (.array (d.counterparties.map Counterparty.toJson))) = some d.counterparties :=
    Json.listOrEmpty?_map fun c _ => Counterparty.ofJson?_toJson c
  simp [ofJson?, h, fields, TradeField.all, get?, hc]

end TradeData
end TradeIntake
