import TradeIntake.Spelling

/-!
# Document types

The root elements that a message may have. A type carries the name of its element, a description,
and whether its documents must hold a trade.

Model of `DocumentType` (`crates/registry/src/document_type.rs`), whose table of descriptors is
spread over `elementName`, `description` and `requiresTrade`, and of the lookups of
`crates/registry/src/lib.rs`: `is_supported`, `all_element_names`, `trade_required_types` and
`supported_types_string`.

* **`ofElementName?_eq_some_iff`**: a name resolves to a type exactly when it is that type's name.
* **`elementName_injective`**: no two types share a name.
-/

namespace TradeIntake

/-- A supported root element. -/
inductive DocumentType where
  | dataDocument
  | fpml
  | requestConfirmation
  | confirmationAgreed
  | executionNotification
  | executionRetracted
  | dealStatement
  | outstandingContractsStatement
  | facilityPositionStatement
  | facilityStatement
  | loanPartyProfileStatement
  | loanLegalActionStatement
  | facilityNotification
  | lcNotification
  | loanAllocationNotification
  | loanBulkServicingNotification
  | loanContractNotification
  | loanCovenantObligationNotification
  | loanLegalActionNotification
  | loanTradeNotification
  | loanNotificationAcknowledgement
  | loanNotificationException
  | loanNotificationRetracted
  | requestClearing
  deriving Repr, DecidableEq

namespace DocumentType

/-- Every type, in the order of declaration. -/
def all : List DocumentType := [
  .dataDocument, .fpml, .requestConfirmation, .confirmationAgreed, .executionNotification,
  .executionRetracted, .dealStatement, .outstandingContractsStatement, .facilityPositionStatement,
  .facilityStatement, .loanPartyProfileStatement, .loanLegalActionStatement, .facilityNotification,
  .lcNotification, .loanAllocationNotification, .loanBulkServicingNotification,
  .loanContractNotification, .loanCovenantObligationNotification, .loanLegalActionNotification,
  .loanTradeNotification, .loanNotificationAcknowledgement, .loanNotificationException,
  .loanNotificationRetracted, .requestClearing]

/-- The local name of the root element. -/
def elementName : DocumentType → String
  | dataDocument => "dataDocument"
  | fpml => "FpML"
  | requestConfirmation => "requestConfirmation"
  | confirmationAgreed => "confirmationAgreed"
  | executionNotification => "executionNotification"
  | executionRetracted => "executionRetracted"
  | dealStatement => "dealStatement"
  | outstandingContractsStatement => "outstandingContractsStatement"
  | facilityPositionStatement => "facilityPositionStatement"
  | facilityStatement => "facilityStatement"
  | loanPartyProfileStatement => "loanPartyProfileStatement"
  | loanLegalActionStatement => "loanLegalActionStatement"
  | facilityNotification => "facilityNotification"
  | lcNotification => "lcNotification"
  | loanAllocationNotification => "loanAllocationNotification"
  | loanBulkServicingNotification => "loanBulkServicingNotification"
  | loanContractNotification => "loanContractNotification"
  | loanCovenantObligationNotification => "loanCovenantObligationNotification"
  | loanLegalActionNotification => "loanLegalActionNotification"
  | loanTradeNotification => "loanTradeNotification"
  | loanNotificationAcknowledgement => "loanNotificationAcknowledgement"
  | loanNotificationException => "loanNotificationException"
  | loanNotificationRetracted => "loanNotificationRetracted"
  | requestClearing => "requestClearing"

/-- What documents of the type are. -/
def description : DocumentType → String
  | dataDocument => "Standard FpML data document"
  | fpml => "Generic FpML root element"
  | requestConfirmation => "Request for trade confirmation"
  | confirmationAgreed => "Confirmation agreement"
  | executionNotification => "Trade execution notification"
  | executionRetracted => "Retraction of trade execution"
  | dealStatement => "Deal statement document"
  | outstandingContractsStatement => "Outstanding contracts statement"
  | facilityPositionStatement => "Facility position statement"
  | facilityStatement => "Facility statement"
  | loanPartyProfileStatement => "Loan party profile statement"
  | loanLegalActionStatement => "Loan legal action statement"
  | facilityNotification => "Facility notification"
  | lcNotification => "Letter of credit notification"
  | loanAllocationNotification => "Loan allocation notification"
  | loanBulkServicingNotification => "Loan bulk servicing notification"
  | loanContractNotification => "Loan contract notification"
  | loanCovenantObligationNotification => "Loan covenant obligation notification"
  | loanLegalActionNotification => "Loan legal action notification"
  | loanTradeNotification => "Loan trade notification"
  | loanNotificationAcknowledgement => "Loan notification acknowledgement"
  | loanNotificationException => "Loan notification exception"
  | loanNotificationRetracted => "Loan notification retraction"
  | requestClearing => "Request for clearing"

/-- Documents of the type must hold a trade. -/
def requiresTrade : DocumentType → Bool
  | dataDocument | fpml | requestConfirmation | confirmationAgreed | executionNotification
  | executionRetracted | requestClearing => true
  | _ => false

/-- The names of all types in their order, with commas between. -/
def supportedNames : String :=
  ", ".intercalate (all.map elementName)

/-- The names of all types, sorted. -/
def sortedNames : List String :=
  (all.map elementName).mergeSort fun s t => decide (s ≤ t)

/-- The types whose documents must hold a trade, in their order. -/
def tradeRequired : List DocumentType :=
  all.filter requiresTrade

/-- The place of a type in the order of declaration, from zero. -/
def index (t : DocumentType) : Nat :=
  all.idxOf t

theorem mem_all (t : DocumentType) : t ∈ all := by
  cases t <;> decide

theorem elementName_injective {s t : DocumentType} (h : s.elementName = t.elementName) :
    s = t := by
  have key : ∀ s ∈ all, ∀ t ∈ all, s.elementName = t.elementName → s = t := by decide
  exact key s (mem_all s) t (mem_all t) h

/-- A type is written as the name of its element. -/
def spelling : Spelling DocumentType :=
  ⟨all, elementName, mem_all, fun _ _ => elementName_injective⟩

/-- The type whose root element has that name; case matters. -/
def ofElementName? (name : String) : Option DocumentType :=
  spelling.read? name

/-- The name is that of a type. -/
def isSupported (name : String) : Bool :=
  (ofElementName? name).isSome

theorem ofElementName?_eq_some_iff {name : String} {t : DocumentType} :
    ofElementName? name = some t ↔ t.elementName = name :=
  Spelling.read?_eq_some_iff

end DocumentType
end TradeIntake
