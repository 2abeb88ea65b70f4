/-!
# Characters and faults of XML

Which characters XML 1.0 admits at all, which ones start and continue a name, and which four are
space. A fault says why a text is no document that this library reads.

Stands for the characters of the tokenizer that `check_depth` (`crates/ingest/src/document.rs`)
runs.
-/

namespace TradeIntake.Xml

/-- Space, tab, line feed or carriage return. -/
def isSpace (c : Char) : Bool :=
  c == ' ' || c == '\t' || c == '\n' || c == '\r'

/-- A character that may stand in a document. -/
def isAllowed (c : Char) : Bool :=
  let n := c.toNat
  if n < 0x20 then n == 0x09 || n == 0x0A || n == 0x0D else n != 0xFFFE && n != 0xFFFF

/-- A character that may start a name. -/
def isNameStart (c : Char) : Bool :=
  let n := c.toNat
  let within (lo hi : Nat) : Bool := lo ≤ n && n ≤ hi
  c.isAlpha || c == ':' || c == '_' || within 0xC0 0xD6 || within 0xD8 0xF6 || within 0xF8 0x2FF ||
    within 0x370 0x37D || within 0x37F 0x1FFF || within 0x200C 0x200D || within 0x2070 0x218F ||
    within 0x2C00 0x2FEF || within 0x3001 0xD7FF || within 0xF900 0xFDCF || within 0xFDF0 0xFFFD ||
    within 0x10000 0xEFFFF

/-- A character that may continue a name. -/
def isNameChar (c : Char) : Bool :=
  let n := c.toNat
  isNameStart c || c.isDigit || c == '-' || c == '.' || n == 0xB7 || (0x300 ≤ n && n ≤ 0x36F) ||
    n == 0x203F || n == 0x2040

/-- Why a text is not read as a document. -/
inductive Fault where
  | expected (what : String)
  | forbiddenCharacter (code : Nat)
  | badName
  | badText
  | badComment
  | doctype
  | misplacedDeclaration
  | badReference
  | unknownEntity (name : String)
  | reservedPrefix (name : String)
  | reservedNamespace (uri : String)
  | unknownPrefix (name : String)
  | repeatedPrefix (name : String)
  | repeatedAttribute (name : String)
  | mismatchedTag (found : String)
  | tooManyNodes
  | noRoot
  | unclosedRoot
  deriving Repr, DecidableEq

/-- The wording of a fault. -/
def Fault.message : Fault → String
  | .expected what => s!"{what} expected"
  | .forbiddenCharacter code => s!"character {code} is not allowed"
  | .badName => "not a name"
  | .badText => "text holds the end of a character data section"
  | .badComment => "a comment holds or ends with a double hyphen"
  | .doctype => "a document type declaration is not accepted"
  | .misplacedDeclaration => "an XML declaration is only accepted at the start"
  | .badReference => "not a reference"
  | .unknownEntity name => s!"unknown entity {name}"
  | .reservedPrefix name => s!"prefix {name} is reserved"
  | .reservedNamespace uri => s!"namespace {uri} is reserved"
  | .unknownPrefix name => s!"unknown prefix {name}"
  | .repeatedPrefix name => s!"prefix {name} is declared twice"
  | .repeatedAttribute name => s!"attribute {name} is given twice"
  | .mismatchedTag found => s!"end tag {found} closes no open element"
  | .tooManyNodes => "the document has too many nodes"
  | .noRoot => "the document has no root element"
  | .unclosedRoot => "the root element is not closed"

end TradeIntake.Xml
