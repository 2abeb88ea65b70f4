import TradeIntake.Text.Decimal
import TradeIntake.Text.Hex
import TradeIntake.Xml.Character

/-!
# Character data

What the characters between tags and in attribute values stand for. A reference stands for one
character: five named ones, and any number that fits in 32 bits, where a number that is no character
stands for U+FFFD. Line ends of the text become line feeds, and white space in an attribute becomes
spaces; a referenced character is kept as it is, and so is the one right after it.

Stands for the texts of the tree that `parse_xml` (`crates/ingest/src/document.rs`) has built.

* **`resolve_named`**: what the five names stand for.
-/

namespace TradeIntake.Xml

open TradeIntake.Text

/-- The character with that number, or U+FFFD. -/
def scalar (n : Nat) : Char :=
  if n < 0xD800 || (0xDFFF < n && n < 0x110000) then Char.ofNat n else '\uFFFD'

/-- The number of a character reference. -/
def referenceNumber? : List Char → Option Nat
  | 'x' :: digits => Hex.ofDigits? digits
  | digits => Decimal.ofDigits? digits

/-- The character that a reference stands for, of which `body` lies between the marks. -/
def resolve (body : List Char) : Except Fault Char :=
  match body with
  | '#' :: digits =>
    match (referenceNumber? digits).filter (Decimal.fits 32) with
    | some n => if isAllowed (scalar n) then .ok (scalar n) else .error .badReference
    | none => .error .badReference
  | c :: _ =>
    let name := String.ofList body
    if name == "lt" then .ok '<'
    else if name == "gt" then .ok '>'
    else if name == "amp" then .ok '&'
    else if name == "apos" then .ok '\''
    else if name == "quot" then .ok '"'
    else if isNameStart c && body.all isNameChar then .error (.unknownEntity name)
    else .error .badReference
  | [] => .error .badReference

theorem resolve_named :
    ["lt", "gt", "amp", "apos", "quot"].map (fun n => (resolve n.toList).toOption) =
      [some '<', some '>', some '&', some '\'', some '"'] := by
  decide +kernel

/-- Add a character to a text read so far, last character first; a carriage return becomes a line
feed when it is seen that no line feed follows, or vanishes in front of one. -/
def pushLine (last : Bool) (c : Char) : List Char → List Char
  | '\r' :: acc =>
    if last && c == '\r' then '\n' :: '\n' :: acc
    else if c == '\n' then '\n' :: acc
    else c :: '\n' :: acc
  | acc => if last && c == '\r' then '\n' :: acc else c :: acc

/-- The text of a character data section. -/
def cdataFrom : List Char → List Char → List Char
  | [], acc => acc.reverse
  | c :: cs, acc => cdataFrom cs (pushLine cs.isEmpty c acc)

/-- The text of a character data section. -/
def cdataText (cs : List Char) : List Char :=
  cdataFrom cs []

/-- Where the reading of a text stands. -/
inductive Run where
  /-- Outside references; the next character is kept as it is when `asIs`. -/
  | plain (asIs : Bool)
  /-- Inside a reference, with its characters so far, the last one first. -/
  | reference (body : List Char)

/-- Read on to the end of a text between tags. -/
def textFrom : Run → List Char → List Char → Except Fault (List Char)
  | .plain _, [], acc => .ok acc.reverse
  | .reference _, [], _ => .error .badReference
  | .plain asIs, c :: cs, acc =>
    if c == '&' then textFrom (.reference []) cs acc
    else if asIs then textFrom (.plain false) cs (c :: acc)
    else textFrom (.plain false) cs (pushLine cs.isEmpty c acc)
  | .reference body, c :: cs, acc =>
    if c == ';' then
      match resolve body.reverse with
      | .ok d => textFrom (.plain true) cs (d :: acc)
      | .error fault => .error fault
    else textFrom (.reference (c :: body)) cs acc

/-- The text between tags. -/
def textValue (cs : List Char) : Except Fault (List Char) :=
  textFrom (.plain false) cs []

/-- Read on to the end of an attribute value. -/
def attributeFrom : Run → List Char → List Char → Except Fault (List Char)
  | .plain _, [], acc => .ok acc.reverse
  | .reference _, [], _ => .error .badReference
  | .plain _, c :: cs, acc =>
    if c == '&' then attributeFrom (.reference []) cs acc
    else if c == '\r' && cs.head? == some '\n' then attributeFrom (.plain false) cs acc
    else if c == '\n' || c == '\r' || c == '\t' then attributeFrom (.plain false) cs (' ' :: acc)
    else attributeFrom (.plain false) cs (c :: acc)
  | .reference body, c :: cs, acc =>
    if c == ';' then
      match resolve body.reverse with
      | .ok d => attributeFrom (.plain false) cs (d :: acc)
      | .error fault => .error fault
    else attributeFrom (.reference (c :: body)) cs acc

/-- The value of an attribute. -/
def attributeText (cs : List Char) : Except Fault (List Char) :=
  attributeFrom (.plain false) cs []

end TradeIntake.Xml
