import TradeIntake.Json.Token

/-!
# JSON values

An object keeps its members in order, repeated names included. `ofTokens?` builds a value from
tokens with a stack of the containers that are still open, so that no depth of nesting is too much;
`tokens` writes them back.

A string literal with an unpaired surrogate, and an object with such a name, become `unreadable`: a
value that may be passed over and from which nothing is read.

Stands for the values of the JSON library that `main` (`src/main.rs`) reads and writes with.
-/

namespace TradeIntake

/-- A JSON value. -/
inductive Json where
  | null
  | bool (value : Bool)
  | number (literal : String)
  | string (text : String)
  | array (items : List Json)
  | object (members : List (String × Json))
  | unreadable
  deriving Inhabited

namespace Json

/-! ## From tokens to a value -/

/-- A container that is still open, with its parts so far, the last one first. -/
inductive Frame where
  | array (items : List Json)
  /-- `readable` is false once a name was not; `name` is that of the member under way. -/
  | object (members : List (String × Json)) (readable : Bool) (name : String)

/-- What a reading expects next; `stack` are the containers around it, the innermost first. -/
inductive Reading where
  | value (stack : List Frame)
  | firstItem (stack : List Frame)
  | firstName (outer : List Frame)
  | name (members : List (String × Json)) (readable : Bool) (outer : List Frame)
  | colon (stack : List Frame)
  | next (stack : List Frame)
  | finished (value : Json)

/-- A whole value has been read. -/
def supply (v : Json) : List Frame → Reading
  | [] => .finished v
  | .array items :: outer => .next (.array (v :: items) :: outer)
  | .object members readable name :: outer =>
    .next (.object ((name, v) :: members) readable name :: outer)

/-- The value that a closed object stands for. -/
def closeObject (members : List (String × Json)) (readable : Bool) : Json :=
  if readable then .object members.reverse else .unreadable

/-- A token that starts a value. -/
def readValue (stack : List Frame) : Token → Option Reading
  | .null => some (supply .null stack)
  | .bool b => some (supply (.bool b) stack)
  | .number literal => some (supply (.number literal) stack)
  | .string (some s) => some (supply (.string s) stack)
  | .string none => some (supply .unreadable stack)
  | .openArray => some (.firstItem (.array [] :: stack))
  | .openObject => some (.firstName stack)
  | _ => none

/-- The name of a member. -/
def readName (members : List (String × Json)) (readable : Bool) (outer : List Frame) :
    Token → Option Reading
  | .string (some s) => some (.colon (.object members readable s :: outer))
  | .string none => some (.colon (.object members false "" :: outer))
  | _ => none

/-- Read one token. -/
def readStep : Reading → Token → Option Reading
  | .value stack, t => readValue stack t
  | .firstItem (.array _ :: outer), .closeArray => some (supply (.array []) outer)
  | .firstItem stack, t => readValue stack t
  | .firstName outer, .closeObject => some (supply (.object []) outer)
  | .firstName outer, t => readName [] true outer t
  | .name members readable outer, t => readName members readable outer t
  | .colon stack, .colon => some (.value stack)
  | .next (.array items :: outer), .comma => some (.value (.array items :: outer))
  | .next (.array items :: outer), .closeArray => some (supply (.array items.reverse) outer)
  | .next (.object members readable _ :: outer), .comma => some (.name members readable outer)
  | .next (.object members readable _ :: outer), .closeObject =>
    some (supply (closeObject members readable) outer)
  | _, _ => none

/-- Read all the tokens. -/
def readFrom : Reading → List Token → Option Json
  | .finished v, [] => some v
  | _, [] => none
  | r, t :: ts => (readStep r t).bind fun r => readFrom r ts

/-- The value that the tokens stand for. -/
def ofTokens? (ts : List Token) : Option Json :=
  readFrom (.value []) ts

/-- The value that a text stands for. -/
def parse? (text : String) : Option Json :=
  (lex text.toList).bind ofTokens?

/-! ## From a value to tokens -/

mutual

/-- The tokens of a value. -/
def tokens : Json → List Token
  | .null => [.null]
  | .bool b => [.bool b]
  | .number literal => [.number literal]
  | .string s => [.string (some s)]
  | .unreadable => [.string none]
  | .array [] => [.openArray, .closeArray]
  | .array (v :: vs) => .openArray :: (v.tokens ++ itemTokens vs)
  | .object [] => [.openObject, .closeObject]
  | .object ((k, v) :: ms) =>
    .openObject :: .string (some k) :: .colon :: (v.tokens ++ memberTokens ms)

/-- The tokens of the items after the first, and the closing bracket. -/
def itemTokens : List Json → List Token
  | [] => [.closeArray]
  | v :: vs => .comma :: (v.tokens ++ itemTokens vs)

/-- The tokens of the members after the first, and the closing brace. -/
def memberTokens : List (String × Json) → List Token
  | [] => [.closeObject]
  | (k, v) :: ms => .comma :: .string (some k) :: .colon :: (v.tokens ++ memberTokens ms)

end

/-- A value as text, without blanks. -/
def write (v : Json) : String :=
  String.ofList (v.tokens.flatMap Token.render)

/-- A natural number as a value. -/
def ofNat (n : Nat) : Json :=
  .number (String.ofList (Text.Decimal.toDigits n))

/-- A text, or null when there is none. -/
def ofText? : Option String → Json
  | some s => .string s
  | none => .null

/-- A natural number, or null when there is none. -/
def ofNat? : Option Nat → Json
  | some n => .ofNat n
  | none => .null

end Json
end TradeIntake
