import TradeIntake.Text.Decimal
import TradeIntake.Text.Hex

/-!
# JSON tokens

A JSON text is a run of tokens with blanks between them. `lex` reads it one character at a time,
`render` writes it without blanks. A number keeps its literal, so that no digit is lost. A string
literal stands for a text unless it escapes an unpaired surrogate: such a literal is well formed
and may be skipped, but nothing can be read from it, and its token holds none.

Stands for the lexer of the JSON library that `main` (`src/main.rs`) reads and writes with.
-/

namespace TradeIntake.Json

/-- One token of a JSON text. -/
inductive Token where
  | openArray
  | closeArray
  | openObject
  | closeObject
  | comma
  | colon
  | null
  | bool (value : Bool)
  | number (literal : String)
  | string (text : Option String)
  deriving Repr, DecidableEq

/-! ## Number literals -/

/-- Digits to the end, at least one. -/
def isDigits (cs : List Char) : Bool :=
  !cs.isEmpty && cs.all Char.isDigit

/-- What may follow the mark of an exponent: digits with an optional sign. -/
def isExponent : List Char → Bool
  | '+' :: cs => isDigits cs
  | '-' :: cs => isDigits cs
  | cs => isDigits cs

/-- What may follow the digits before the point. -/
def isTail : List Char → Bool
  | [] => true
  | '.' :: cs =>
    let (fraction, rest) := cs.span Char.isDigit
    !fraction.isEmpty && match rest with
      | [] => true
      | c :: rest => (c == 'e' || c == 'E') && isExponent rest
  | c :: cs => (c == 'e' || c == 'E') && isExponent cs

/-- A number literal without its sign. -/
def isUnsigned : List Char → Bool
  | '0' :: cs => isTail cs
  | cs =>
    let (whole, rest) := cs.span Char.isDigit
    !whole.isEmpty && isTail rest

/-- A number literal: no leading zero, digits on both sides of a point. -/
def isNumber : List Char → Bool
  | '-' :: cs => isUnsigned cs
  | cs => isUnsigned cs

/-! ## String literals -/

/-- A string literal read so far. -/
structure Literal where
  /-- The characters, the last one first. -/
  chars : List Char
  /-- The first half of a surrogate pair, when its second half must follow at once. -/
  high : Option Nat
  /-- Some surrogate stood alone. -/
  unpaired : Bool

/-- Nothing read yet. -/
def Literal.empty : Literal := ⟨[], none, false⟩

/-- A half of a pair that waits for its other half stays alone. -/
def Literal.settle (t : Literal) : Literal :=
  ⟨t.chars, none, t.unpaired || t.high.isSome⟩

/-- Read one character. -/
def Literal.push (t : Literal) (c : Char) : Literal :=
  let t := t.settle
  { t with chars := c :: t.chars }

/-- Read one escaped UTF-16 unit. -/
def Literal.pushUnit (t : Literal) (unit : Nat) : Literal :=
  if 0xDC00 ≤ unit && unit ≤ 0xDFFF then
    match t.high with
    | some high =>
      { t with
        chars := Char.ofNat (0x10000 + (high - 0xD800) * 0x400 + (unit - 0xDC00)) :: t.chars
        high := none }
    | none => { t with unpaired := true }
  else if 0xD800 ≤ unit && unit ≤ 0xDBFF then { t.settle with high := some unit }
  else t.push (Char.ofNat unit)

/-- The token of a literal that has been read to its end. -/
def Literal.token (t : Literal) : Token :=
  let t := t.settle
  .string (if t.unpaired then none else some (String.ofList t.chars.reverse))

/-- The character that a one-letter escape stands for. -/
def unescape? : Char → Option Char
  | '"' => some '"'
  | '\\' => some '\\'
  | '/' => some '/'
  | 'b' => some '\x08'
  | 'f' => some '\x0c'
  | 'n' => some '\n'
  | 'r' => some '\r'
  | 't' => some '\t'
  | _ => none

/-! ## From text to tokens -/

/-- Where the reading of a text stands. -/
inductive Lexing where
  | between
  | word (letters : List Char)
  | number (chars : List Char)
  | literal (t : Literal)
  | escape (t : Literal)
  /-- Inside `\u`: how many digits have come, and their value. -/
  | unit (t : Literal) (digits value : Nat)

/-- The token of a bare word. -/
def wordToken? (letters : List Char) : Option Token :=
  if letters == ['n', 'u', 'l', 'l'] then some .null
  else if letters == ['t', 'r', 'u', 'e'] then some (.bool true)
  else if letters == ['f', 'a', 'l', 's', 'e'] then some (.bool false)
  else none

/-- The token of a number's characters. -/
def numberToken? (chars : List Char) : Option Token :=
  if isNumber chars then some (.number (String.ofList chars)) else none

/-- The token of a punctuation character. -/
def punctuation? : Char → Option Token
  | '[' => some .openArray
  | ']' => some .closeArray
  | '{' => some .openObject
  | '}' => some .closeObject
  | ',' => some .comma
  | ':' => some .colon
  | _ => none

/-- The character may stand in a number literal. -/
def inNumber (c : Char) : Bool :=
  c.isDigit || c == '-' || c == '+' || c == '.' || c == 'e' || c == 'E'

/-- Read a character that starts a token or separates two. -/
def start (c : Char) (acc : List Token) : Option (Lexing × List Token) :=
  if c == ' ' || c == '\n' || c == '\r' || c == '\t' then some (.between, acc)
  else if c == '"' then some (.literal .empty, acc)
  else if c.isDigit || c == '-' then some (.number [c], acc)
  else if c.isAlpha then some (.word [c], acc)
  else (punctuation? c).map fun t => (.between, t :: acc)

/-- Read one character; `acc` holds the tokens so far, the last one first. -/
def lexStep (c : Char) (acc : List Token) : Lexing → Option (Lexing × List Token)
  | .between => start c acc
  | .word letters =>
    if c.isAlpha then some (.word (c :: letters), acc)
    else (wordToken? letters.reverse).bind fun t => start c (t :: acc)
  | .number chars =>
    if inNumber c then some (.number (c :: chars), acc)
    else (numberToken? chars.reverse).bind fun t => start c (t :: acc)
  | .literal t =>
    if c == '"' then some (.between, t.token :: acc)
    else if c == '\\' then some (.escape t, acc)
    else if c.toNat < 0x20 then none
    else some (.literal (t.push c), acc)
  | .escape t =>
    if c == 'u' then some (.unit t 0 0, acc)
    else (unescape? c).map fun d => (.literal (t.push d), acc)
  | .unit t digits value =>
    (Text.Hex.value? c).map fun d =>
      let value := value * 16 + d
      if digits < 3 then (.unit t (digits + 1) value, acc) else (.literal (t.pushUnit value), acc)

/-- Read on to the end of the text. -/
def lexFrom : Lexing → List Char → List Token → Option (List Token)
  | .between, [], acc => some acc.reverse
  | .word letters, [], acc => (wordToken? letters.reverse).map fun t => (t :: acc).reverse
  | .number chars, [], acc => (numberToken? chars.reverse).map fun t => (t :: acc).reverse
  | _, [], _ => none
  | st, c :: cs, acc =>
    match lexStep c acc st with
    | some (st, acc) => lexFrom st cs acc
    | none => none

/-- The tokens of a text. -/
def lex (text : List Char) : Option (List Token) :=
  lexFrom .between text []

/-! ## From tokens to text -/

/-- A character as it stands inside a string literal. -/
def escapeChar (c : Char) : List Char :=
  if c == '"' then ['\\', '"']
  else if c == '\\' then ['\\', '\\']
  else if c == '\n' then ['\\', 'n']
  else if c == '\r' then ['\\', 'r']
  else if c == '\t' then ['\\', 't']
  else if c == '\x08' then ['\\', 'b']
  else if c == '\x0c' then ['\\', 'f']
  else if c.toNat < 0x20 then
    ['\\', 'u', '0', '0', Text.Hex.digit (c.toNat / 16), Text.Hex.digit c.toNat]
  else [c]

/-- The literal of a text. -/
def quote (s : String) : List Char :=
  '"' :: s.toList.flatMap escapeChar ++ ['"']

/-- A token as text. -/
def Token.render : Token → List Char
  | .openArray => ['[']
  | .closeArray => [']']
  | .openObject => ['{']
  | .closeObject => ['}']
  | .comma => [',']
  | .colon => [':']
  | .null => ['n', 'u', 'l', 'l']
  | .bool true => ['t', 'r', 'u', 'e']
  | .bool false => ['f', 'a', 'l', 's', 'e']
  | .number literal => literal.toList
  | .string (some s) => quote s
  | .string none => ['"', '\\', 'u', 'd', '8', '0', '0', '"']

end TradeIntake.Json
