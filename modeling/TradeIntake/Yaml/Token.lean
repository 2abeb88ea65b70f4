import TradeIntake.Text.Decimal
import TradeIntake.Yaml.Scalar

/-!
# YAML tokens

`scan` cuts a text into tokens. Block collections have no brackets in the text; their tokens come
from the columns in which entries start. A key needs no mark in front of it, so that a scalar, an
alias or a collection may turn out to be one only when the colon behind it comes: the scanner keeps
the place of each such *candidate* and puts the tokens of the key there later. A candidate that
starts an entry of the block mapping around it must turn out to be a key.

A byte order mark may start any line; it takes up a column.

Stands for the scanner behind `from_yaml` (`src/config.rs`).
-/

namespace TradeIntake.Yaml

/-- One token of a YAML text. -/
inductive Token where
  | version (major minor : Nat)
  | tagHandle (handle : List Char) (uri : List UInt8)
  | documentStart
  | documentEnd
  | blockSequence
  | blockMapping
  | blockEnd
  | flowSequence
  | flowSequenceEnd
  | flowMapping
  | flowMappingEnd
  | flowEntry
  | blockEntry
  | key
  | value
  | alias (name : List Char)
  | anchor (name : List Char)
  | tag (handle : List Char) (suffix : List UInt8)
  | scalar (style : Style) (text : List Char)
  deriving Repr, DecidableEq

/-- A place where a key may have started. -/
structure Candidate where
  /-- How many tokens come before it. -/
  tokenNumber : Nat
  /-- It must turn out to be a key. -/
  required : Bool
  start : Cursor

/-- A scan under way. -/
structure Scan where
  cursor : Cursor
  /-- For each open block collection, the innermost first, one more than its column. -/
  margins : List Nat
  /-- A key may start here. -/
  keyAllowed : Bool
  /-- The candidate of the block level or, for each open flow collection, of that one; the innermost
  first. -/
  candidates : List (Option Candidate)
  /-- The tokens so far, the last one first. -/
  tokens : List Token

namespace Scan

/-- The start of a text. -/
def ofText (text : List Char) : Scan := ⟨.ofText text, [], true, [none], []⟩

/-- Inside a flow collection. -/
def inFlow (s : Scan) : Bool := 1 < s.candidates.length

/-- One more than the column of the innermost block collection. -/
def margin (s : Scan) : Nat := s.margins.head?.getD 0

/-- The candidate of the innermost level. -/
def candidate? (s : Scan) : Option Candidate := s.candidates.head?.join

/-- Append a token. -/
def emit (s : Scan) (t : Token) : Scan := { s with tokens := t :: s.tokens }

/-- Put tokens where the token of that number is. -/
def insertAt (s : Scan) (number : Nat) (ts : List Token) : Scan :=
  let after := s.tokens.length - number
  { s with tokens := s.tokens.take after ++ (ts.reverse ++ s.tokens.drop after) }

/-- Set the candidate of the innermost level. -/
def setCandidate (s : Scan) (c : Option Candidate) : Scan :=
  { s with candidates := c :: s.candidates.drop 1 }

/-- Give up the candidate of the innermost level, which must not be a required one. -/
def dropCandidate (s : Scan) : Option Scan :=
  match s.candidate? with
  | some c => if c.required then none else some (s.setCandidate none)
  | none => some s

/-- What starts here may turn out to be a key. -/
def markCandidate (s : Scan) : Option Scan :=
  if s.keyAllowed then
    s.dropCandidate.map fun t =>
      let required := !s.inFlow && s.margin == s.cursor.column + 1
      t.setCandidate (some ⟨s.tokens.length, required, s.cursor⟩)
  else some s

/-- The candidate reaches this far: a key is on one line and no longer than 1024 bytes. -/
def reaches (s : Scan) (c : Candidate) : Bool :=
  c.start.line == s.cursor.line && s.cursor.index ≤ c.start.index + 1024

/-- Open a block collection at a column, if that is to the right of the innermost one. -/
def openBlock (s : Scan) (column number : Nat) (t : Token) : Scan :=
  if !s.inFlow && s.margin ≤ column then
    { s.insertAt number [t] with margins := (column + 1) :: s.margins }
  else s

/-- Close block collections until the margin is at most the limit. -/
def closeBlocks (limit : Nat) (s : Scan) : Scan :=
  if s.inFlow then s
  else
    let closed := s.margins.takeWhile fun m => limit < m
    { s with
      margins := s.margins.drop closed.length
      tokens := closed.map (fun _ => .blockEnd) ++ s.tokens }

/-- Move the cursor. -/
def move (s : Scan) (f : Cursor → Cursor) : Scan := { s with cursor := f s.cursor }

/-- A key may start here, or not. -/
def allowKey (s : Scan) (b : Bool) : Scan := { s with keyAllowed := b }

/-! ## Between tokens -/

/-- Skip blanks, comments and line breaks. -/
def skipGap : Nat → Scan → Scan
  | 0, s => s
  | fuel + 1, s =>
    let tabs := s.inFlow || !s.keyAllowed
    let s := s.move fun c =>
      (c.skipByteOrderMark.skipWhile fun ch => ch == ' ' || (tabs && ch == '\t')).skipComment
    match s.cursor.rest with
    | ch :: _ =>
      if isBreak ch then
        let s := s.move Cursor.skipBreak
        skipGap fuel (if s.inFlow then s else s.allowKey true)
      else s
    | [] => s

/-- Candidates that no longer reach the cursor are given up. -/
def dropStale (s : Scan) : Option Scan :=
  (s.candidates.mapM fun
    | some c => if s.reaches c then some (some c) else if c.required then none else some none
    | none => some none).map fun cs => { s with candidates := cs }

/-! ## Tags, anchors and directives -/

/-- The characters that may stand in a tag, besides letters, digits, `-` and `_`. -/
def tagMarks (wide : Bool) : List Char :=
  let marks := [';', '/', '?', ':', '@', '&', '=', '+', '$', '.', '%', '!', '~', '*', '\'', '(', ')']
  if wide then [',', '[', ']'] ++ marks else marks

/-- How many bytes a character takes in UTF-8, told from the first of them. -/
def utf8Width? (lead : UInt8) : Option Nat :=
  if lead &&& 0x80 == 0 then some 1
  else if lead &&& 0xE0 == 0xC0 then some 2
  else if lead &&& 0xF0 == 0xE0 then some 3
  else if lead &&& 0xF8 == 0xF0 then some 4
  else none

/-- The byte that two hexadecimal digits stand for. -/
def byteOf? (a b : Char) : Option UInt8 :=
  (Text.Hex.ofDigits? [a, b]).map UInt8.ofNat

/-- How many bytes are still due after one more, when so many were. -/
def dueAfter? (byte : UInt8) : Nat → Option Nat
  | 0 => (utf8Width? byte).map (· - 1)
  | due + 1 => if byte &&& 0xC0 == 0x80 then some due else none

/-- The bytes of a tag. A percent sign and two digits stand for one byte; several such bytes make up
a character, of which `due` more bytes are to come. -/
def tagBytes? : Nat → List Char → Option (List UInt8)
  | due, '%' :: a :: b :: cs =>
    match byteOf? a b with
    | none => none
    | some byte =>
      match dueAfter? byte due with
      | some due => (tagBytes? due cs).map (byte :: ·)
      | none => none
  | 0, c :: cs => if c == '%' then none else (tagBytes? 0 cs).map (c.toUInt8 :: ·)
  | 0, [] => some []
  | _ + 1, _ => none

/-- The bytes of a tag ahead. -/
def tagRun? (wide : Bool) (c : Cursor) : Option (List UInt8 × Cursor) :=
  let run := c.run fun ch => isWord ch || (tagMarks wide).contains ch
  (tagBytes? 0 run).map fun bytes => (bytes, c.skipMany run.length)

/-- A tag ends at the first zero byte. -/
def untilZero (bytes : List UInt8) : List UInt8 :=
  bytes.takeWhile (· != 0)

/-- The handle ahead: an exclamation mark, and perhaps a name and another one. -/
def tagHandle (c : Cursor) : List Char × Cursor :=
  let c := c.skip
  let name := c.run isWord
  let c := c.skipMany name.length
  if c.sees '!' then ('!' :: name ++ ['!'], c.skip) else ('!' :: name, c)

/-- The tag ahead; the mark alone is a tag without handle. -/
def tagToken? (c : Cursor) : Option (Token × Cursor) :=
  if c.peek? 1 == some '<' then do
    let (uri, c) ← tagRun? true (c.skipMany 2)
    if uri.isEmpty || !c.sees '>' then none else some (.tag [] (untilZero uri), c.skip)
  else
    let (handle, c) := tagHandle c
    let isNamed := 1 < handle.length && handle.getLast? == some '!'
    (tagRun? false c).bind fun (run, c) =>
      if isNamed then if run.isEmpty then none else some (.tag handle (untilZero run), c)
      else
        let suffix := untilZero ((handle.drop 1).map Char.toUInt8 ++ run)
        some (if suffix.isEmpty then .tag [] ['!'.toUInt8] else .tag ['!'] suffix, c)

/-- The name of an anchor or an alias, after its mark. -/
def anchorName? (c : Cursor) : Option (List Char × Cursor) :=
  let name := c.run isWord
  let c := c.skipMany name.length
  let next := c.peek? 0
  let ends := isGap next ||
    (next.map fun ch => ['?', ':', ',', ']', '\x7d', '%', '@', '\x60'].contains ch).getD false
  if !name.isEmpty && ends then some (name, c) else none

/-- A number of at most nine digits. -/
def versionNumber? (c : Cursor) : Option (Nat × Cursor) :=
  let digits := c.run Char.isDigit
  if digits.length ≤ 9 then
    (Text.Decimal.ofDigits? digits).map fun n => (n, c.skipMany digits.length)
  else none

/-- The directive ahead, up to the end of its line. -/
def directive? (c : Cursor) : Option (Token × Cursor) := do
  let c := c.skip
  let name := c.run isWord
  let c := c.skipMany name.length
  if !isGap (c.peek? 0) then none
  else
    let (t, c) ←
      if name == "YAML".toList then do
        let (major, c) ← versionNumber? (c.skipWhile isBlank)
        if !c.sees '.' then none
        else
          let (minor, c) ← versionNumber? c.skip
          some (Token.version major minor, c)
      else if name == "TAG".toList then do
        let c := c.skipWhile isBlank
        if !c.sees '!' then none
        else
          let (handle, c) := tagHandle c
          if handle != ['!'] && handle.getLast? != some '!' then none
          else if !((c.peek? 0).map isBlank).getD false then none
          else
            let (uri, c) ← tagRun? true (c.skipWhile isBlank)
            if uri.isEmpty || !isGap (c.peek? 0) then none
            else some (Token.tagHandle handle (untilZero uri), c)
      else none
    let c := (c.skipWhile isBlank).skipComment
    if isLineEnd (c.peek? 0) then some (t, c.skipBreak) else none

/-! ## Tokens -/

/-- Back to the outermost level, where a directive or a mark between documents stands. -/
def toTopLevel (s : Scan) : Option Scan :=
  (s.closeBlocks 0).dropCandidate.map (allowKey · false)

/-- The end of the text. -/
def finish (s : Scan) : Option (List Token) :=
  s.toTopLevel.map fun s => s.tokens.reverse

/-- A mark between documents. -/
def fetchMarker (t : Token) (s : Scan) : Option Scan :=
  s.toTopLevel.map fun s => (s.move (Cursor.skipMany 3)).emit t

/-- A directive. -/
def fetchDirective (s : Scan) : Option Scan := do
  let s ← s.toTopLevel
  let (t, c) ← directive? s.cursor
  return { s with cursor := c }.emit t

/-- The start of a flow collection. -/
def fetchFlowStart (t : Token) (s : Scan) : Option Scan :=
  s.markCandidate.map fun s =>
    ({ s with candidates := none :: s.candidates, keyAllowed := true }.move Cursor.skip).emit t

/-- The end of a flow collection. -/
def fetchFlowEnd (t : Token) (s : Scan) : Option Scan :=
  s.dropCandidate.map fun s =>
    let candidates := if s.inFlow then s.candidates.drop 1 else s.candidates
    ({ s with candidates := candidates, keyAllowed := false }.move Cursor.skip).emit t

/-- The comma between the entries of a flow collection. -/
def fetchFlowEntry (s : Scan) : Option Scan :=
  s.dropCandidate.map fun s => ((s.allowKey true).move Cursor.skip).emit .flowEntry

/-- The dash in front of an entry of a block sequence. -/
def fetchBlockEntry (s : Scan) : Option Scan :=
  if !s.inFlow && !s.keyAllowed then none
  else (s.openBlock s.cursor.column s.tokens.length .blockSequence).dropCandidate.map fun s =>
    ((s.allowKey true).move Cursor.skip).emit .blockEntry

/-- The question mark in front of a key. -/
def fetchKey (s : Scan) : Option Scan :=
  if !s.inFlow && !s.keyAllowed then none
  else (s.openBlock s.cursor.column s.tokens.length .blockMapping).dropCandidate.map fun s =>
    ((s.allowKey !s.inFlow).move Cursor.skip).emit .key

/-- The colon in front of a value. -/
def fetchValue (s : Scan) : Option Scan :=
  match s.candidate? with
  | some c =>
    let s := (s.insertAt c.tokenNumber [.key]).openBlock c.start.column c.tokenNumber .blockMapping
    some ((((s.setCandidate none).allowKey false).move Cursor.skip).emit .value)
  | none =>
    if !s.inFlow && !s.keyAllowed then none
    else
      let s := s.openBlock s.cursor.column s.tokens.length .blockMapping
      some (((s.allowKey !s.inFlow).move Cursor.skip).emit .value)

/-- An anchor or an alias. -/
def fetchAnchor (t : List Char → Token) (s : Scan) : Option Scan := do
  let s ← s.markCandidate
  let (name, c) ← anchorName? s.cursor.skip
  return { s with cursor := c, keyAllowed := false }.emit (t name)

/-- A tag. -/
def fetchTag (s : Scan) : Option Scan := do
  let s ← s.markCandidate
  let (t, c) ← tagToken? s.cursor
  if isGap (c.peek? 0) || (s.inFlow && c.sees ',') then
    return { s with cursor := c, keyAllowed := false }.emit t
  else none

/-- A block scalar. -/
def fetchBlockScalar (isLiteral : Bool) (s : Scan) : Option Scan := do
  let s ← s.dropCandidate
  let (text, c) ← blockScalar? isLiteral s.margin s.cursor
  let style := if isLiteral then Style.literal else Style.folded
  return { s with cursor := c, keyAllowed := true }.emit (.scalar style text)

/-- A quoted scalar. -/
def fetchQuoted (s : Scan) : Option Scan := do
  let s ← s.markCandidate
  let (text, c) ← quotedScalar? s.cursor
  return { s with cursor := c, keyAllowed := false }.emit (.scalar .quoted text)

/-- A plain scalar. -/
def fetchPlain (s : Scan) : Option Scan := do
  let s ← s.markCandidate
  let (text, broken, c) ← plainScalar? s.inFlow s.margin s.cursor
  return { s with cursor := c, keyAllowed := broken }.emit (.scalar .plain text)

/-- A plain scalar may start with that character. -/
def startsPlain (flow : Bool) (ch : Char) (next : Option Char) : Bool :=
  let marks := ['-', '?', ':', ',', '[', ']', '\x7b', '\x7d', '#', '&', '*', '!', '|', '>', '\'',
    '"', '%', '@', '\x60']
  (!isGap (some ch) && !marks.contains ch) ||
    (ch == '-' && !(next.map isBlank).getD false) ||
    (!flow && (ch == '?' || ch == ':') && !isGap next)

/-- The token that starts at a character. -/
def fetch (s : Scan) (ch : Char) : Option Scan :=
  let c := s.cursor
  let next := c.peek? 1
  let marks := s.inFlow || isGap next
  if c.column == 0 && ch == '%' then s.fetchDirective
  else if c.seesMarker '-' then s.fetchMarker .documentStart
  else if c.seesMarker '.' then s.fetchMarker .documentEnd
  else if ch == '[' then s.fetchFlowStart .flowSequence
  else if ch == '\x7b' then s.fetchFlowStart .flowMapping
  else if ch == ']' then s.fetchFlowEnd .flowSequenceEnd
  else if ch == '\x7d' then s.fetchFlowEnd .flowMappingEnd
  else if ch == ',' then s.fetchFlowEntry
  else if ch == '-' && isGap next then s.fetchBlockEntry
  else if ch == '?' && marks then s.fetchKey
  else if ch == ':' && marks then s.fetchValue
  else if ch == '*' then s.fetchAnchor .alias
  else if ch == '&' then s.fetchAnchor .anchor
  else if ch == '!' then s.fetchTag
  else if ch == '|' && !s.inFlow then s.fetchBlockScalar true
  else if ch == '>' && !s.inFlow then s.fetchBlockScalar false
  else if ch == '\'' || ch == '"' then s.fetchQuoted
  else if startsPlain s.inFlow ch next then s.fetchPlain
  else none

/-- Scan on; `fuel` bounds the number of tokens, each of which takes a character, and with that also
the number of line breaks in a gap. -/
def run : Nat → Scan → Option (List Token)
  | 0, _ => none
  | fuel + 1, s =>
    match (s.skipGap (fuel + 1)).dropStale with
    | none => none
    | some s =>
      let s := s.closeBlocks (s.cursor.column + 1)
      match s.cursor.rest with
      | [] => s.finish
      | ch :: _ =>
        match s.fetch ch with
        | some s => run fuel s
        | none => none

end Scan

/-- The tokens of a text. -/
def scan? (text : List Char) : Option (List Token) :=
  if text.all isAllowed then Scan.run (text.length + 1) (.ofText text) else none

end TradeIntake.Yaml
