import TradeIntake.Text.Hex
import TradeIntake.Yaml.Cursor

/-!
# YAML scalars

A plain or quoted scalar may go over several lines. It is *folded*: blanks around a line break go, a
single break becomes a space, and of several breaks the first one goes. A block scalar keeps its
lines, or folds them when it starts with a greater-than sign.

Each reader takes the cursor at the start of the scalar and gives the text and the cursor behind it,
or none when the text ahead is no such scalar.

Stands for what the scanner behind `from_yaml` (`src/config.rs`) does with scalars.
-/

namespace TradeIntake.Yaml

/-- How a scalar is written, as far as it makes a difference. -/
inductive Style where
  | plain
  | quoted
  | literal
  | folded
  deriving Repr, DecidableEq

/-! ## Folding -/

/-- A folded text under way. The lists hold the last character first. -/
structure Folding where
  text : List Char
  /-- The blanks since the last word on this line. -/
  blanks : List Char
  /-- A line has ended since the last word. -/
  broken : Bool
  /-- The first break since the last word; none after an escaped one. -/
  firstBreak : Option Char
  /-- The other breaks since the last word. -/
  breaks : List Char

namespace Folding

/-- Nothing read yet. -/
def empty : Folding := ⟨[], [], false, none, []⟩

/-- Something has been read since the last word. -/
def isPending (f : Folding) : Bool := f.broken || !f.blanks.isEmpty

/-- Read a blank. -/
def pushBlank (f : Folding) (c : Char) : Folding :=
  if f.broken then f else { f with blanks := c :: f.blanks }

/-- Read a line break. -/
def pushBreak (f : Folding) (c : Char) : Folding :=
  if f.broken then { f with breaks := breakChar c :: f.breaks }
  else { f with blanks := [], broken := true, firstBreak := some (breakChar c) }

/-- What stands for the gap since the last word, last character first. -/
def gap (f : Folding) : List Char :=
  if f.broken then
    match f.firstBreak with
    | some '\n' => if f.breaks.isEmpty then [' '] else f.breaks
    | some c => f.breaks ++ [c]
    | none => f.breaks
  else f.blanks

/-- Close the gap since the last word. -/
def join (f : Folding) : Folding := ⟨f.gap ++ f.text, [], false, none, []⟩

/-- Read a character of a word. -/
def push (f : Folding) (c : Char) : Folding :=
  let f := f.join
  { f with text := c :: f.text }

/-- Read an escaped line break. -/
def pushEscapedBreak (f : Folding) : Folding := { f.join with broken := true }

end Folding

/-! ## Quoted scalars -/

/-- The character of a one-letter escape. -/
def unescape? : Char → Option Char
  | '0' => some '\x00'
  | 'a' => some '\x07'
  | 'b' => some '\x08'
  | 't' => some '\t'
  | '\t' => some '\t'
  | 'n' => some '\n'
  | 'v' => some '\x0b'
  | 'f' => some '\x0c'
  | 'r' => some '\r'
  | 'e' => some '\x1b'
  | ' ' => some ' '
  | '"' => some '"'
  | '/' => some '/'
  | '\\' => some '\\'
  | 'N' => some '\u0085'
  | '_' => some '\u00a0'
  | 'L' => some '\u2028'
  | 'P' => some '\u2029'
  | _ => none

/-- How many digits follow the letter of a numeric escape. -/
def escapeWidth? : Char → Option Nat
  | 'x' => some 2
  | 'u' => some 4
  | 'U' => some 8
  | _ => none

/-- The character with that number. -/
def charOf? (n : Nat) : Option Char :=
  if h : n.isValidChar then some (Char.ofNatAux n h) else none

/-- The escape after a backslash: its character and how many characters it takes. -/
def escape? : List Char → Option (Char × Nat)
  | [] => none
  | c :: cs =>
    match escapeWidth? c with
    | some width =>
      if width ≤ cs.length then
        ((Text.Hex.ofDigits? (cs.take width)).bind charOf?).map fun d => (d, width + 1)
      else none
    | none => (unescape? c).map fun d => (d, 1)

/-- Read on inside apostrophes. -/
def readSingle : Nat → Folding → Cursor → Option (List Char × Cursor)
  | 0, _, _ => none
  | fuel + 1, f, c =>
    match c.rest with
    | [] => none
    | ch :: _ =>
      if isBlank ch then readSingle fuel (f.pushBlank ch) c.skip
      else if isBreak ch then readSingle fuel (f.pushBreak ch) c.skipBreak
      else if c.atMarker then none
      else if ch == '\'' then
        if c.peek? 1 == some '\'' then readSingle fuel (f.push '\'') (c.skipMany 2)
        else some (f.join.text.reverse, c.skip)
      else readSingle fuel (f.push ch) c.skip

/-- Read on inside double quotes. -/
def readDouble : Nat → Folding → Cursor → Option (List Char × Cursor)
  | 0, _, _ => none
  | fuel + 1, f, c =>
    match c.rest with
    | [] => none
    | ch :: rest =>
      if isBlank ch then readDouble fuel (f.pushBlank ch) c.skip
      else if isBreak ch then readDouble fuel (f.pushBreak ch) c.skipBreak
      else if c.atMarker then none
      else if ch == '"' then some (f.join.text.reverse, c.skip)
      else if ch == '\\' then
        if (rest.head?.map isBreak).getD false then
          readDouble fuel f.pushEscapedBreak c.skip.skipBreak
        else match escape? rest with
          | some (d, n) => readDouble fuel (f.push d) (c.skipMany (n + 1))
          | none => none
      else readDouble fuel (f.push ch) c.skip

/-- The scalar whose opening quotation mark is ahead. -/
def quotedScalar? (c : Cursor) : Option (List Char × Cursor) :=
  let fuel := c.rest.length
  if c.sees '"' then readDouble fuel .empty c.skip else readSingle fuel .empty c.skip

/-! ## Plain scalars -/

/-- A bracket, a brace or a comma. -/
def isFlowMark (c : Char) : Bool :=
  c == ',' || c == '[' || c == ']' || c == '\x7b' || c == '\x7d'

/-- A plain scalar ends at the character ahead. -/
def endsPlain (flow : Bool) (ch : Char) (next : Option Char) : Bool :=
  (ch == ':' && isGap next) || (flow && isFlowMark ch)

/-- A colon that may not stand in a plain scalar of a flow collection. -/
def isStrayColon (flow : Bool) (ch : Char) (next : Option Char) : Bool :=
  flow && ch == ':' && (next.map fun d => isFlowMark d || d == '?').getD false

/-- Read on in a plain scalar of a collection whose entries start at column `margin` or later. The
answer tells whether a line ended at last. -/
def readPlain (flow : Bool) (margin : Nat) :
    Nat → Folding → Cursor → Option (List Char × Bool × Cursor)
  | 0, _, _ => none
  | fuel + 1, f, c =>
    let done := some (f.text.reverse, f.broken, c)
    match c.rest with
    | [] => done
    | ch :: _ =>
      if isBlank ch then
        if f.broken && c.column < margin && ch == '\t' then none
        else readPlain flow margin fuel (f.pushBlank ch) c.skip
      else if isBreak ch then readPlain flow margin fuel (f.pushBreak ch) c.skipBreak
      else if f.isPending && (c.atMarker || ch == '#' || (!flow && c.column < margin)) then done
      else if isStrayColon flow ch (c.peek? 1) then none
      else if endsPlain flow ch (c.peek? 1) then done
      else readPlain flow margin fuel (f.push ch) c.skip

/-- The plain scalar ahead, and whether a line ended behind it. -/
def plainScalar? (flow : Bool) (margin : Nat) (c : Cursor) : Option (List Char × Bool × Cursor) :=
  readPlain flow margin (c.rest.length + 1) .empty c

/-! ## Block scalars -/

/-- What becomes of the line breaks at the end of a block scalar. -/
inductive Chomp where
  | strip
  | clip
  | keep
  deriving Repr, DecidableEq

/-- The chomping that a sign asks for. -/
def chompOf? : Option Char → Option Chomp
  | some '+' => some .keep
  | some '-' => some .strip
  | _ => none

/-- The indentation that a digit asks for. -/
def indentOf? (c : Option Char) : Option Nat :=
  (c.filter Char.isDigit).map fun d => d.toNat - '0'.toNat

/-- The header of a block scalar after its first character: the chomping, the indentation if it is
given, and the cursor behind. -/
def blockHeader? (c : Cursor) : Option (Chomp × Option Nat × Cursor) :=
  match chompOf? (c.peek? 0), indentOf? (c.peek? 0) with
  | some chomp, _ =>
    match indentOf? (c.peek? 1) with
    | some 0 => none
    | some n => some (chomp, some n, c.skipMany 2)
    | none => some (chomp, none, c.skip)
  | none, some 0 => none
  | none, some n =>
    match chompOf? (c.peek? 1) with
    | some chomp => some (chomp, some n, c.skipMany 2)
    | none => some (.clip, some n, c.skip)
  | none, none => some (.clip, none, c)

/-- Empty lines before the next line of a block scalar. `indent` is that of the scalar, zero as
long as it is unknown; `widest` is the greatest column reached, `breaks` are the breaks so far, the
last one first. -/
def readBreaks (indent : Nat) :
    Nat → Nat → List Char → Cursor → Option (Nat × List Char × Cursor)
  | 0, _, _, _ => none
  | fuel + 1, widest, breaks, c =>
    let limit := if indent = 0 then c.rest.length else indent - c.column
    let c := c.skipMany ((c.rest.takeWhile (· == ' ')).take limit).length
    let widest := max widest c.column
    if (indent = 0 ∨ c.column < indent) ∧ c.sees '\t' then none
    else match c.rest with
      | ch :: _ =>
        if isBreak ch then readBreaks indent fuel widest (breakChar ch :: breaks) c.skipBreak
        else some (widest, breaks, c)
      | [] => some (widest, breaks, c)

/-- Read the lines of a block scalar. `text` is what there is so far, `lineEnd` the break of the
last line and `breaks` those after it, all with the last character first; `blank` tells whether the
last line started with a blank. -/
def readLines (isLiteral : Bool) (indent : Nat) (chomp : Chomp) :
    Nat → (text lineEnd breaks : List Char) → (blank : Bool) → Cursor → Option (List Char × Cursor)
  | 0, _, _, _, _, _ => none
  | fuel + 1, text, lineEnd, breaks, blank, c =>
    if c.column = indent ∧ c.rest ≠ [] then
      let startsBlank := (c.rest.head?.map isBlank).getD false
      let joined :=
        if !isLiteral && lineEnd == ['\n'] && !blank && !startsBlank then
          if breaks.isEmpty then [' '] else breaks
        else breaks ++ lineEnd
      let line := c.run fun ch => !isBreak ch
      let text := line.reverse ++ (joined ++ text)
      let c := c.skipMany line.length
      let lineEnd := (c.peek? 0).toList.map breakChar
      let c := c.skipBreak
      match readBreaks indent (c.rest.length + 1) 0 [] c with
      | none => none
      | some (_, breaks, c) => readLines isLiteral indent chomp fuel text lineEnd breaks startsBlank c
    else
      let text := match chomp with
        | .strip => text
        | .clip => lineEnd ++ text
        | .keep => breaks ++ (lineEnd ++ text)
      some (text.reverse, c)

/-- The block scalar ahead, in a collection whose entries start at column `margin` or later. -/
def blockScalar? (isLiteral : Bool) (margin : Nat) (c : Cursor) : Option (List Char × Cursor) := do
  let (chomp, given, c) ← blockHeader? c.skip
  let c := (c.skipWhile isBlank).skipComment
  if !isLineEnd (c.peek? 0) then none
  else
    let c := c.skipBreak
    let fuel := c.rest.length + 1
    let known := (given.map fun n => margin - 1 + n).getD 0
    let (widest, breaks, c) ← readBreaks known fuel 0 [] c
    let indent := if known = 0 then max (max widest margin) 1 else known
    readLines isLiteral indent chomp fuel [] [] breaks false c

end TradeIntake.Yaml
