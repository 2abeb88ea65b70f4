import TradeIntake.Xml.Character

/-!
# XML tokens

`scan` cuts a text into tokens from left to right. It checks the form of each token and which kinds
may stand where, but matches no tags, resolves no names and reads no references; those are for the
tree. What it found before a fault is kept, because nesting is checked on the tokens alone and too
deep a document is told from a malformed one by what comes first.

After the end tag that brings the count of open tags to zero only comments, instructions and space
may follow. A scan that runs out of text between two tokens ends without fault.

Stands for the tokenizer that `check_depth` (`crates/ingest/src/document.rs`) runs; `exceedsDepth`
is how it counts.
-/

namespace TradeIntake.Xml

/-- A name with its prefix, which may be empty. -/
structure QName where
  space : String
  localName : String
  deriving Repr, DecidableEq

/-- The name as it stands in the text. -/
def QName.toString (n : QName) : String :=
  if n.space.isEmpty then n.localName else n.space ++ ":" ++ n.localName

/-- One token of a document. -/
inductive Token where
  | declaration
  /-- A document type declaration or a part of one. -/
  | doctype
  | comment
  | instruction
  /-- The start of a start tag, up to the name. -/
  | startTag (name : QName)
  | attribute (name : QName) (value : List Char)
  /-- The end of a start tag whose element has content. -/
  | tagEnd
  /-- The end of a start tag whose element is empty. -/
  | emptyTagEnd
  | endTag (name : QName)
  | text (value : List Char)
  | cdata (value : List Char)
  deriving Repr, DecidableEq

/-! ## Parts of tokens

A part is read off the front of a text; with it comes the text after it. -/

/-- Leave out leading space. -/
def skipSpace (cs : List Char) : List Char :=
  cs.dropWhile isSpace

/-- Leave out leading space, of which there is some. -/
def space (cs : List Char) : Except Fault (List Char) :=
  match cs with
  | c :: rest => if isSpace c then .ok (skipSpace rest) else .error (.expected "space")
  | [] => .error (.expected "space")

/-- Leave out a literal. -/
def literal (s : String) (cs : List Char) : Except Fault (List Char) :=
  if s.toList.isPrefixOf cs then .ok (cs.drop s.length) else .error (.expected s)

/-- A name, colons included. -/
def name (cs : List Char) : Except Fault (List Char × List Char) :=
  match cs with
  | c :: _ => if isNameStart c then .ok (cs.span isNameChar) else .error .badName
  | [] => .error .badName

/-- A name with at most one colon; the part after the colon is not empty. -/
def qname (cs : List Char) : Except Fault (QName × List Char) :=
  let (chars, rest) := cs.span isNameChar
  let (before, after) := chars.span (· != ':')
  let (prefixChars, localChars) :=
    match after with
    | [] => ([], before)
    | _ :: after => (before, after)
  let starts : List Char → Bool
    | c :: _ => isNameStart c
    | [] => false
  if localChars.contains ':' then .error .badName
  else if !prefixChars.isEmpty && !starts prefixChars then .error .badName
  else if !starts localChars then .error .badName
  else .ok (⟨String.ofList prefixChars, String.ofList localChars⟩, rest)

/-- An equals sign with optional space around it. -/
def equals (cs : List Char) : Except Fault (List Char) :=
  (literal "=" (skipSpace cs)).map skipSpace

/-- A quotation mark of either kind. -/
def quoteMark : List Char → Except Fault (Char × List Char)
  | '\'' :: cs => .ok ('\'', cs)
  | '"' :: cs => .ok ('"', cs)
  | _ => .error (.expected "quotation mark")

/-- The first character that may not stand in a document. -/
def checkAllowed (cs : List Char) : Except Fault Unit :=
  match cs.find? fun c => !isAllowed c with
  | some c => .error (.forbiddenCharacter c.toNat)
  | none => .ok ()

/-- The text before `stop`, which is left out; `acc` holds the text so far, last character first. -/
def before (stop : List Char) : List Char → List Char → Except Fault (List Char × List Char)
  | [], _ => .error (.expected (String.ofList stop))
  | c :: cs, acc =>
    if !isAllowed c then .error (.forbiddenCharacter c.toNat)
    else if stop.isPrefixOf (c :: cs) then .ok (acc.reverse, (c :: cs).drop stop.length)
    else before stop cs (c :: acc)

/-- A quoted text of any characters but the mark. -/
def quoted (cs : List Char) : Except Fault (List Char × List Char) := do
  let (mark, cs) ← quoteMark cs
  let (value, rest) := cs.span (· != mark)
  return (value, ← literal (String.singleton mark) rest)

/-- The pattern stands somewhere in the text. -/
def holds (pattern : List Char) : List Char → Bool
  | [] => pattern.isEmpty
  | c :: cs => pattern.isPrefixOf (c :: cs) || holds pattern cs

/-! ## Whole tokens -/

/-- A comment after its opening. -/
def comment (cs : List Char) : Except Fault (List Char) := do
  let (body, rest) ← before ['-', '-', '>'] cs []
  if holds ['-', '-'] body || body.getLast? == some '-' then throw .badComment
  return rest

/-- An instruction after its opening; it must not look like an XML declaration. -/
def instruction (cs : List Char) : Except Fault (List Char) := do
  if "xml ".toList.isPrefixOf cs then throw .misplacedDeclaration
  let (_, rest) ← name cs
  let (_, rest) ← before ['?', '>'] (skipSpace rest) []
  return rest

/-- Character data up to the next markup. -/
def textRun (cs : List Char) : Except Fault (List Char × List Char) := do
  let (run, rest) := cs.span (· != '<')
  checkAllowed run
  if holds [']', ']', '>'] run then throw .badText
  return (run, rest)

/-- The name of an end tag after its opening, to the end of the tag. -/
def endTag (cs : List Char) : Except Fault (QName × List Char) := do
  let (n, rest) ← qname cs
  return (n, ← literal ">" (skipSpace rest))

/-- The value of an attribute from its quotation mark on. -/
def attributeValue (cs : List Char) : Except Fault (List Char × List Char) := do
  let (mark, cs) ← quoteMark cs
  let (value, rest) := cs.span fun c => c != mark && c != '<'
  checkAllowed value
  return (value, ← literal (String.singleton mark) rest)

/-- An attribute, or the end of the start tag. -/
def inTag (cs : List Char) : Except Fault (Token × List Char) :=
  match skipSpace cs with
  | '/' :: rest => (literal ">" rest).map fun rest => (.emptyTagEnd, rest)
  | '>' :: rest => .ok (.tagEnd, rest)
  | rest => do
    discard (space cs)
    let (n, rest) ← qname rest
    let (value, rest) ← attributeValue (← equals rest)
    return (.attribute n value, rest)

/-! ### The XML declaration -/

/-- Space, unless the declaration ends here. -/
def declarationSpace (cs : List Char) : Except Fault (List Char) :=
  if cs.isEmpty || ['?', '>'].isPrefixOf cs then .ok cs else space cs

/-- The version after the opening of a declaration. -/
def version (cs : List Char) : Except Fault (List Char) := do
  let cs ← equals (← literal "version" (skipSpace cs))
  let (mark, cs) ← quoteMark cs
  let cs ← literal "1." cs
  literal (String.singleton mark) (cs.dropWhile Char.isDigit)

/-- The encoding, which is optional. -/
def encoding (cs : List Char) : Except Fault (List Char) :=
  if "encoding".toList.isPrefixOf cs then do
    let (mark, cs) ← quoteMark (← equals (cs.drop 8))
    let cs := cs.dropWhile fun c => c.isAlphanum || c == '.' || c == '-' || c == '_'
    declarationSpace (← literal (String.singleton mark) cs)
  else .ok cs

/-- Whether the document stands alone, which is optional. -/
def standalone (cs : List Char) : Except Fault (List Char) :=
  if "standalone".toList.isPrefixOf cs then do
    let (mark, cs) ← quoteMark (← equals (cs.drop 10))
    let (answer, cs) ← name cs
    if answer != "yes".toList && answer != "no".toList then throw (.expected "yes or no")
    literal (String.singleton mark) cs
  else .ok cs

/-- The declaration after its opening. -/
def declaration (cs : List Char) : Except Fault (List Char) := do
  let cs ← declarationSpace (← version cs)
  let cs ← standalone (← encoding cs)
  literal "?>" (skipSpace cs)

/-! ### The document type declaration -/

/-- An external identifier, which is optional; whether there was one. -/
def externalId (cs : List Char) : Except Fault (Bool × List Char) :=
  if "SYSTEM".toList.isPrefixOf cs then do
    let (_, rest) ← quoted (← space (cs.drop 6))
    return (true, rest)
  else if "PUBLIC".toList.isPrefixOf cs then do
    let (_, rest) ← quoted (← space (cs.drop 6))
    let (_, rest) ← quoted (← space rest)
    return (true, rest)
  else .ok (false, cs)

/-- A document type declaration after its opening; whether an internal subset follows. -/
def doctype (cs : List Char) : Except Fault (Bool × List Char) := do
  let (_, cs) ← name (← space cs)
  let (_, cs) ← externalId (skipSpace cs)
  match skipSpace cs with
  | '[' :: rest => return (true, rest)
  | '>' :: rest => return (false, rest)
  | _ => throw (.expected "bracket")

/-- What an entity stands for. -/
def entityDefinition (general : Bool) (cs : List Char) : Except Fault (List Char) := do
  match cs with
  | c :: _ =>
    if c == '"' || c == '\'' then
      let (_, rest) ← quoted cs
      return rest
    else
      let (found, rest) ← externalId cs
      if !found then throw (.expected "external identifier")
      let data := skipSpace rest
      if general && "NDATA".toList.isPrefixOf data then
        let (_, rest) ← name (← space (data.drop 5))
        return rest
      else return rest
  | [] => throw (.expected "entity value")

/-- An entity declaration after its opening. -/
def entityDeclaration (cs : List Char) : Except Fault (List Char) := do
  let cs ← space cs
  let (general, cs) ←
    match cs with
    | '%' :: cs => (space cs).map fun cs => (false, cs)
    | cs => pure (true, cs)
  let (_, cs) ← name cs
  let cs ← entityDefinition general (← space cs)
  literal ">" (skipSpace cs)

/-! ## The scan -/

/-- Where a scan stands. -/
inductive Place where
  /-- Before the root; a document type declaration may or may not come. -/
  | prolog (doctypeAllowed : Bool)
  | subset
  | tag
  | content
  | epilog
  deriving Repr, DecidableEq

/-- The place after a tag, with so many tags open. -/
def Place.after (depth : Nat) : Place :=
  if depth = 0 then .epilog else .content

/-- A scan under way: its place, how many tags are open, and the text ahead. -/
structure Position where
  place : Place
  depth : Nat
  ahead : List Char

/-- Read on in the same place. -/
def Position.move (p : Position) (rest : Except Fault (List Char)) (t : Token) :
    Except Fault (Option Token × Position) :=
  rest.map fun rest => (some t, { p with ahead := rest })

/-- A comment or an instruction, which may stand at every place outside tags. -/
def misc? (p : Position) : Option (Except Fault (Option Token × Position)) :=
  match p.ahead with
  | '<' :: '!' :: '-' :: '-' :: rest => some (p.move (comment rest) .comment)
  | '<' :: '?' :: rest => some (p.move (instruction rest) .instruction)
  | _ => none

/-- The start of a start tag. -/
def startTag (p : Position) (cs : List Char) : Except Fault (Option Token × Position) :=
  (qname cs).map fun (n, rest) => (some (.startTag n), ⟨.tag, p.depth, rest⟩)

/-- Space between tokens outside the root. -/
def blank (p : Position) : Except Fault (Option Token × Position) :=
  (space p.ahead).map fun rest => (none, { p with ahead := rest })

/-- The next token before the root. -/
def inProlog (p : Position) (doctypeAllowed : Bool) : Except Fault (Option Token × Position) :=
  if doctypeAllowed && "<!DOCTYPE".toList.isPrefixOf p.ahead then
    (doctype (p.ahead.drop 9)).map fun (more, rest) =>
      (some .doctype, ⟨if more then .subset else .prolog false, p.depth, rest⟩)
  else match misc? p with
    | some r => r
    | none =>
      match p.ahead with
      | '<' :: '!' :: _ => .error (.expected "element")
      | '<' :: rest => startTag p rest
      | _ => blank p

/-- The next token in the internal subset of a document type declaration. -/
def inSubset (p : Position) : Except Fault (Option Token × Position) :=
  let declares (word : String) : Bool := word.toList.isPrefixOf p.ahead
  if declares "<!ENTITY" then p.move (entityDeclaration (p.ahead.drop 8)) .doctype
  else match misc? p with
    | some r => r
    | none =>
      match p.ahead with
      | ']' :: rest =>
        (literal ">" (skipSpace rest)).map fun rest =>
          (some .doctype, ⟨.prolog false, p.depth, rest⟩)
      | _ =>
        if declares "<!ELEMENT" || declares "<!ATTLIST" || declares "<!NOTATION" then
          p.move (literal ">" (p.ahead.dropWhile (· != '>'))) .doctype
        else blank p

/-- The next token of a start tag after its name. -/
def inStartTag (p : Position) : Except Fault (Option Token × Position) :=
  (inTag p.ahead).map fun (t, rest) =>
    match t with
    | .tagEnd => (some t, ⟨Place.after (p.depth + 1), p.depth + 1, rest⟩)
    | .emptyTagEnd => (some t, ⟨Place.after p.depth, p.depth, rest⟩)
    | _ => (some t, { p with ahead := rest })

/-- The next token inside the root. -/
def inContent (p : Position) : Except Fault (Option Token × Position) :=
  match p.ahead with
  | '<' :: '/' :: rest =>
    (endTag rest).map fun (n, rest) =>
      (some (.endTag n), ⟨Place.after (p.depth - 1), p.depth - 1, rest⟩)
  | '<' :: '!' :: '[' :: 'C' :: 'D' :: 'A' :: 'T' :: 'A' :: '[' :: rest =>
    (before [']', ']', '>'] rest []).map fun (value, rest) =>
      (some (.cdata value), { p with ahead := rest })
  | _ =>
    match misc? p with
    | some r => r
    | none =>
      match p.ahead with
      | '<' :: '!' :: _ => .error (.expected "markup")
      | '<' :: rest => startTag p rest
      | cs => (textRun cs).map fun (value, rest) => (some (.text value), { p with ahead := rest })

/-- The next token after the root. -/
def inEpilog (p : Position) : Except Fault (Option Token × Position) :=
  match misc? p with
  | some r => r
  | none => blank p

/-- The next token, if the text ahead is not all space. -/
def scanStep (p : Position) : Except Fault (Option Token × Position) :=
  match p.place with
  | .prolog doctypeAllowed => inProlog p doctypeAllowed
  | .subset => inSubset p
  | .tag => inStartTag p
  | .content => inContent p
  | .epilog => inEpilog p

/-- The tokens of a text up to its end or the first fault. -/
structure Scanned where
  tokens : List Token
  fault : Option Fault
  deriving Repr, DecidableEq

/-- Scan on; every step takes a character at least, so as many steps as characters are enough. -/
def scanFrom : Nat → Position → List Token → Scanned
  | 0, p, acc =>
    ⟨acc.reverse, if p.ahead.isEmpty then none else some (.expected "end of text")⟩
  | steps + 1, p, acc =>
    if p.ahead.isEmpty then ⟨acc.reverse, none⟩
    else match scanStep p with
      | .error fault => ⟨acc.reverse, some fault⟩
      | .ok (none, p) => scanFrom steps p acc
      | .ok (some t, p) => scanFrom steps p (t :: acc)

/-- The tokens of a document; one byte order mark and a declaration may come first. -/
def scan (text : List Char) : Scanned :=
  let cs := match text with
    | '\uFEFF' :: cs => cs
    | cs => cs
  if "<?xml ".toList.isPrefixOf cs then
    match declaration (cs.drop 6) with
    | .error fault => ⟨[], some fault⟩
    | .ok rest => scanFrom rest.length ⟨.prolog true, 0, rest⟩ [.declaration]
  else scanFrom cs.length ⟨.prolog true, 0, cs⟩ []

/-! ## Nesting -/

/-- The first start tag that opens more than `limit` elements at once comes before any fault. -/
def exceedsDepth (limit : Nat) : Nat → List Token → Bool
  | _, [] => false
  | depth, t :: ts =>
    match t with
    | .startTag _ => limit ≤ depth || exceedsDepth limit (depth + 1) ts
    | .emptyTagEnd | .endTag _ => exceedsDepth limit (depth - 1) ts
    | _ => exceedsDepth limit depth ts

end TradeIntake.Xml
