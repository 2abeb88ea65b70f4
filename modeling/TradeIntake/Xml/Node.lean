import TradeIntake.Xml.CharacterData
import TradeIntake.Xml.Token

/-!
# The tree of a document

`ofTokens` builds the root element from tokens: it matches tags, resolves prefixes and references,
refuses document types, and counts nodes. The document itself, each element, comment and
instruction, and each run of text count as one node; a run joins text and character data that
nothing stands between.

Prefixes are resolved through the bindings of the element and those around it, the element's own
first. An attribute without prefix is in no namespace.

Stands for the tree that `parse_xml` (`crates/ingest/src/document.rs`) has built before it is
copied.
-/

namespace TradeIntake.Xml

/-- The namespace that the prefix `xml` always stands for. -/
def xmlNamespace : String := "http://www.w3.org/XML/1998/namespace"

/-- The namespace of declarations, which may not be bound. -/
def xmlnsNamespace : String := "http://www.w3.org/2000/xmlns/"

/-- An attribute by its local name. -/
structure Attribute where
  name : String
  value : String
  deriving Repr, DecidableEq

/-- The start tag of an element with its names resolved. -/
structure Head where
  name : String
  namespaceUri? : Option String
  attributes : List Attribute
  deriving Repr, DecidableEq

/-- A node of a document. -/
inductive Node where
  | element (head : Head) (children : List Node)
  | text (value : String)
  | comment
  | instruction
  deriving Repr, Inhabited

/-- What prefixes stand for, the innermost binding first; the empty prefix is the default. -/
abbrev Bindings := List (String × String)

/-! ## Start tags -/

/-- A start tag under way. -/
structure StartTag where
  name : QName
  /-- The attributes but declarations, the last one first. -/
  attributes : List (QName × String)
  /-- The declarations, the first one first. -/
  bindings : Bindings

/-- Bind a prefix that is not empty. -/
def StartTag.bind (t : StartTag) (name uri : String) : Except Fault StartTag :=
  if uri == xmlnsNamespace then .error (.reservedNamespace uri)
  else if name == "xml" then
    if uri == xmlNamespace then .ok t else .error (.reservedPrefix name)
  else if uri == xmlNamespace then .error (.reservedNamespace uri)
  else if t.bindings.any fun b => b.1 == name then .error (.repeatedPrefix name)
  else .ok { t with bindings := t.bindings ++ [(name, uri)] }

/-- Bind the empty prefix. -/
def StartTag.bindDefault (t : StartTag) (uri : String) : Except Fault StartTag :=
  if uri == xmlnsNamespace || uri == xmlNamespace then .error (.reservedNamespace uri)
  else .ok { t with bindings := t.bindings ++ [("", uri)] }

/-- Add an attribute, which may be a declaration. -/
def StartTag.push (t : StartTag) (name : QName) (value : List Char) : Except Fault StartTag :=
  match attributeText value with
  | .error fault => .error fault
  | .ok chars =>
    let value := String.ofList chars
    if name.space == "xmlns" then t.bind name.localName value
    else if name.localName == "xmlns" then t.bindDefault value
    else .ok { t with attributes := (name, value) :: t.attributes }

/-- The namespace that a prefix stands for; none for an empty prefix without binding. -/
def namespaceOf (bindings : Bindings) (name : String) : Except Fault (Option String) :=
  match bindings.find? fun b => b.1 == name with
  | some b => .ok (some b.2)
  | none => if name.isEmpty then .ok none else .error (.unknownPrefix name)

/-- The namespace of an attribute. -/
def attributeNamespace (bindings : Bindings) (name : QName) : Except Fault (Option String) :=
  if name.space == "xml" then .ok (some xmlNamespace)
  else if name.space.isEmpty then .ok none
  else namespaceOf bindings name.space

/-- The attributes in their order; no two share a namespace and a local name. -/
def resolveAttributes (bindings : Bindings) :
    List (QName × String) → List (Option String × String) → List Attribute →
      Except Fault (List Attribute)
  | [], _, acc => .ok acc.reverse
  | (name, value) :: rest, seen, acc =>
    match attributeNamespace bindings name with
    | .error fault => .error fault
    | .ok space =>
      let key := (space, name.localName)
      if seen.contains key then .error (.repeatedAttribute name.toString)
      else resolveAttributes bindings rest (key :: seen) (⟨name.localName, value⟩ :: acc)

/-- The resolved start tag, where `bindings` are its own and those around it. -/
def StartTag.head (t : StartTag) (bindings : Bindings) : Except Fault Head :=
  match resolveAttributes bindings t.attributes.reverse [] [] with
  | .error fault => .error fault
  | .ok attributes =>
    match namespaceOf bindings t.name.space with
    | .error fault => .error fault
    | .ok namespaceUri? => .ok ⟨t.name.localName, namespaceUri?, attributes⟩

/-! ## Building -/

/-- An element whose end tag has not come yet. -/
structure OpenElement where
  name : QName
  head : Head
  bindings : Bindings
  /-- The children so far, the last one first. -/
  children : List Node

/-- A tree under way. -/
structure Builder where
  /-- How many nodes there are. -/
  nodes : Nat
  /-- The start tag being read. -/
  tag : Option StartTag
  /-- The open elements, the innermost first. -/
  opened : List OpenElement
  root : Option Node

/-- The start, with the document as the only node. -/
def Builder.empty : Builder := ⟨1, none, [], none⟩

/-- Count one more node, up to a limit. -/
def Builder.count (limit : Nat) (b : Builder) : Except Fault Builder :=
  if limit ≤ b.nodes then .error .tooManyNodes else .ok { b with nodes := b.nodes + 1 }

/-- Put a whole node into the innermost open element, or at the top. -/
def Builder.place (n : Node) (b : Builder) : Builder :=
  match b.opened with
  | [] =>
    match n with
    | .element .. => { b with root := some n }
    | _ => b
  | e :: rest => { b with opened := { e with children := n :: e.children } :: rest }

/-- Text of the innermost open element; it joins a run that it follows. -/
def Builder.pushText (limit : Nat) (chars : List Char) (b : Builder) : Except Fault Builder :=
  match b.opened with
  | [] => .error (.expected "markup")
  | e :: rest =>
    match e.children with
    | .text before :: children =>
      let joined := .text (before ++ String.ofList chars)
      .ok { b with opened := { e with children := joined :: children } :: rest }
    | _ => (b.count limit).map (Builder.place (.text (String.ofList chars)))

/-- The end of a start tag. -/
def Builder.closeTag (limit : Nat) (isEmpty : Bool) (b : Builder) : Except Fault Builder :=
  match b.tag with
  | none => .error (.expected "start tag")
  | some t =>
    let around := match b.opened with
      | [] => []
      | e :: _ => e.bindings
    let bindings := t.bindings ++ around
    match t.head bindings with
    | .error fault => .error fault
    | .ok head =>
      (Builder.count limit { b with tag := none }).map fun b =>
        if isEmpty then b.place (.element head [])
        else { b with opened := ⟨t.name, head, bindings, []⟩ :: b.opened }

/-- An end tag. -/
def Builder.closeElement (name : QName) (b : Builder) : Except Fault Builder :=
  match b.opened with
  | [] => .error (.mismatchedTag name.toString)
  | e :: rest =>
    if e.name = name then
      .ok (Builder.place (.element e.head e.children.reverse) { b with opened := rest })
    else .error (.mismatchedTag name.toString)

/-- Take in one token. -/
def Builder.push (limit : Nat) (b : Builder) : Token → Except Fault Builder
  | .declaration => .ok b
  | .doctype => .error .doctype
  | .comment => (b.count limit).map (Builder.place .comment)
  | .instruction => (b.count limit).map (Builder.place .instruction)
  | .startTag name =>
    if name.space == "xmlns" then .error (.reservedPrefix name.space)
    else if b.opened.isEmpty && b.root.isSome then .error (.expected "end of text")
    else .ok { b with tag := some ⟨name, [], []⟩ }
  | .attribute name value =>
    match b.tag with
    | none => .error (.expected "start tag")
    | some t => (t.push name value).map fun t => { b with tag := some t }
  | .tagEnd => b.closeTag limit false
  | .emptyTagEnd => b.closeTag limit true
  | .endTag name => b.closeElement name
  | .text value =>
    match textValue value with
    | .error fault => .error fault
    | .ok chars => b.pushText limit chars
  | .cdata value => b.pushText limit (cdataText value)

/-- Take in the tokens one after another. -/
def Builder.run (limit : Nat) : Builder → List Token → Except Fault Builder
  | b, [] => .ok b
  | b, t :: ts =>
    match b.push limit t with
    | .error fault => .error fault
    | .ok b => b.run limit ts

/-- The root, once every element is closed. -/
def Builder.finish (b : Builder) : Except Fault Node :=
  if b.opened.isEmpty && b.tag.isNone then
    match b.root with
    | some root => .ok root
    | none => .error .noRoot
  else .error .unclosedRoot

/-- The root element of a document of at most `limit` nodes. -/
def Node.ofTokens (limit : Nat) (ts : List Token) : Except Fault Node :=
  match Builder.empty.run limit ts with
  | .error fault => .error fault
  | .ok b => b.finish

end TradeIntake.Xml
