import TradeIntake.Text.Utf8
import TradeIntake.Yaml.Token

/-!
# YAML nodes

A text holds at most one document, which is a node: a scalar, a sequence or a mapping. An alias
stands for another node, which may be one that it is part of, and is followed only when a document is
read.

Anchors are kept in slots. An anchor goes to the slot whose number is how many different names were
given before, so that a name that is given again gets a new slot, which it may have to share with the
next new name. An alias stands for the node that is in the slot of its name in the end.

Stands for the parser behind `from_yaml` (`src/config.rs`), anchors and aliases included.
-/

namespace TradeIntake.Yaml

/-- A node of a document. -/
inductive Node where
  /-- A scalar, with its resolved tag if it has one. -/
  | scalar (style : Style) (tag? : Option (List UInt8)) (text : String)
  | sequence (items : List Node)
  | mapping (pairs : List (Node × Node))
  | alias (slot : Nat)

/-- What the tags of a kind of scalars start with. -/
def kindTag (kind : String) : List UInt8 :=
  Text.Utf8.encode ("tag:yaml.org,2002:" ++ kind)

/-- A document. -/
structure Document where
  root : Node
  /-- The nodes in the slots, the last one first that was put there. -/
  targets : List (Nat × Node)

/-- What tags and aliases stand for. -/
structure Scope where
  /-- The handles that directives declare. -/
  handles : List (List Char × List UInt8)
  /-- The slot of each name. -/
  slots : List (List Char × Nat) := []
  /-- The number of the anchor that is in each slot, the last one first. -/
  holders : List (Nat × Nat) := []
  /-- How many anchors there are so far. -/
  count : Nat := 0
  /-- The anchored nodes that have been read, by the number of their anchors. -/
  nodes : List (Nat × Node) := []

namespace Scope

/-- The handles that need no declaration. -/
def standard : Scope where
  handles := [(['!'], ['!'.toUInt8]), (['!', '!'], kindTag "")]

/-- The tag that a handle and a suffix stand for. -/
def resolve? (s : Scope) (handle : List Char) (suffix : List UInt8) : Option (List UInt8) :=
  if handle.isEmpty then some suffix else (s.handles.lookup handle).map (· ++ suffix)

/-- Put the anchor of a node that starts here into its slot. -/
def begin (name? : Option (List Char)) (s : Scope) : Scope :=
  match name? with
  | some name =>
    let slot := s.slots.length
    { s with
      slots := (name, slot) :: s.slots.filter fun x => x.1 != name
      holders := (slot, s.count) :: s.holders
      count := s.count + 1 }
  | none => s

/-- Keep a node that has been read, if it has an anchor, under the number of that. -/
def keep (name? : Option (List Char)) (number : Nat) (n : Node) (s : Scope) : Scope :=
  if name?.isSome then { s with nodes := (number, n) :: s.nodes } else s

/-- The nodes in the slots. -/
def targets (s : Scope) : List (Nat × Node) :=
  s.holders.filterMap fun x => (s.nodes.lookup x.2).map fun n => (x.1, n)

end Scope

/-- What stands in front of a node. -/
structure Properties where
  anchor? : Option (List Char) := none
  tag? : Option (List Char × List UInt8) := none

/-- The properties ahead: an anchor and a tag in either order. -/
def Properties.read : List Token → Properties × List Token
  | .anchor a :: .tag h s :: ts => (⟨some a, some (h, s)⟩, ts)
  | .tag h s :: .anchor a :: ts => (⟨some a, some (h, s)⟩, ts)
  | .anchor a :: ts => (⟨some a, none⟩, ts)
  | .tag h s :: ts => (⟨none, some (h, s)⟩, ts)
  | ts => ({}, ts)

/-- There are properties. -/
def Properties.isSome (p : Properties) : Bool := p.anchor?.isSome || p.tag?.isSome

/-- The tag of the properties. -/
def Properties.tagIn? (p : Properties) (s : Scope) : Option (Option (List UInt8)) :=
  match p.tag? with
  | some (handle, suffix) => (s.resolve? handle suffix).map some
  | none => some none

/-- Where a node stands, which says what it may be. -/
inductive Position where
  /-- In a flow collection: no block collection. -/
  | flow
  /-- In a block sequence or at the top. -/
  | block
  /-- In a block mapping: also a block sequence that is not indented. -/
  | entry
  deriving DecidableEq

namespace Node

/-- Nothing where a node could be. -/
def empty (tag? : Option (List UInt8)) : Node := .scalar .plain tag? ""

/-- A step of the reading: the scope and the tokens that are left. -/
abbrev Step (α : Type) := Option (α × Scope × List Token)

/-- No value follows the mark of a key or a value in a block mapping. -/
def isVacant : List Token → Bool
  | .key :: _ | .value :: _ | .blockEnd :: _ => true
  | _ => false

/-- No entry follows the dash in a sequence that is not indented. -/
def isVacantItem : List Token → Bool
  | .blockEntry :: _ => true
  | ts => isVacant ts

/-- No value follows in a flow collection that ends with that token. -/
def isVacantIn (close : Token) : List Token → Bool
  | t :: _ => t == .flowEntry || t == close
  | [] => false

/-- Skip the comma that must stand between two entries; `first` is true before the first. -/
def skipComma? (first : Bool) (ts : List Token) : Option (List Token) :=
  if first then some ts
  else match ts with
    | .flowEntry :: ts => some ts
    | _ => none

mutual

/-- The node ahead. -/
def read (pos : Position) : Nat → Scope → List Token → Step Node
  | 0, _, _ => none
  | _ + 1, scope, .alias name :: ts =>
    (scope.slots.lookup name).map fun slot => (.alias slot, scope, ts)
  | fuel + 1, scope, ts =>
    let (properties, ts) := Properties.read ts
    match properties.tagIn? scope with
    | none => none
    | some tag? =>
      let name? := properties.anchor?
      match readContent pos tag? properties.isSome fuel (scope.begin name?) ts with
      | none => none
      | some (n, after, ts) => some (n, after.keep name? scope.count n, ts)
termination_by structural fuel => fuel

/-- The node behind its properties; with properties it may be left out. -/
def readContent (pos : Position) (tag? : Option (List UInt8)) (optional : Bool) :
    Nat → Scope → List Token → Step Node
  | 0, _, _ => none
  | fuel + 1, scope, ts =>
    let collect {α : Type} (build : List α → Node) : Step (List α) → Step Node :=
      Option.map fun (xs, scope, ts) => (build xs.reverse, scope, ts)
    let rest := ts.drop 1
    match ts.head? with
    | some (.scalar style text) => some (.scalar style tag? (String.ofList text), scope, rest)
    | some .flowSequence => collect .sequence (readFlowItems true fuel scope rest [])
    | some .flowMapping => collect .mapping (readFlowPairs true fuel scope rest [])
    | t =>
      if t == some .blockEntry && pos == .entry then
        collect .sequence (readLooseItems fuel scope ts [])
      else if t == some .blockSequence && pos != .flow then
        collect .sequence (readItems fuel scope rest [])
      else if t == some .blockMapping && pos != .flow then
        collect .mapping (readPairs fuel scope rest [])
      else if optional then some (.empty tag?, scope, ts)
      else none
termination_by structural fuel => fuel

/-- The entries of a block sequence, the last one first. -/
def readItems : Nat → Scope → List Token → List Node → Step (List Node)
  | 0, _, _, _ => none
  | fuel + 1, scope, ts, acc =>
    match ts with
    | .blockEnd :: rest => some (acc, scope, rest)
    | .blockEntry :: rest =>
      let vacant := match rest with
        | .blockEntry :: _ | .blockEnd :: _ => true
        | _ => false
      if vacant then readItems fuel scope rest (.empty none :: acc)
      else match read .block fuel scope rest with
        | some (n, scope, rest) => readItems fuel scope rest (n :: acc)
        | none => none
    | _ => none
termination_by structural fuel => fuel

/-- The entries of a block sequence that is not indented, the last one first. -/
def readLooseItems : Nat → Scope → List Token → List Node → Step (List Node)
  | 0, _, _, _ => none
  | fuel + 1, scope, ts, acc =>
    match ts with
    | .blockEntry :: rest =>
      if isVacantItem rest then readLooseItems fuel scope rest (.empty none :: acc)
      else match read .block fuel scope rest with
        | some (n, scope, rest) => readLooseItems fuel scope rest (n :: acc)
        | none => none
    | ts => some (acc, scope, ts)
termination_by structural fuel => fuel

/-- The pairs of a block mapping, the last one first. -/
def readPairs : Nat → Scope → List Token → List (Node × Node) → Step (List (Node × Node))
  | 0, _, _, _ => none
  | fuel + 1, scope, ts, acc =>
    match ts with
    | .blockEnd :: rest => some (acc, scope, rest)
    | .key :: rest =>
      match readEntry fuel scope rest with
      | none => none
      | some (k, scope, rest) =>
        match rest with
        | .value :: rest =>
          match readEntry fuel scope rest with
          | some (v, scope, rest) => readPairs fuel scope rest ((k, v) :: acc)
          | none => none
        | rest => readPairs fuel scope rest ((k, .empty none) :: acc)
    | _ => none
termination_by structural fuel => fuel

/-- A key or a value of a block mapping, which may be left out. -/
def readEntry : Nat → Scope → List Token → Step Node
  | 0, _, _ => none
  | fuel + 1, scope, ts =>
    if isVacant ts then some (.empty none, scope, ts) else read .entry fuel scope ts
termination_by structural fuel => fuel

/-- The entries of a flow sequence, the last one first. -/
def readFlowItems (first : Bool) : Nat → Scope → List Token → List Node → Step (List Node)
  | 0, _, _, _ => none
  | _ + 1, scope, .flowSequenceEnd :: rest, acc => some (acc, scope, rest)
  | fuel + 1, scope, ts, acc =>
    match skipComma? first ts with
    | none => none
    | some (.flowSequenceEnd :: rest) => some (acc, scope, rest)
    | some (.key :: rest) =>
      match readFlowPair fuel scope rest with
      | some (n, scope, rest) => readFlowItems false fuel scope rest (n :: acc)
      | none => none
    | some ts =>
      match read .flow fuel scope ts with
      | some (n, scope, rest) => readFlowItems false fuel scope rest (n :: acc)
      | none => none
termination_by structural fuel => fuel

/-- The single pair of a mapping that is an entry of a flow sequence. Where its key is left out, the
token that shows this is skipped. -/
def readFlowPair : Nat → Scope → List Token → Step Node
  | 0, _, _ => none
  | fuel + 1, scope, ts =>
    let key := match ts with
      | .value :: rest => some (Node.empty none, scope, rest)
      | ts =>
        if isVacantIn .flowSequenceEnd ts then some (Node.empty none, scope, ts.drop 1)
        else read .flow fuel scope ts
    match key with
    | none => none
    | some (k, scope, ts) =>
      match readFlowValue .flowSequenceEnd fuel scope ts with
      | some (v, scope, ts) => some (.mapping [(k, v)], scope, ts)
      | none => none
termination_by structural fuel => fuel

/-- The value behind a key of a flow collection that ends with that token; it may be left out. -/
def readFlowValue (close : Token) : Nat → Scope → List Token → Step Node
  | 0, _, _ => none
  | fuel + 1, scope, ts =>
    match ts with
    | .value :: rest =>
      if isVacantIn close rest then some (.empty none, scope, rest) else read .flow fuel scope rest
    | ts => some (.empty none, scope, ts)
termination_by structural fuel => fuel

/-- The pairs of a flow mapping, the last one first. -/
def readFlowPairs (first : Bool) :
    Nat → Scope → List Token → List (Node × Node) → Step (List (Node × Node))
  | 0, _, _, _ => none
  | _ + 1, scope, .flowMappingEnd :: rest, acc => some (acc, scope, rest)
  | fuel + 1, scope, ts, acc =>
    match skipComma? first ts with
    | none => none
    | some (.flowMappingEnd :: rest) => some (acc, scope, rest)
    | some (.key :: rest) =>
      let key := match rest with
        | .value :: _ => some (Node.empty none, scope, rest)
        | rest =>
          if isVacantIn .flowMappingEnd rest then some (Node.empty none, scope, rest)
          else read .flow fuel scope rest
      match key with
      | none => none
      | some (k, scope, rest) =>
        match readFlowValue .flowMappingEnd fuel scope rest with
        | some (v, scope, rest) => readFlowPairs false fuel scope rest ((k, v) :: acc)
        | none => none
    | some ts =>
      match read .flow fuel scope ts with
      | some (k, scope, rest) => readFlowPairs false fuel scope rest ((k, .empty none) :: acc)
      | none => none
termination_by structural fuel => fuel

end

/-! ## Documents -/

/-- The directives in front of a document; a version or a handle is given once. -/
def readDirectives (versioned : Bool) (handles : List (List Char × List UInt8)) :
    List Token → Option (List (List Char × List UInt8) × List Token)
  | .version major minor :: ts =>
    if versioned || major != 1 || (minor != 1 && minor != 2) then none
    else readDirectives true handles ts
  | .tagHandle handle uri :: ts =>
    if (handles.lookup handle).isSome then none
    else readDirectives versioned ((handle, uri) :: handles) ts
  | ts => some (handles, ts)

/-- The document has no content. -/
def isBare : List Token → Bool
  | [] | .version .. :: _ | .tagHandle .. :: _ | .documentStart :: _ | .documentEnd :: _ => true
  | _ => false

/-- Nothing but marks of the document's end. -/
def isOver (ts : List Token) : Bool := ts.all (· == .documentEnd)

/-- The only document, with its content ahead. -/
def readDocument (scope : Scope) (ts : List Token) : Option Document :=
  match read .block (3 * ts.length + 3) scope ts with
  | some (n, scope, rest) => if isOver rest then some ⟨n, scope.targets⟩ else none
  | none => none

end Node

namespace Document

/-- The document without content. -/
def empty : Document := ⟨.empty none, []⟩

/-- The only document of a text, an empty one when there is none. -/
def ofTokens? : List Token → Option Document
  | [] => some empty
  | ts =>
    match Node.readDirectives false [] ts with
    | none => none
    | some (handles, .documentStart :: rest) =>
      let scope := { Scope.standard with handles := handles ++ Scope.standard.handles }
      if Node.isBare rest then if Node.isOver rest then some empty else none
      else Node.readDocument scope rest
    | some (_, rest) => if rest.length = ts.length then Node.readDocument .standard ts else none

/-- The only document of a text. -/
def parse? (text : String) : Option Document :=
  (scan? text.toList).bind ofTokens?

end Document
end TradeIntake.Yaml
