import TradeIntake.Document.Copy
import TradeIntake.IngestFailure
import TradeIntake.Settings.Ingest
import TradeIntake.Text.Utf8

/-!
# Documents

A document is read from bytes in steps, each of which may refuse it: one byte order mark goes, the
bytes must be UTF-8, the tokens must be well formed and nested within the limit, the tree must be
built within the limit on nodes, and its copy into elements watches the nesting once more. The
limit on nesting is never more than `maxDepthLimit`.

Model of `parse_xml` (`crates/ingest/src/document.rs`), whose `check_depth` is `checkTokens`, and of
`root_name`, `find_first` and `contains_element` of the document that it yields.
-/

namespace TradeIntake

/-- A document. -/
structure Document where
  root : Element
  /-- How many bytes it was read from, without the byte order mark. -/
  byteLength : Nat
  elementCount : Nat

namespace Document

/-- Leave out one byte order mark. -/
def withoutMark : List UInt8 → List UInt8
  | 0xEF :: 0xBB :: 0xBF :: bytes => bytes
  | bytes => bytes

/-- The limit on nesting that settings amount to. -/
def depthLimit (settings : IngestSettings) : Nat :=
  min settings.maxDepth maxDepthLimit

/-- Check the nesting and the form of tokens; what comes first in the text counts. -/
def checkTokens (limit : Nat) (s : Xml.Scanned) : Except IngestFailure Unit :=
  if Xml.exceedsDepth limit 0 s.tokens then .error (.tooDeep limit)
  else match s.fault with
    | some fault => .error (.malformed fault.message)
    | none => .ok ()

/-- The document whose root a node is. -/
def ofNode (limit byteLength : Nat) (root : Xml.Node) : Except IngestFailure Document :=
  match copy limit root with
  | .ok (root, count) => .ok ⟨root, byteLength, count⟩
  | .error .tooDeep => .error (.tooDeep limit)
  | .error .noRoot => .error (.malformed Xml.Fault.noRoot.message)

/-- The document that a text holds. -/
def ofText (settings : IngestSettings) (byteLength : Nat) (text : List Char) :
    Except IngestFailure Document :=
  let limit := depthLimit settings
  let scanned := Xml.scan text
  match checkTokens limit scanned with
  | .error failure => .error failure
  | .ok () =>
    match Xml.Node.ofTokens settings.maxNodes scanned.tokens with
    | .error fault => .error (.malformed fault.message)
    | .ok root => ofNode limit byteLength root

/-- The document that bytes hold. -/
def parse (settings : IngestSettings) (bytes : List UInt8) : Except IngestFailure Document :=
  let bytes := withoutMark bytes
  match Text.Utf8.decode bytes with
  | .error fault => .error (.malformed ("content is not valid UTF-8: " ++ fault.message))
  | .ok text => ofText settings bytes.length text

/-- The local name of the root. -/
def rootName (d : Document) : String :=
  d.root.name

/-- The first element of that local name, in document order. -/
def findFirst? (d : Document) (name : String) : Option Located :=
  d.root.all.find? fun x => x.element.name == name

/-- Some element has that local name. -/
def containsElement (d : Document) (name : String) : Bool :=
  (d.findFirst? name).isSome

end Document
end TradeIntake
