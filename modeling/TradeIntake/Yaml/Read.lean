import TradeIntake.Field
import TradeIntake.Text.Decimal
import TradeIntake.Text.Hex
import TradeIntake.Yaml.Node

/-!
# Reading records from YAML

A record is a mapping whose keys are scalars, or nothing at all. It may hold entries that the record
does not know, but gives none of its fields twice. Any scalar is a text, as it stands. Numbers and
truth values are plain scalars, or literal ones with the tag of their kind; a number may be written
with base 2, 8 or 16. A plain scalar with the tag of null must stand for nothing; one with another
tag never does.

Aliases are followed where a value is asked for, and only there. What no field asks for may hold
anything.

Stands for the derived readers of the settings, by which `from_yaml` (`src/config.rs`) reads a node.

* **`word?_lt`**: a number that is read fits in the bits asked for.
-/

namespace TradeIntake.Yaml

/-- The value of a run of digits of that base, in either case. -/
def ofDigits? (base : Nat) (cs : List Char) : Option Nat :=
  if cs.isEmpty then none
  else cs.foldl
    (fun acc c => acc.bind fun n => ((Text.Hex.value? c).filter (· < base)).map (base * n + ·))
    (some 0)

/-- The base that the start of a number asks for, and the digits behind. -/
def based : List Char → Option (Nat × List Char)
  | '0' :: 'x' :: cs => some (16, cs)
  | '0' :: 'o' :: cs => some (8, cs)
  | '0' :: 'b' :: cs => some (2, cs)
  | _ => none

/-- A decimal number with a zero in front of other digits is none. -/
def hasLeadingZero : List Char → Bool
  | '0' :: c :: cs => (c :: cs).all Char.isDigit
  | _ => false

/-- The number that a text stands for. -/
def numberOf? (cs : List Char) : Option Nat :=
  let cs := match cs with
    | '+' :: cs => cs
    | cs => cs
  match based cs with
  | some (base, ds) => ofDigits? base ds
  | none => if hasLeadingZero cs then none else ofDigits? 10 cs

/-- The truth value that a text stands for. -/
def boolOf? (s : String) : Option Bool :=
  if ["true", "True", "TRUE"].contains s then some true
  else if ["false", "False", "FALSE"].contains s then some false
  else none

/-- The text stands for nothing. -/
def isNullText (s : String) : Bool :=
  ["null", "Null", "NULL", "~"].contains s

/-- A node of a document. -/
structure Reference where
  targets : List (Nat × Node)
  node : Node

/-- The root of a document. -/
def Document.reference (d : Document) : Reference := ⟨d.targets, d.root⟩

namespace Reference

/-- The node itself, or the one that it is an alias of. -/
def resolve? (r : Reference) : Option Node :=
  match r.node with
  | .alias slot => r.targets.lookup slot
  | n => some n

/-- Any scalar as a text. -/
def text? (r : Reference) : Option String :=
  match r.resolve? with
  | some (.scalar _ _ s) => some s
  | _ => none

/-- The text of a scalar that may stand for a value of a kind with that tag. -/
def literal? (tag : List UInt8) (r : Reference) : Option String :=
  match r.resolve? with
  | some (.scalar .plain _ s) => some s
  | some (.scalar .literal tag? s) => if tag? == some tag then some s else none
  | _ => none

/-- A natural number of at most `bits` bits. -/
def word? (bits : Nat) (r : Reference) : Option Nat :=
  ((r.literal? (kindTag "int")).bind fun s => numberOf? s.toList).filter (Text.Decimal.fits bits)

/-- A truth value. -/
def bool? (r : Reference) : Option Bool :=
  (r.literal? (kindTag "bool")).bind boolOf?

/-- Whether a value stands for nothing; none when its tag says so and its text does not. -/
def null? (r : Reference) : Option Bool :=
  match r.resolve? with
  | some (.scalar .plain none s) => some (s.isEmpty || isNullText s)
  | some (.scalar .plain (some tag) s) =>
    if tag != kindTag "null" then some false else if isNullText s then some true else none
  | some _ => some false
  | none => none

/-- The value of a field among entries, which may be left out but not given twice. -/
def field? (entries : List (String × Reference)) (name : String) : Option (Option Reference) :=
  match entries.filter fun e => e.1 == name with
  | [] => some none
  | [e] => some (some e.2)
  | _ => none

/-- The entries of a mapping whose keys are scalars. -/
def entries? (r : Reference) : Option (List (String × Reference)) :=
  match r.resolve? with
  | some (.mapping pairs) =>
    pairs.mapM fun p => (text? ⟨r.targets, p.1⟩).map fun k => (k, ⟨r.targets, p.2⟩)
  | some (.scalar .plain _ "") => some []
  | _ => none

/-- The values of the named fields. -/
def fields? (names : List String) (r : Reference) : Option (List (Option Reference)) :=
  r.entries?.bind fun entries => names.mapM (field? entries)

/-- How YAML is read. -/
def format : Format Reference where
  fields? := fields?
  text? := text?
  word? := word?
  bool? := bool?
  null? := null?

theorem word?_lt {bits k : Nat} {r : Reference} (h : r.word? bits = some k) : k < 1 <<< bits := by
  have := (Option.filter_eq_some_iff.mp h).2
  simpa [Text.Decimal.fits] using this

end Reference
end TradeIntake.Yaml
