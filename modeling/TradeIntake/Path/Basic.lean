import TradeIntake.Text.Alphanumeric
import TradeIntake.Text.Decimal

/-!
# Paths

A path leads through a document by local names: one or more steps to children or descendants, each
with predicates, and at the end perhaps the attribute that is meant. `render` writes it, with
apostrophes around the values of predicates.

Model of `LocalPath` with its `Step`, `Axis`, `NameTest` and `Predicate`, of how it is displayed,
and of `is_name_char` (`crates/ingest/src/path.rs`).
-/

namespace TradeIntake

/-- Where a step leads. -/
inductive Axis where
  | child
  | descendant
  deriving Repr, DecidableEq

/-- Which names a step admits. -/
inductive NameTest where
  | any
  | named (name : String)
  deriving Repr, DecidableEq

/-- Which of its elements a step keeps. -/
inductive Predicate where
  /-- The element at that place among them, from one. -/
  | position (n : Nat)
  /-- The elements with that value of the attribute. -/
  | hasValue (name value : String)
  deriving Repr, DecidableEq

/-- One step of a path. -/
structure Step where
  axis : Axis
  test : NameTest
  predicates : List Predicate
  deriving Repr, DecidableEq

/-- A path. -/
structure Path where
  steps : List Step
  /-- The attribute that is meant, if not the text. -/
  attribute? : Option String
  deriving Repr, DecidableEq

namespace Path

/-- A letter, a number, or one of three marks. -/
def isNameChar (c : Char) : Bool :=
  Text.isAlphanumeric c || c == '_' || c == '-' || c == '.'

/-! ## Writing -/

/-- The marks in front of a step. -/
def renderAxis : Axis → List Char
  | .child => ['/']
  | .descendant => ['/', '/']

/-- A test as it is written. -/
def renderTest : NameTest → List Char
  | .any => ['*']
  | .named name => name.toList

/-- A predicate with its brackets. -/
def renderPredicate : Predicate → List Char
  | .position n => '[' :: Text.Decimal.toDigits n ++ [']']
  | .hasValue name value => '[' :: '@' :: name.toList ++ '=' :: '\'' :: value.toList ++ ['\'', ']']

/-- A step as it is written. -/
def renderStep (s : Step) : List Char :=
  renderAxis s.axis ++ renderTest s.test ++ s.predicates.flatMap renderPredicate

/-- The end of a path. -/
def renderAttribute : Option String → List Char
  | some name => '/' :: '@' :: name.toList
  | none => []

/-- The characters of a path. -/
def renderList (p : Path) : List Char :=
  p.steps.flatMap renderStep ++ renderAttribute p.attribute?

/-- The text of a path. -/
def render (p : Path) : String :=
  String.ofList p.renderList

end Path
end TradeIntake
