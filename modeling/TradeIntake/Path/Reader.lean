import TradeIntake.Path.Basic
import TradeIntake.Text.Blank

/-!
# Reading paths

`Path.parse` trims the text and reads step after step. The bracket that closes a predicate is the
first one outside quotation marks; only the mark that opened a quotation closes it. Blanks may stand
around the parts of a predicate, and nowhere else.

Model of `Parser` with `parse`, `name` and `predicate` (`crates/ingest/src/path.rs`); its `error` is
the `QueryError` of `crates/ingest/src/error.rs`.

* **`closeBracket_append`**: a predicate's body, its bracket and the rest are the text ahead.
-/

namespace TradeIntake.Path

open TradeIntake.Text

/-- Why a text is no path. -/
inductive Reason where
  | empty
  | noSlash
  | attributeNotLast
  | missingSlash
  | attributeWithoutElement
  | missingName
  | prefixedName
  | openPredicate
  | missingEquals
  | badAttributeName
  | unquotedValue
  | zeroPosition
  | unsupportedPredicate
  deriving Repr, DecidableEq

/-- The wording of a reason. -/
def Reason.message : Reason → String
  | .empty => "empty expression"
  | .noSlash => "path must start with \x60/\x60 or \x60//\x60"
  | .attributeNotLast => "attribute selection must be the final step"
  | .missingSlash => "expected \x60/\x60 between steps"
  | .attributeWithoutElement => "attribute selection needs an element step"
  | .missingName => "expected a name"
  | .prefixedName => "prefixed names are not supported; use local names"
  | .openPredicate => "unterminated predicate"
  | .missingEquals => "attribute predicate needs \x60=\x60"
  | .badAttributeName => "invalid attribute name in predicate"
  | .unquotedValue => "attribute predicate value must be quoted"
  | .zeroPosition => "positions are 1-based"
  | .unsupportedPredicate => "unsupported predicate"

/-- A text that is no path. -/
structure Malformed where
  source : String
  reason : Reason
  deriving Repr, DecidableEq

/-- The wording of a malformed path. -/
def Malformed.message (m : Malformed) : String :=
  "malformed path \x60" ++ m.source ++ "\x60: " ++ m.reason.message

/-! ## Names -/

/-- A star or a run of name characters, and the text after it. -/
def readName : List Char → Except Reason (List Char × List Char)
  | '*' :: cs => .ok (['*'], cs)
  | cs =>
    match cs.span isNameChar with
    | ([], _) => .error .missingName
    | (_, ':' :: _) => .error .prefixedName
    | (name, rest) => .ok (name, rest)

/-! ## Predicates -/

/-- The body up to the closing bracket, and the text after the bracket; `quote` is the mark of the
quotation under way, `acc` the body so far, last character first. -/
def closeBracket (quote : Option Char) : List Char → List Char → Option (List Char × List Char)
  | [], _ => none
  | c :: cs, acc =>
    match quote with
    | some q => closeBracket (if c = q then none else some q) cs (c :: acc)
    | none =>
      if c = ']' then some (acc.reverse, cs)
      else if c = '\'' ∨ c = '"' then closeBracket (some c) cs (c :: acc)
      else closeBracket none cs (c :: acc)

theorem closeBracket_append {quote : Option Char} {cs acc body rest : List Char}
    (h : closeBracket quote cs acc = some (body, rest)) :
    acc.reverse ++ cs = body ++ ']' :: rest := by
  induction cs generalizing quote acc with
  | nil => simp [closeBracket] at h
  | cons c cs ih =>
    unfold closeBracket at h
    split at h
    · simpa using ih h
    · split at h
      · simp only [Option.some.injEq, Prod.mk.injEq] at h
        obtain ⟨rfl, rfl⟩ := h
        simp_all
      · split at h <;> simpa using ih h

/-- The text between one kind of mark at both ends. -/
def stripMarks? (mark : Char) : List Char → Option (List Char)
  | c :: cs => if c = mark ∧ cs.getLast? = some mark then some cs.dropLast else none
  | [] => none

/-- The text of a quoted value. -/
def unquote? (cs : List Char) : Option (List Char) :=
  (stripMarks? '\'' cs).or (stripMarks? '"' cs)

/-- An attribute predicate after the at sign. -/
def readAttributeTest (cs : List Char) : Except Reason Predicate :=
  match cs.span (· != '=') with
  | (_, []) => .error .missingEquals
  | (before, _ :: after) =>
    let name := trimList before
    if name.isEmpty || !name.all isNameChar then .error .badAttributeName
    else match unquote? (trimList after) with
      | some value => .ok (.hasValue (String.ofList name) (String.ofList value))
      | none => .error .unquotedValue

/-- The predicate between two brackets. -/
def readBody (body : List Char) : Except Reason Predicate :=
  match trimList body with
  | '@' :: cs => readAttributeTest cs
  | cs =>
    match Decimal.word? 64 cs with
    | some 0 => .error .zeroPosition
    | some n => .ok (.position n)
    | none => .error .unsupportedPredicate

/-- The predicates ahead, of which there may be none, and the text after them; `fuel` bounds their
number. -/
def readPredicates : Nat → List Char → List Predicate →
    Except Reason (List Predicate × List Char)
  | fuel + 1, '[' :: cs, acc =>
    match closeBracket none cs [] with
    | none => .error .openPredicate
    | some (body, rest) =>
      match readBody body with
      | .ok p => readPredicates fuel rest (p :: acc)
      | .error reason => .error reason
  | _, cs, acc => .ok (acc.reverse, cs)

/-! ## Steps -/

/-- The test that a name stands for. -/
def nameTest (name : List Char) : NameTest :=
  if name = ['*'] then .any else .named (String.ofList name)

/-- The attribute at the end of a path, after the at sign. -/
def readAttribute (steps : List Step) (cs : List Char) : Except Reason Path :=
  match readName cs with
  | .error reason => .error reason
  | .ok (name, []) => .ok ⟨steps.reverse, some (String.ofList name)⟩
  | .ok _ => .error .attributeNotLast

/-- The marks of a step, and the text after them. -/
def readAxis : List Char → Except Reason (Axis × List Char)
  | '/' :: '/' :: cs => .ok (.descendant, cs)
  | '/' :: cs => .ok (.child, cs)
  | _ => .error .missingSlash

/-- The steps ahead; `steps` are those so far, the last one first. Every step takes a character at
least, so as many as there are characters are enough. -/
def readSteps : Nat → List Char → List Step → Except Reason Path
  | _, [], steps => .ok ⟨steps.reverse, none⟩
  | 0, _ :: _, _ => .error .missingSlash
  | fuel + 1, cs, steps =>
    match readAxis cs with
    | .error reason => .error reason
    | .ok (axis, '@' :: rest) =>
      if axis = .descendant ∨ steps = [] then .error .attributeWithoutElement
      else readAttribute steps rest
    | .ok (axis, rest) =>
      match readName rest with
      | .error reason => .error reason
      | .ok (name, rest) =>
        match readPredicates rest.length rest [] with
        | .error reason => .error reason
        | .ok (predicates, rest) =>
          readSteps fuel rest (⟨axis, nameTest name, predicates⟩ :: steps)

/-- The path that trimmed characters stand for. -/
def readList (cs : List Char) : Except Reason Path :=
  match cs with
  | [] => .error .empty
  | c :: _ => if c = '/' then readSteps cs.length cs [] else .error .noSlash

/-- The path that a text stands for. -/
def parse (source : String) : Except Malformed Path :=
  match readList (trimList source.toList) with
  | .ok p => .ok p
  | .error reason => .error ⟨source, reason⟩

end TradeIntake.Path
