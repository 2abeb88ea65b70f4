/-!
# Reading the fields of a record

A record is read from a value of some format. The format says which value each named field has,
none where it is left out, and how a single value is taken for a text, a number or a truth value.
A field is then *required*, *optional* (left out and null both mean none), or has a *default* (left
out means the default, and null is refused).

Stands for the readers that are derived for the fields of the records, such as those of
`IncomingMessage` (`crates/ingest/src/types.rs`) and of the settings.
-/

namespace TradeIntake

/-- How values of type `ν` are read. -/
structure Format (ν : Type) where
  /-- The values of the named fields, in the order of the names; none when the value is no record
  or gives one of them twice. -/
  fields? : List String → ν → Option (List (Option ν))
  /-- The value as a text. -/
  text? : ν → Option String
  /-- The value as a natural number of at most so many bits. -/
  word? : Nat → ν → Option Nat
  /-- The value as a truth value. -/
  bool? : ν → Option Bool
  /-- Whether the value stands for none where a field is optional; none when it claims to, but does
  not. -/
  null? : ν → Option Bool

namespace Field

variable {ν α : Type}

/-- The field must be there. -/
def required (read : ν → Option α) (value : Option ν) : Option α :=
  value.bind read

/-- A field that is left out has the given value. -/
def withDefault (default : α) (read : ν → Option α) : Option ν → Option α
  | none => some default
  | some v => read v

/-- A field that is left out or null is none. -/
def optional (null? : ν → Option Bool) (read : ν → Option α) : Option ν → Option (Option α)
  | none => some none
  | some v => (null? v).bind fun isNull => if isNull then some none else (read v).map some

end Field
end TradeIntake
