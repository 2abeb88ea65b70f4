import TradeIntake.Field
import TradeIntake.Json.Value
import TradeIntake.Spelling
import TradeIntake.Timestamp.Text

/-!
# Reading records from JSON

A record is an object, or an array of its fields in their order. An object may hold members that
the record does not know, but gives none of its fields twice; an array may stop early, but not run
on. A number field takes a literal without sign, point and exponent. A word of an enumeration is a
string, or an object with that one member, null.

Stands for the derived readers and writers of the records and for the JSON library below them, by
which `main` (`src/main.rs`) reads messages and writes results.

* **`fields?_record`**: a record whose fields have different names reads back field by field.
-/

namespace TradeIntake.Json

/-- The value of a field among members, which may be left out but not given twice. -/
def field? (members : List (String × Json)) (name : String) : Option (Option Json) :=
  match members.filter fun m => m.1 == name with
  | [] => some none
  | [m] => some (some m.2)
  | _ => none

/-- The values of the named fields. -/
def fields? (names : List String) : Json → Option (List (Option Json))
  | .object members => names.mapM (field? members)
  | .array items =>
    if items.length ≤ names.length then
      some (items.map some ++ List.replicate (names.length - items.length) none)
    else none
  | _ => none

/-- A text. -/
def text? : Json → Option String
  | .string s => some s
  | _ => none

/-- A natural number of at most `bits` bits. -/
def word? (bits : Nat) : Json → Option Nat
  | .number literal =>
    (Text.Decimal.ofDigits? literal.toList).filter (Text.Decimal.fits bits)
  | _ => none

/-- A truth value. -/
def bool? : Json → Option Bool
  | .bool b => some b
  | _ => none

/-- The value is null. -/
def isNull : Json → Bool
  | .null => true
  | _ => false

/-- Each item of an array. -/
def list? {α : Type} (read : Json → Option α) : Json → Option (List α)
  | .array items => items.mapM read
  | _ => none

/-- The word of an enumeration. -/
def name? : Json → Option String
  | .string s => some s
  | .object [(s, .null)] => some s
  | _ => none

/-- How JSON is read. -/
def format : Format Json where
  fields? := fields?
  text? := text?
  word? := word?
  bool? := bool?
  null? := some ∘ isNull

/-- A value of an enumeration. -/
def spelled? {α : Type} (s : Spelling α) (v : Json) : Option α :=
  (name? v).bind s.read?

/-- A point in time. -/
def timestamp? (v : Json) : Option Timestamp :=
  (text? v).bind Timestamp.parse?

/-- A value that may be left out. -/
def optional? {α : Type} (read : Json → Option α) : Option Json → Option (Option α) :=
  Field.optional (some ∘ isNull) read

/-- A list that is empty when it is left out. -/
def listOrEmpty? {α : Type} (read : Json → Option α) : Option Json → Option (List α) :=
  Field.withDefault [] (list? read)

/-! ## Writing records -/

/-- The members that a record has. -/
def present (fields : List (String × Option Json)) : List (String × Json) :=
  fields.filterMap fun f => f.2.map fun v => (f.1, v)

/-- A record with the fields that have a value. -/
def record (fields : List (String × Option Json)) : Json :=
  .object (present fields)

/-- A value of an enumeration as its word. -/
def ofSpelling {α : Type} (s : Spelling α) (a : α) : Json :=
  .string (s.word a)

/-- A point in time as text. -/
def ofTimestamp (t : Timestamp) : Json :=
  .string t.render

theorem filter_present_of_notMem {name : String} {fields : List (String × Option Json)}
    (h : name ∉ fields.map (·.1)) : (present fields).filter (fun m => m.1 == name) = [] := by
  rw [List.filter_eq_nil_iff]
  intro m hm
  obtain ⟨f, hf, hfm⟩ := List.mem_filterMap.mp hm
  obtain ⟨v, _, rfl⟩ := Option.map_eq_some_iff.mp hfm
  have : f.1 ≠ name := fun e => h (e ▸ List.mem_map_of_mem hf)
  simpa using this

theorem field?_present {fields : List (String × Option Json)} (hd : (fields.map (·.1)).Nodup)
    {f : String × Option Json} (hf : f ∈ fields) : field? (present fields) f.1 = some f.2 := by
  suffices h : (present fields).filter (fun m => m.1 == f.1) =
      (f.2.map fun v => (f.1, v)).toList by
    rw [field?, h]
    cases f.2 <;> rfl
  induction fields with
  | nil => cases hf
  | cons g fields ih =>
    simp only [List.map_cons, List.nodup_cons] at hd
    have hsplit : present (g :: fields) =
        (g.2.map fun v => (g.1, v)).toList ++ present fields := by
      cases h : g.2 <;> simp [present, h]
    rw [hsplit, List.filter_append]
    rcases List.mem_cons.mp hf with rfl | hf
    · rw [filter_present_of_notMem hd.1]
      cases f.2 <;> simp
    · have hne : g.1 ≠ f.1 := fun e => hd.1 (e ▸ List.mem_map_of_mem hf)
      rw [ih hd.2 hf]
      cases g.2 <;> simp [hne]

theorem mapM_eq_some_of_forall {α β γ : Type} {read : α → Option β} {key : γ → α} {val : γ → β}
    (xs : List γ) (h : ∀ x ∈ xs, read (key x) = some (val x)) :
    (xs.map key).mapM read = some (xs.map val) := by
  induction xs with
  | nil => rfl
  | cons x xs ih =>
    simp [List.mapM_cons, h x (by simp), ih fun y hy => h y (by simp [hy])]

theorem fields?_record {names : List String} {fields : List (String × Option Json)}
    (hn : fields.map (·.1) = names) (hd : names.Nodup) :
    fields? names (record fields) = some (fields.map (·.2)) := by
  subst hn
  exact mapM_eq_some_of_forall fields fun _ hf => field?_present hd hf

@[simp] theorem required_some {α : Type} (read : Json → Option α) (v : Json) :
    Field.required read (some v) = read v := rfl

@[simp] theorem withDefault_some {α : Type} (default : α) (read : Json → Option α) (v : Json) :
    Field.withDefault default read (some v) = read v := rfl

@[simp] theorem text?_string (s : String) : text? (.string s) = some s := rfl

@[simp] theorem bool?_bool (b : Bool) : bool? (.bool b) = some b := rfl

@[simp] theorem spelled?_ofSpelling {α : Type} (s : Spelling α) (a : α) :
    spelled? s (ofSpelling s a) = some a :=
  s.read?_word a

/-- What is left out, or written so that it is not null, reads back. -/
theorem optional?_map {α : Type} {read : Json → Option α} {write : α → Json}
    (hn : ∀ a, isNull (write a) = false) {a? : Option α} (h : ∀ a ∈ a?, read (write a) = some a) :
    optional? read (a?.map write) = some a? := by
  cases a? with
  | none => rfl
  | some a => simp [optional?, Field.optional, hn, h]

@[simp] theorem optional?_map_string (s? : Option String) :
    optional? text? (s?.map .string) = some s? :=
  optional?_map (fun _ => rfl) fun _ _ => rfl

theorem list?_array_map {α : Type} {read : Json → Option α} {write : α → Json} {xs : List α}
    (h : ∀ x ∈ xs, read (write x) = some x) :
    list? read (.array (xs.map write)) = some xs := by
  have hm : (xs.map write).mapM read = some (xs.map id) := mapM_eq_some_of_forall xs h
  simpa [list?] using hm

theorem listOrEmpty?_map {α : Type} {read : Json → Option α} {write : α → Json} {xs : List α}
    (h : ∀ x ∈ xs, read (write x) = some x) :
    listOrEmpty? read (some (.array (xs.map write))) = some xs :=
  list?_array_map h

end TradeIntake.Json
