import TradeIntake.Proofs.Json.Text
import TradeIntake.Proofs.Timestamp.RoundTrip
import TradeIntake.Record

/-!
# Records read back

A record is written with the fields that have a value, and what is written of it is tidy
(`Json.Tidy`): no field is null, and no object gives a name twice. So a field that was left out is
read as absent, and every other one under the name that it was written with. Only timestamps and
numbers ask for more: a timestamp reads back when its year needs no sign and it is not in a leap
second, a size when it has no more than 64 bits.

* **`tidy_record`**: different names and tidy values make a tidy record.
* **`Message.ofJson?_toJson`**, **`Result.ofJson?_toJson`**, **`Record.ofJson?_toJson`**: what is
  written reads back.
* **`wire_roundTrip`**: so does its text.
-/

namespace TradeIntake

namespace Json

/-! ## Tidy values -/

/-- **A tidy value**: nothing in it is null or unreadable, every number is a literal, and no object
gives a name twice. -/
inductive Tidy : Json → Prop
  | bool (b : Bool) : Tidy (.bool b)
  | number (literal : String) (h : isNumber literal.toList = true) : Tidy (.number literal)
  | string (s : String) : Tidy (.string s)
  | array (items : List Json) (h : ∀ v ∈ items, Tidy v) : Tidy (.array items)
  | object (members : List (String × Json)) (hn : (members.map (·.1)).Nodup)
      (h : ∀ m ∈ members, Tidy m.2) : Tidy (.object members)

theorem Tidy.wellFormed {v : Json} (h : Tidy v) : WellFormed v := by
  induction h with
  | bool b => exact .bool b
  | number literal hl => exact .number literal hl
  | string s => exact .string s
  | array items _ ih => exact .array items ih
  | object members _ _ ih => exact .object members ih

theorem present_keys_sublist (fields : List (String × Option Json)) :
    ((present fields).map (·.1)).Sublist (fields.map (·.1)) := by
  induction fields with
  | nil => exact .slnil
  | cons f fields ih =>
    unfold present at ih ⊢
    rw [List.filterMap_cons]
    cases f.2 with
    | none => exact ih.cons _
    | some v => exact ih.cons_cons _

/-- **A record is tidy** when its fields have different names and tidy values. -/
theorem tidy_record {fields : List (String × Option Json)} (hn : (fields.map (·.1)).Nodup)
    (h : ∀ f ∈ fields, ∀ v ∈ f.2, Tidy v) : Tidy (record fields) := by
  refine .object _ ((present_keys_sublist fields).nodup hn) fun m hm => ?_
  obtain ⟨f, hf, hfm⟩ := List.mem_filterMap.mp hm
  obtain ⟨v, hv, rfl⟩ := Option.map_eq_some_iff.mp hfm
  exact h f hf v hv

theorem tidy_array_map {α : Type} {write : α → Json} {xs : List α} (h : ∀ x ∈ xs, Tidy (write x)) :
    Tidy (.array (xs.map write)) := by
  refine .array _ fun v hv => ?_
  obtain ⟨x, hx, rfl⟩ := List.mem_map.mp hv
  exact h x hx

/-! ## Single values -/

/-- A number other than zero is written without a leading zero. -/
theorem exists_toDigits_eq_cons {n : Nat} (h : 0 < n) :
    ∃ d ds, Text.Decimal.toDigits n = d :: ds ∧ d ≠ '0' := by
  unfold Text.Decimal.toDigits
  induction n using Nat.strongRecOn with
  | ind n ih =>
    rw [Nat.toDigits_eq_if (by decide)]
    split
    · exact ⟨_, [], rfl, fun h0 => by simp at h0; omega⟩
    · obtain ⟨d, ds, hds, hd⟩ := ih (n / 10) (by omega) (by omega)
      exact ⟨d, _, by rw [hds, List.cons_append], hd⟩

theorem isNumber_toDigits (n : Nat) : isNumber (Text.Decimal.toDigits n) = true := by
  rcases Nat.eq_zero_or_pos n with rfl | hn
  · decide
  have hdigit : ∀ c ∈ Text.Decimal.toDigits n, c.isDigit = true := fun c hc =>
    Nat.isDigit_of_mem_toDigits (by decide) (by decide) hc
  obtain ⟨d, ds, hds, hd⟩ := exists_toDigits_eq_cons hn
  rw [hds] at hdigit ⊢
  have hspan : (d :: ds).span Char.isDigit = (d :: ds, []) := by
    rw [List.span_eq_takeWhile_dropWhile, List.takeWhile_eq_self_iff.mpr hdigit,
      List.dropWhile_eq_nil_iff.mpr hdigit]
  have hunsigned : isUnsigned (d :: ds) = true := by
    unfold isUnsigned
    split
    · rename_i heq
      exact absurd (List.head_eq_of_cons_eq heq) hd
    · rw [hspan]
      rfl
  unfold isNumber
  split
  · rename_i heq
    exact absurd (hdigit '-' (by simp [heq])) (by decide)
  · exact hunsigned

theorem tidy_ofNat (n : Nat) : Tidy (.ofNat n) := by
  refine .number _ ?_
  rw [String.toList_ofList]
  exact isNumber_toDigits n

theorem word?_ofNat {bits n : Nat} (h : n < 1 <<< bits) : word? bits (.ofNat n) = some n := by
  have hfits : Text.Decimal.fits bits n = true := decide_eq_true h
  change (Text.Decimal.ofDigits? (String.ofList (Text.Decimal.toDigits n)).toList).filter _ = _
  rw [String.toList_ofList, Text.Decimal.ofDigits?_toDigits, Option.filter_some, if_pos hfits]

theorem timestamp?_ofTimestamp {t : Timestamp} (h : t.Ordinary) :
    timestamp? (.ofTimestamp t) = some t := by
  unfold timestamp? ofTimestamp
  rw [text?_string, Option.bind_some, Timestamp.parse?_render h]

@[simp]
theorem tidy_bool (b : Bool) : Tidy (.bool b) := .bool b

@[simp]
theorem tidy_string (s : String) : Tidy (.string s) := .string s

@[simp]
theorem tidy_ofSpelling {α : Type} (s : Spelling α) (a : α) : Tidy (.ofSpelling s a) := .string _

@[simp]
theorem tidy_ofTimestamp (t : Timestamp) : Tidy (.ofTimestamp t) := .string _

end Json

open Json

/-! ## The parts of a record -/

theorem ProcessingFlags.tidy_toJson (f : ProcessingFlags) : Tidy f.toJson :=
  tidy_record (show fieldNames.Nodup by decide) (by simp [fields])

theorem Counterparty.tidy_toJson (c : Counterparty) : Tidy c.toJson :=
  tidy_record (show fieldNames.Nodup by decide) (by simp [fields])

theorem TradeData.tidy_toJson (d : TradeData) : Tidy d.toJson := by
  have hc := tidy_array_map fun c (_ : c ∈ d.counterparties) => c.tidy_toJson
  exact tidy_record (show fieldNames.Nodup by decide)
    (by simp [fields, TradeField.all, hc])

namespace Finding

theorem tidy_toJson (f : Finding) : Tidy f.toJson :=
  tidy_record (show fieldNames.Nodup by decide) (by simp [fields])

theorem tidy_findings (fs : List Finding) : Tidy (.array (fs.map toJson)) :=
  tidy_array_map fun f _ => f.tidy_toJson

theorem listOrEmpty?_findings (fs : List Finding) :
    Json.listOrEmpty? ofJson? (some (.array (fs.map toJson))) = some fs :=
  Json.listOrEmpty?_map fun f _ => f.ofJson?_toJson

end Finding

theorem Links.tidy_toJson (l : Links) : Tidy l.toJson :=
  tidy_record (show fieldNames.Nodup by decide) (by simp [fields])

namespace ProcessingError

theorem tidy_toJson (e : ProcessingError) : Tidy e.toJson :=
  tidy_record (show fieldNames.Nodup by decide) (by simp [fields])

theorem ofJson?_toJson {e : ProcessingError} (h : e.timestamp.Ordinary) :
    ofJson? e.toJson = some e := by
  have hf : Json.fields? fieldNames e.toJson = some (e.fields.map (·.2)) :=
    Json.fields?_record rfl (by decide)
  simp [ofJson?, hf, fields, timestamp?_ofTimestamp h]

theorem tidy_errors (es : List ProcessingError) : Tidy (.array (es.map toJson)) :=
  tidy_array_map fun e _ => e.tidy_toJson

end ProcessingError

namespace DuplicateCheck

theorem tidy_toJson (c : DuplicateCheck) : Tidy c.toJson := by
  have hc := tidy_array_map fun s (_ : s ∈ c.criteriaUsed) => tidy_string s
  exact tidy_record (show fieldNames.Nodup by decide) (by simp [fields, hc])

theorem ofJson?_toJson {c : DuplicateCheck} (h : c.checkedAt.Ordinary) :
    ofJson? c.toJson = some c := by
  have hf : Json.fields? fieldNames c.toJson = some (c.fields.map (·.2)) :=
    Json.fields?_record rfl (by decide)
  have hc : Json.list? Json.text? (.array (c.criteriaUsed.map .string)) = some c.criteriaUsed :=
    Json.list?_array_map fun _ _ => rfl
  simp [ofJson?, hf, fields, timestamp?_ofTimestamp h, hc]

theorem optional?_check {c? : Option DuplicateCheck} (h : ∀ c ∈ c?, c.checkedAt.Ordinary) :
    Json.optional? ofJson? (c?.map toJson) = some c? :=
  Json.optional?_map (fun _ => rfl) fun c hc => ofJson?_toJson (h c hc)

end DuplicateCheck

namespace ProcessingSummary

theorem tidy_toJson (s : ProcessingSummary) : Tidy s.toJson :=
  tidy_record (show fieldNames.Nodup by decide) (by simp [fields, ProcessingError.tidy_errors])

theorem ofJson?_toJson {s : ProcessingSummary}
    (h : ∀ es ∈ s.errors?, ∀ e ∈ es, e.timestamp.Ordinary) : ofJson? s.toJson = some s := by
  have hf : Json.fields? fieldNames s.toJson = some (s.fields.map (·.2)) :=
    Json.fields?_record rfl (by decide)
  have he : Json.optional? (Json.list? ProcessingError.ofJson?)
      (s.errors?.map fun es => .array (es.map ProcessingError.toJson)) = some s.errors? :=
    Json.optional?_map (fun _ => rfl) fun es hes =>
      Json.list?_array_map fun e hm => ProcessingError.ofJson?_toJson (h es hes e hm)
  simp [ofJson?, hf, fields, he]

end ProcessingSummary

namespace RecordMetadata

theorem tidy_toJson (m : RecordMetadata) : Tidy m.toJson :=
  tidy_record (show fieldNames.Nodup by decide) (by simp [fields])

theorem ofJson?_toJson {m : RecordMetadata} (h : m.createdAt.Ordinary) :
    ofJson? m.toJson = some m := by
  have hf : Json.fields? fieldNames m.toJson = some (m.fields.map (·.2)) :=
    Json.fields?_record rfl (by decide)
  simp [ofJson?, hf, fields, timestamp?_ofTimestamp h]

end RecordMetadata

/-! ## The three formats -/

theorem Message.tidy_toJson (m : Message) : Tidy m.toJson :=
  tidy_record (show fieldNames.Nodup by decide) (by simp [fields, ProcessingFlags.tidy_toJson])

/-- The timestamps of the result are ordinary. -/
structure Result.Ordinary (r : Result) : Prop where
  received : r.receivedAt.Ordinary
  processed : r.processedAt.Ordinary
  errors : ∀ e ∈ r.errors, e.timestamp.Ordinary
  check : ∀ c ∈ r.duplicateCheck?, c.checkedAt.Ordinary

namespace Result

theorem tidy_toJson (r : Result) : Tidy r.toJson :=
  tidy_record (show fieldNames.Nodup by decide)
    (by simp [fields, Finding.tidy_findings, TradeData.tidy_toJson, ProcessingError.tidy_errors,
      DuplicateCheck.tidy_toJson, Links.tidy_toJson])

theorem ofJson?_toJson {r : Result} (h : r.Ordinary) : ofJson? r.toJson = some r := by
  have hf : Json.fields? fieldNames r.toJson = some (r.fields.map (·.2)) :=
    Json.fields?_record rfl (by decide)
  have hdocument : Json.optional? (Json.spelled? DocumentType.spelling)
      (r.documentType?.map (.ofSpelling DocumentType.spelling)) = some r.documentType? :=
    Json.optional?_map (fun _ => rfl) fun t _ => Json.spelled?_ofSpelling _ t
  have hdata : Json.optional? TradeData.ofJson? (r.tradeData?.map TradeData.toJson) =
      some r.tradeData? :=
    Json.optional?_map (fun _ => rfl) fun d _ => d.ofJson?_toJson
  have herrors : Json.listOrEmpty? ProcessingError.ofJson?
      (some (.array (r.errors.map ProcessingError.toJson))) = some r.errors :=
    Json.listOrEmpty?_map fun e he => ProcessingError.ofJson?_toJson (h.errors e he)
  simp [ofJson?, hf, fields, timestamp?_ofTimestamp h.received, timestamp?_ofTimestamp h.processed,
    hdocument, Finding.listOrEmpty?_findings, hdata, herrors, DuplicateCheck.optional?_check h.check,
    Links.ofJson?_toJson]

end Result

/-- The timestamps of the record are ordinary, and its size is a number of 64 bits. -/
structure Record.Ordinary (r : Record) : Prop where
  received : r.receivedAt.Ordinary
  message : r.messageAt.Ordinary
  created : r.metadata.createdAt.Ordinary
  errors : ∀ es ∈ r.summary.errors?, ∀ e ∈ es, e.timestamp.Ordinary
  check : ∀ c ∈ r.duplicateCheck?, c.checkedAt.Ordinary
  size : r.messageSize < 2 ^ 64

namespace Record

theorem tidy_toJson (r : Record) : Tidy r.toJson :=
  tidy_record (show fieldNames.Nodup by decide)
    (by simp [fields, tidy_ofNat, Finding.tidy_findings, ProcessingSummary.tidy_toJson,
      ProcessingFlags.tidy_toJson, DuplicateCheck.tidy_toJson, RecordMetadata.tidy_toJson])

theorem ofJson?_toJson {r : Record} (h : r.Ordinary) : ofJson? r.toJson = some r := by
  have hf : Json.fields? fieldNames r.toJson = some (r.fields.map (·.2)) :=
    Json.fields?_record rfl (by decide)
  have hsize : Json.word? 64 (.ofNat r.messageSize) = some r.messageSize := word?_ofNat h.size
  simp [ofJson?, hf, fields, timestamp?_ofTimestamp h.received, timestamp?_ofTimestamp h.message,
    hsize, Finding.listOrEmpty?_findings, ProcessingSummary.ofJson?_toJson h.errors,
    ProcessingFlags.ofJson?_toJson, DuplicateCheck.optional?_check h.check,
    RecordMetadata.ofJson?_toJson h.created]

end Record

/-- **A value travels**: what is written of it is tidy, and its text reads back as the value. -/
structure Json.Travels {α : Type} (toJson : α → Json) (ofJson? : Json → Option α) (a : α) :
    Prop where
  tidy : Tidy (toJson a)
  readsBack : (parse? (toJson a).write).bind ofJson? = some a

theorem Json.travels_of {α : Type} {toJson : α → Json} {ofJson? : Json → Option α} {a : α}
    (ht : Tidy (toJson a)) (h : ofJson? (toJson a) = some a) : Travels toJson ofJson? a where
  tidy := ht
  readsBack := by rw [parse?_write ht.wellFormed, Option.bind_some, h]

/-- The names of the fields of every record, as they are looked for when it is read. -/
def recordNames : List (List String) := [
  Message.fieldNames, ProcessingFlags.fieldNames, Result.fieldNames, ProcessingError.fieldNames,
  Links.fieldNames, Finding.fieldNames, TradeData.fieldNames, Counterparty.fieldNames,
  DuplicateCheck.fieldNames, Record.fieldNames, ProcessingSummary.fieldNames,
  RecordMetadata.fieldNames]

/-- **The wire formats read back.** Every message, every result and every record whose timestamps
are ordinary is written as a tidy text that stands for it again. The fields of a record are written
under the names under which they are looked for, which all differ. A document type is written as the
name of its element, and read from it. -/
theorem wire_roundTrip :
    (∀ m : Message, Travels Message.toJson Message.ofJson? m) ∧
    (∀ r : Result, r.Ordinary → Travels Result.toJson Result.ofJson? r) ∧
    (∀ r : Record, r.Ordinary → Travels Record.toJson Record.ofJson? r) ∧
    (∀ m : Message, m.fields.map (·.1) = Message.fieldNames) ∧
    (∀ r : Result, r.fields.map (·.1) = Result.fieldNames) ∧
    (∀ r : Record, r.fields.map (·.1) = Record.fieldNames) ∧
    (∀ names ∈ recordNames, names.Nodup) ∧
    ∀ t : DocumentType, ofSpelling DocumentType.spelling t = .string t.elementName ∧
      spelled? DocumentType.spelling (.string t.elementName) = some t :=
  ⟨fun m => travels_of m.tidy_toJson m.ofJson?_toJson,
    fun r h => travels_of r.tidy_toJson (Result.ofJson?_toJson h),
    fun r h => travels_of r.tidy_toJson (Record.ofJson?_toJson h),
    fun _ => rfl, fun _ => rfl, fun _ => rfl, by decide,
    fun t => ⟨rfl, spelled?_ofSpelling DocumentType.spelling t⟩⟩

/-- A second after an hour of a leap day, with a fraction. -/
def leapDay : Timestamp := ⟨951786061, 5000, by decide⟩

theorem ordinary_leapDay : leapDay.Ordinary := ⟨by decide, by decide⟩

/-- A duplicate that failed, with something in every field. -/
def fullResult : Result where
  messageId := "m\t2"
  processingId := "p"
  processingStatus := .failed
  validationStatus := .systemError
  receivedAt := leapDay
  processedAt := leapDay
  documentType? := some .fpml
  findings := [.of .info "VALIDATION_SUCCESS" "\"valid\""]
  tradeData? := some { uti? := some "", counterparties := [⟨"L", .partyB, .principal⟩] }
  errors := [⟨"SYSTEM_ERROR", "line\nbreak", leapDay, true⟩]
  duplicateCheck? := some { DuplicateCheck.found leapDay none with originalMessageId? := some "m1" }
  links := .ofProcessingId "p"

/-- Its document type is written as the name of the root element. -/
theorem travels_fullResult :
    Travels Result.toJson Result.ofJson? fullResult ∧
      fullResult.fields.lookup "documentType" = some (some (.string "FpML")) := by
  refine ⟨wire_roundTrip.2.1 fullResult ⟨ordinary_leapDay, ordinary_leapDay, ?_, ?_⟩, rfl⟩
  · simp [fullResult, ordinary_leapDay]
  · rintro c ⟨⟩
    exact ordinary_leapDay

end TradeIntake
