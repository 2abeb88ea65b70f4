import Mathlib.Data.List.Forall2
import TradeIntake.Extraction
import TradeIntake.Proofs.Path.Everywhere

/-!
# The values of fields

A field has candidates, and each of them is a path that can be read. A candidate contributes the
text of the first element that it selects, and of no other one, so a blank element in front keeps it
from contributing. The first candidate that contributes settles the field. Extraction fills a record
with all fields, each of which has one entry among the paths of an extractor, so it comes to the
same as asking for a field by itself.

* **`read_candidates`**: the paths that the candidates stand for.
* **`get?_values`**: a record has what each field has by itself.
* **`admits_of_mem_select`**: what a path selects has the name that its last step asks for.
* **`fields_resolved`**: the value of a field, however it is asked for.
-/

namespace TradeIntake

/-! ## Candidates -/

namespace TradeField

/-- The children of one name, below all elements of another. -/
def childPath (parent name : String) : Path :=
  ⟨[⟨.descendant, .named parent, []⟩, ⟨.child, .named name, []⟩], none⟩

/-- The trade identifiers that are marked as unique ones. -/
def markedIdPath : Path :=
  ⟨[⟨.descendant, .named "tradeId", [.hasValue "tradeIdScheme" utiScheme]⟩], none⟩

/-- The paths that are meant by the candidates of a field. -/
def paths : TradeField → List Path
  | tradeId => [.everywhere "tradeId"]
  | uti => [.everywhere "uti", markedIdPath]
  | usi => [.everywhere "usi"]
  | tradeDate => [.everywhere "tradeDate"]
  | effectiveDate =>
    [childPath "effectiveDate" "unadjustedDate", childPath "effectiveDate" "adjustedDate",
      .everywhere "effectiveDate"]
  | maturityDate =>
    [.everywhere "maturityDate", childPath "terminationDate" "unadjustedDate",
      .everywhere "terminationDate"]
  | notionalAmount =>
    [.everywhere "notionalAmount", childPath "notionalStepSchedule" "initialValue",
      childPath "notional" "amount"]
  | currency => [.everywhere "currency"]
  | productType => [.everywhere "productType"]

theorem parse_markedId :
    Path.parse ("//tradeId[@tradeIdScheme='" ++ utiScheme ++ "']") = .ok markedIdPath := by
  decide +kernel

/-- **Every candidate is read as the path that is meant.** -/
theorem read_candidates (f : TradeField) :
    List.Forall₂ (fun text p => Path.parse text = .ok p) f.candidates f.paths := by
  cases f with
  | tradeId | usi | tradeDate | currency | productType => exact .cons rfl .nil
  | uti => exact .cons rfl (.cons parse_markedId .nil)
  | effectiveDate | maturityDate | notionalAmount => exact .cons rfl (.cons rfl (.cons rfl .nil))

/-- The candidates lead to texts, and their last steps to elements of one name. -/
theorem named_of_mem_paths {f : TradeField} {p : Path} (h : p ∈ f.paths) :
    p.attribute? = none ∧ ∃ s name, p.steps.getLast? = some s ∧ s.test = .named name := by
  have hall : ∀ p ∈ f.paths, p.attribute? = none ∧ ∃ s ∈ p.steps.getLast?, s.test ≠ .any := by
    cases f <;> decide
  obtain ⟨ha, s, hs, ht⟩ := hall p h
  refine ⟨ha, s, ?_⟩
  cases htest : s.test with
  | any => exact absurd htest ht
  | named name => exact ⟨name, hs, rfl⟩

/-- A candidate is read as one of the paths that are meant. -/
theorem exists_path_of_mem_candidates {f : TradeField} {text : String} (h : text ∈ f.candidates) :
    ∃ p ∈ f.paths, Path.parse text = .ok p := by
  obtain ⟨i, hi, rfl⟩ := List.mem_iff_getElem.mp h
  obtain ⟨hlen, hget⟩ := List.forall₂_iff_get.mp f.read_candidates
  have hi' : i < f.paths.length := hlen ▸ hi
  exact ⟨f.paths[i], List.getElem_mem hi', hget i hi hi'⟩

end TradeField

namespace Path

/-- Of texts that can all be read, none is dropped. -/
theorem readable_eq {texts : List String} {ps : List Path}
    (h : List.Forall₂ (fun text p => parse text = .ok p) texts ps) : readable texts = ps := by
  induction h with
  | nil => rfl
  | cons hp _ ih =>
    rw [← ih, readable, readable, List.filterMap_cons, hp]
    rfl

/-- Reading the texts first makes no difference to the first value. -/
theorem firstOf?_readable (texts : List String) (root : Element) :
    firstOf? (readable texts) root =
      texts.findSome? fun text => (parse text).toOption.bind fun p => p.firstValue? root := by
  induction texts with
  | nil => rfl
  | cons text texts ih =>
    rw [List.findSome?_cons, ← ih, readable, List.filterMap_cons]
    cases parse text with
    | error malformed => rfl
    | ok p => exact List.findSome?_cons

/-- **What a path selects has the name that its last step asks for**, and is in the document. -/
theorem admits_of_mem_select {p : Path} {root : Element} {x : Located} (h : x ∈ p.select root)
    {s : Step} (hs : p.steps.getLast? = some s) :
    s.test.admits x.element.name = true ∧ x ∈ root.preorder [] := by
  obtain ⟨before, hsteps⟩ := List.getLast?_eq_some_iff.mp hs
  have hx : x ∈ reached p.steps root := h
  refine ⟨?_, reached_subset p.steps root hx⟩
  rw [hsteps] at hx
  have hm := (reached_sublist_matched before s root).subset hx
  exact (List.mem_filter.mp ((distinct_sublist _ _).subset hm)).2

/-- **What a candidate contributes**: its path leads to texts, and this is the text of the first
element that it selects, trimmed and not blank. -/
def Contributes (text : String) (root : Element) (value : String) : Prop :=
  ∃ p, parse text = .ok p ∧ p.attribute? = none ∧ ∃ x, (p.select root).head? = some x ∧
    Text.trim x.element.text = value ∧ value ≠ ""

theorem contributes_iff {text : String} {p : Path} (h : parse text = .ok p)
    (ha : p.attribute? = none) {root : Element} {value : String} :
    Contributes text root value ↔ p.firstValue? root = some value := by
  unfold Contributes firstValue?
  rw [ha]
  simp only [h, Except.ok.injEq, exists_eq_left', ha, true_and, Option.bind_eq_some_iff,
    Element.trimmedText?_eq_some_iff]

end Path

/-! ## Records -/

namespace Extractor

/-- Entries that are put into a record one after another, none of them twice: a field has what its
own entry puts there. -/
theorem get?_foldl_set {α : Type} (value? : α → Option String) {es : List (TradeField × α)}
    (h : (es.map Prod.fst).Nodup) (data : TradeData) (f : TradeField) :
    (es.foldl (fun data e => data.set (value? e.2) e.1) data).get? f =
      ((es.find? fun e => e.1 == f).map fun e => value? e.2).getD (data.get? f) := by
  induction es generalizing data with
  | nil => rfl
  | cons e es ih =>
    obtain ⟨hnew, h⟩ := List.nodup_cons.mp h
    rw [List.foldl_cons, ih h, List.find?_cons, TradeData.get?_set]
    by_cases he : e.1 = f
    · subst he
      have hnone : es.find? (fun e' => e'.1 == e.1) = none := by
        rw [List.find?_eq_none]
        intro e' hmem hkey
        exact hnew (List.mem_map.mpr ⟨e', hmem, beq_iff_eq.mp hkey⟩)
      rw [hnone, if_pos rfl, beq_self_eq_true]
      rfl
    · rw [if_neg fun hf => he hf.symm, beq_eq_false_iff_ne.mpr he]

/-- **A record has what each field has by itself**, when no field has two entries. -/
theorem get?_values {x : Extractor} (h : (x.fieldPaths.map Prod.fst).Nodup) (d : Document)
    (f : TradeField) : (x.values d).get? f = x.field? d f := by
  rw [values, get?_foldl_set (fun paths => Path.firstOf? paths d.root) h, field?]
  have hnone : ({} : TradeData).get? f = none := by
    cases f <;> rfl
  rw [hnone]
  cases x.fieldPaths.find? fun p => p.1 == f <;> rfl

/-- The counterparties are no field. -/
theorem get?_extract (x : Extractor) (d : Document) (f : TradeField) :
    (x.extract d).get? f = (x.values d).get? f := by
  cases f <;> rfl

theorem field?_ofSettings (settings : ExtractSettings) (d : Document) (f : TradeField) :
    (ofSettings settings).field? d f = Path.firstOf? (Path.readable f.candidates) d.root := by
  cases f <;> rfl

end Extractor

/-! ## The value of a field -/

/-- **The value of a field**, if it has one: what the first candidate contributes that contributes
anything. It is the trimmed text of an element that has the name at the end of a candidate. -/
structure TradeField.Resolved (f : TradeField) (root : Element) (value? : Option String) :
    Prop where
  eq_some_iff : ∀ value, value? = some value ↔ ∃ before text after,
    f.candidates = before ++ text :: after ∧ Path.Contributes text root value ∧
      ∀ other ∈ before, ∀ v, ¬ Path.Contributes other root v
  eq_none_iff : value? = none ↔ ∀ text ∈ f.candidates, ∀ v, ¬ Path.Contributes text root v
  trimmed : ∀ value, value? = some value → value ≠ "" ∧
    (∀ c ∈ value.toList.head?, Text.isBlank c = false) ∧
      ∀ c ∈ value.toList.getLast?, Text.isBlank c = false
  origin : ∀ value, value? = some value → ∃ text ∈ f.candidates, ∃ p s,
    Path.parse text = .ok p ∧ p.steps.getLast? = some s ∧
      ∃ x ∈ root.preorder [], s.test = .named x.element.name ∧ Text.trim x.element.text = value

namespace TradeField

theorem contributes_iff_of_mem {f : TradeField} {text : String} (h : text ∈ f.candidates)
    {root : Element} {value : String} :
    ((Path.parse text).toOption.bind fun p => p.firstValue? root) = some value ↔
      Path.Contributes text root value := by
  obtain ⟨p, hp, hparse⟩ := exists_path_of_mem_candidates h
  rw [Path.contributes_iff hparse (named_of_mem_paths hp).1, hparse]
  rfl

theorem not_contributes_iff_of_mem {f : TradeField} {text : String} (h : text ∈ f.candidates)
    {root : Element} :
    ((Path.parse text).toOption.bind fun p => p.firstValue? root) = none ↔
      ∀ value, ¬ Path.Contributes text root value := by
  rw [Option.eq_none_iff_forall_ne_some]
  exact forall_congr' fun value => not_congr (contributes_iff_of_mem h)

/-- What a candidate contributes is trimmed, and stands where the candidate ends. -/
theorem origin_of_contributes {f : TradeField} {text : String} (h : text ∈ f.candidates)
    {root : Element} {value : String} (hv : Path.Contributes text root value) :
    ∃ p s, Path.parse text = .ok p ∧ p.steps.getLast? = some s ∧
      ∃ x ∈ root.preorder [], s.test = .named x.element.name ∧
        Text.trim x.element.text = value ∧ value ≠ "" := by
  obtain ⟨p, hp, hparse⟩ := exists_path_of_mem_candidates h
  obtain ⟨-, s, name, hs, htest⟩ := named_of_mem_paths hp
  obtain ⟨_, hparse', -, x, hx, htrim, hne⟩ := hv
  obtain rfl := Except.ok.inj (hparse.symm.trans hparse')
  obtain ⟨hadmits, hmem⟩ := Path.admits_of_mem_select (List.mem_of_mem_head? hx) hs
  rw [htest, NameTest.admits, beq_iff_eq] at hadmits
  exact ⟨p, s, hparse, hs, x, hmem, hadmits ▸ htest, htrim, hne⟩

/-- **The first value that the candidates yield is the value of the field.** -/
theorem resolved_firstOf? (f : TradeField) (root : Element) :
    f.Resolved root (Path.firstOf? (Path.readable f.candidates) root) := by
  rw [Path.firstOf?_readable]
  have hsome : ∀ value, (f.candidates.findSome? fun text =>
      (Path.parse text).toOption.bind fun p => p.firstValue? root) = some value ↔
        ∃ before text after, f.candidates = before ++ text :: after ∧
          Path.Contributes text root value ∧
            ∀ other ∈ before, ∀ v, ¬ Path.Contributes other root v := by
    intro value
    rw [List.findSome?_eq_some_iff]
    refine exists_congr fun before => exists_congr fun text => exists_congr fun after =>
      and_congr_right fun hsplit => ?_
    have hmem : ∀ t ∈ before ++ text :: after, t ∈ f.candidates := fun t ht => hsplit ▸ ht
    rw [contributes_iff_of_mem (hmem text (by simp))]
    refine and_congr_right fun _ => forall₂_congr fun other hother => ?_
    exact not_contributes_iff_of_mem (hmem other (by simp [hother]))
  refine ⟨hsome, ?_, fun value hvalue => ?_, fun value hvalue => ?_⟩
  · rw [List.findSome?_eq_none_iff]
    exact forall₂_congr fun text htext => not_contributes_iff_of_mem htext
  · obtain ⟨before, text, after, hsplit, hv, -⟩ := (hsome value).mp hvalue
    have htext : text ∈ f.candidates := by simp [hsplit]
    obtain ⟨_, _, _, _, x, -, -, rfl, hne⟩ := origin_of_contributes htext hv
    rw [Text.trim, String.toList_ofList]
    exact ⟨hne, Text.head_trim _, Text.getLast_trim _⟩
  · obtain ⟨before, text, after, hsplit, hv, -⟩ := (hsome value).mp hvalue
    have htext : text ∈ f.candidates := by simp [hsplit]
    obtain ⟨p, s, hparse, hs, x, hx, htest, htrim, -⟩ := origin_of_contributes htext hv
    exact ⟨text, htext, p, s, hparse, hs, x, hx, htest, htrim⟩

/-- A blank date in front of another one falls through to the next candidate. -/
example :
    let date (name text : String) : Element := ⟨name, none, [], text, []⟩
    let dates : Element := ⟨"effectiveDate", none, [], "", [
      date "unadjustedDate" " ", date "unadjustedDate" "2024-01-02",
      date "adjustedDate" "2024-01-03\n"]⟩
    Path.firstOf? (Path.readable effectiveDate.candidates) dates = some "2024-01-03" := by
  decide +kernel

end TradeField

/-- **Every field has its value, however it is asked for**: in the record of extraction it is the
same as by itself, and no candidate is dropped on the way. -/
theorem Extractor.fields_resolved (settings : ExtractSettings) (d : Document) (f : TradeField) :
    let x := Extractor.ofSettings settings
    f.Resolved d.root ((x.extract d).get? f) ∧
    x.field? d f = (x.extract d).get? f ∧
    List.Forall₂ (fun text p => Path.parse text = .ok p) f.candidates
      (Path.readable f.candidates) := by
  intro x
  have hfields : x.fieldPaths.map Prod.fst = TradeField.all := rfl
  have hnodup : (x.fieldPaths.map Prod.fst).Nodup := by
    rw [hfields]
    decide
  have hfield : (x.extract d).get? f = x.field? d f := by
    rw [get?_extract, get?_values hnodup]
  refine ⟨?_, hfield.symm, ?_⟩
  · rw [hfield, field?_ofSettings]
    exact f.resolved_firstOf? d.root
  · rw [Path.readable_eq f.read_candidates]
    exact f.read_candidates

end TradeIntake
