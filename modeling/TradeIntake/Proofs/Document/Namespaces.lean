import Mathlib.Data.List.Forall2
import TradeIntake.Inspection

/-!
# Namespaces make no difference

Elements are known by their local names. Without its namespaces (`Element.unqualified`) a tree has
the same elements at the same places, and whatever is read from a document goes by names, attributes
and texts alone. So documents are read alike when their trees differ in namespaces only.

* **`sameButNamespaces_iff`**: such trees agree element by element in all else.
* **`select_unqualified`**: paths select in a tree what they select in it without its namespaces.
* **`readAlike_of_sameButNamespaces`**: neither paths nor validation nor extraction tell documents
  apart by their namespaces.
* `readAlike_prefixed`: a document with prefixes, and one with a default namespace.
-/

namespace TradeIntake

/-! ## Trees without namespaces -/

namespace Element

mutual

/-- The tree without the namespaces of its elements. -/
def unqualified : Element → Element
  | ⟨name, _, attributes, text, children⟩ =>
    ⟨name, none, attributes, text, unqualifiedList children⟩
termination_by structural e => e

/-- Trees without the namespaces of their elements. -/
def unqualifiedList : List Element → List Element
  | [] => []
  | e :: es => e.unqualified :: unqualifiedList es
termination_by structural es => es

end

theorem unqualifiedList_eq (es : List Element) : unqualifiedList es = es.map unqualified := by
  induction es with
  | nil => rfl
  | cons e es ih => rw [unqualifiedList, ih, List.map_cons]

theorem unqualified_eq (e : Element) :
    e.unqualified = ⟨e.name, none, e.attributes, e.text, e.children.map unqualified⟩ := by
  obtain ⟨name, ns, attributes, text, children⟩ := e
  rw [unqualified, unqualifiedList_eq]

@[simp]
theorem name_unqualified (e : Element) : e.unqualified.name = e.name := by
  rw [unqualified_eq]

@[simp]
theorem children_unqualified (e : Element) :
    e.unqualified.children = e.children.map unqualified := by
  rw [unqualified_eq]

@[simp]
theorem attribute?_unqualified (e : Element) (name : String) :
    e.unqualified.attribute? name = e.attribute? name := by
  rw [unqualified_eq]
  rfl

@[simp]
theorem trimmedText?_unqualified (e : Element) : e.unqualified.trimmedText? = e.trimmedText? := by
  rw [unqualified_eq]
  rfl

mutual

@[simp]
theorem count_unqualified : (e : Element) → e.unqualified.count = e.count
  | ⟨_, _, _, _, children⟩ => congrArg (· + 1) (countList_unqualifiedList children)

theorem countList_unqualifiedList :
    (es : List Element) → countList (unqualifiedList es) = countList es
  | [] => rfl
  | e :: es => congrArg₂ (· + ·) (count_unqualified e) (countList_unqualifiedList es)

end

/-- The trees differ in the namespaces of their elements only. -/
def SameButNamespaces (e f : Element) : Prop :=
  e.unqualified = f.unqualified

/-- Such trees have the same shape, and element by element all but the namespace is the same. -/
theorem sameButNamespaces_iff {e f : Element} :
    e.SameButNamespaces f ↔ e.name = f.name ∧ e.attributes = f.attributes ∧ e.text = f.text ∧
      List.Forall₂ SameButNamespaces e.children f.children := by
  have hchildren : e.children.map unqualified = f.children.map unqualified ↔
      List.Forall₂ SameButNamespaces e.children f.children := by
    rw [← List.forall₂_eq_eq_eq, List.forall₂_map_left_iff, List.forall₂_map_right_iff]
    rfl
  rw [SameButNamespaces, unqualified_eq, unqualified_eq f, Element.mk.injEq, hchildren]
  simp

end Element

namespace Located

/-- The element at its place without namespaces. -/
def unqualified (x : Located) : Located := ⟨x.place, x.element.unqualified⟩

@[simp]
theorem place_unqualified (x : Located) : x.unqualified.place = x.place := rfl

@[simp]
theorem element_unqualified (x : Located) : x.unqualified.element = x.element.unqualified := rfl

theorem children_unqualified (x : Located) :
    x.unqualified.children = x.children.map unqualified := by
  simp [children, List.zipIdx_map, unqualified, Function.comp_def]

theorem walkFrom_unqualified (fuel : Nat) (stack acc : List Located) :
    walkFrom fuel (stack.map unqualified) (acc.map unqualified) =
      (walkFrom fuel stack acc).map unqualified := by
  induction fuel generalizing stack acc with
  | zero => simp [walkFrom]
  | succ fuel ih =>
    cases stack with
    | nil => simp [walkFrom]
    | cons x stack =>
      rw [List.map_cons, walkFrom, walkFrom, ← ih, children_unqualified, List.map_append]
      rfl

theorem below_unqualified (x : Located) : x.unqualified.below = x.below.map unqualified := by
  unfold below
  rw [children_unqualified, element_unqualified, Element.count_unqualified]
  exact walkFrom_unqualified _ _ []

theorem all_unqualified (root : Element) :
    root.unqualified.all = root.all.map unqualified := by
  unfold Element.all walk
  rw [show root.unqualified.located = root.located.unqualified from rfl, element_unqualified,
    Element.count_unqualified]
  exact walkFrom_unqualified _ [root.located] []

end Located

/-! ## Paths -/

namespace Path

open Located

theorem distinct_unqualified (seen : List Place) (xs : List Located) :
    distinct seen (xs.map unqualified) = (distinct seen xs).map unqualified := by
  induction xs generalizing seen with
  | nil => rfl
  | cons x xs ih =>
    rw [List.map_cons, distinct, distinct, place_unqualified, ih, ih]
    split <;> rfl

theorem apply_unqualified (p : Predicate) (xs : List Located) :
    p.apply (xs.map unqualified) = (p.apply xs).map unqualified := by
  cases p with
  | position n =>
    simp only [Predicate.apply, List.getElem?_map]
    split
    · rfl
    · cases xs[n - 1]? <;> rfl
  | hasValue name value =>
    simp only [Predicate.apply, List.filter_map]
    congr 2
    funext x
    simp

theorem foldl_apply_unqualified (ps : List Predicate) (xs : List Located) :
    ps.foldl (fun xs p => p.apply xs) (xs.map unqualified) =
      (ps.foldl (fun xs p => p.apply xs) xs).map unqualified := by
  induction ps generalizing xs with
  | nil => rfl
  | cons p ps ih => rw [List.foldl_cons, List.foldl_cons, apply_unqualified, ih]

theorem keep_unqualified (s : Step) (xs : List Located) :
    keep s (xs.map unqualified) = (keep s xs).map unqualified := by
  unfold keep
  rw [List.filter_map, distinct_unqualified, foldl_apply_unqualified]
  congr 4
  funext x
  simp

theorem reach_unqualified (axis : Axis) (x : Located) :
    reach axis x.unqualified = (reach axis x).map unqualified := by
  cases axis with
  | child => exact children_unqualified x
  | descendant => exact below_unqualified x

theorem reachFirst_unqualified (axis : Axis) (root : Element) :
    reachFirst axis root.unqualified = (reachFirst axis root).map unqualified := by
  cases axis with
  | child => rfl
  | descendant => exact all_unqualified root

theorem selectFrom_unqualified (context : List Located) (steps : List Step) :
    selectFrom (context.map unqualified) steps = (selectFrom context steps).map unqualified := by
  induction steps generalizing context with
  | nil => rfl
  | cons s steps ih =>
    have hstep : (context.map unqualified).flatMap (reach s.axis) =
        (context.flatMap (reach s.axis)).map unqualified := by
      rw [List.flatMap_map, List.map_flatMap]
      exact List.flatMap_congr fun x _ => reach_unqualified s.axis x
    unfold selectFrom at ih ⊢
    rw [List.foldl_cons, List.foldl_cons, hstep, keep_unqualified, ih]

/-- **A path selects the same places without namespaces.** -/
theorem select_unqualified (p : Path) (root : Element) :
    p.select root.unqualified = (p.select root).map unqualified := by
  unfold select
  split
  · rfl
  · rw [reachFirst_unqualified, keep_unqualified, selectFrom_unqualified]

theorem firstValue?_unqualified (p : Path) (root : Element) :
    p.firstValue? root.unqualified = p.firstValue? root := by
  unfold firstValue?
  rw [select_unqualified]
  cases p.attribute? with
  | some name =>
    have hattribute : (fun x : Located => x.element.attribute? name) ∘ unqualified =
        fun x => x.element.attribute? name :=
      funext fun x => x.element.attribute?_unqualified name
    simp only [List.findSome?_map, hattribute]
  | none =>
    rw [List.head?_map]
    cases (p.select root).head? with
    | none => rfl
    | some x =>
      rw [Option.map_some, Option.bind_some, Option.bind_some, element_unqualified,
        Element.trimmedText?_unqualified]

end Path

/-! ## Documents -/

section TwoDocuments

variable {d e : Document} (h : d.root.SameButNamespaces e.root)
include h

theorem Path.map_select_eq (p : Path) :
    (p.select d.root).map Located.unqualified = (p.select e.root).map Located.unqualified := by
  rw [← select_unqualified, ← select_unqualified, h]

theorem Path.firstValue?_eq (p : Path) : p.firstValue? d.root = p.firstValue? e.root := by
  rw [← firstValue?_unqualified, h, firstValue?_unqualified]

namespace Document

theorem rootName_eq : d.rootName = e.rootName := by
  unfold rootName
  rw [← d.root.name_unqualified, h, e.root.name_unqualified]

theorem map_findFirst?_eq (name : String) :
    (d.findFirst? name).map Located.unqualified = (e.findFirst? name).map Located.unqualified := by
  have key : ∀ root : Element, (root.all.find? fun x => x.element.name == name).map
      Located.unqualified = root.unqualified.all.find? fun x => x.element.name == name := by
    intro root
    rw [Located.all_unqualified, List.find?_map]
    congr 2
    funext x
    simp
  unfold findFirst?
  rw [key, key, h]

end Document

namespace Validation

theorem selectsAny_eq (path : String) : selectsAny d path = selectsAny e path := by
  unfold selectsAny
  cases Path.parse path with
  | error malformed => rfl
  | ok p =>
    have hempty := congrArg List.isEmpty (p.map_select_eq h)
    rw [List.isEmpty_map, List.isEmpty_map] at hempty
    change Except.ok _ = Except.ok _
    rw [hempty]

theorem check_eq_check (type : DocumentType) : check type d = check type e := by
  unfold check lacksTrade
  rw [selectsAny_eq h, selectsAny_eq h]

end Validation

namespace Document

theorem validate_eq : d.validate = e.validate := by
  unfold validate
  rw [rootName_eq h]
  cases DocumentType.ofElementName? e.rootName with
  | none => rfl
  | some type =>
    dsimp only
    rw [Validation.check_eq_check h]

theorem extract_eq (x : Extractor) : x.extract d = x.extract e := by
  have hfirst : ∀ paths, Path.firstOf? paths d.root = Path.firstOf? paths e.root := by
    intro paths
    unfold Path.firstOf?
    congr 1
    funext p
    exact p.firstValue?_eq h
  have hvalues : x.values d = x.values e := by
    unfold Extractor.values
    simp only [hfirst]
  have hparties : x.counterparties d = x.counterparties e := by
    unfold Extractor.counterparties
    simp only [hfirst]
  unfold Extractor.extract
  rw [hvalues, hparties]

omit h

/-- **Documents are read alike**: whatever is read from the one is read from the other. -/
structure ReadAlike (d e : Document) : Prop where
  /-- A path selects elements at the same places. -/
  places : ∀ p : Path, (p.select d.root).map (·.place) = (p.select e.root).map (·.place)
  value : ∀ p : Path, p.firstValue? d.root = p.firstValue? e.root
  found : ∀ name, (d.findFirst? name).map (·.place) = (e.findFirst? name).map (·.place)
  report : d.validate = e.validate
  strictReport : d.validate.promoteWarnings = e.validate.promoteWarnings
  data : ∀ settings, (Extractor.ofSettings settings).extract d =
    (Extractor.ofSettings settings).extract e
  /-- All that a pipeline makes of a document, with the events that it leaves. -/
  examination : ∀ (x : Extractor) strict, d.examine x strict = e.examine x strict

/-- **Namespaces make no difference.** -/
theorem readAlike_of_sameButNamespaces {d e : Document} (h : d.root.SameButNamespaces e.root) :
    d.ReadAlike e where
  places p := by
    have hp := congrArg (List.map (·.place)) (p.map_select_eq h)
    simpa only [List.map_map, Function.comp_def, Located.place_unqualified] using hp
  value p := p.firstValue?_eq h
  found name := by
    have hf := congrArg (Option.map (·.place)) (map_findFirst?_eq h name)
    simpa only [Option.map_map, Function.comp_def, Located.place_unqualified] using hf
  report := validate_eq h
  strictReport := by rw [validate_eq h]
  data settings := extract_eq h _
  examination x strict := by
    unfold examine
    rw [validate_eq h, extract_eq h]

/-- A document with prefixes of its own for two namespaces. -/
def prefixed : List UInt8 :=
  Text.Utf8.encode
    "<p:dataDocument xmlns:p='urn:one'><p:trade/><q:party xmlns:q='urn:two'/></p:dataDocument>"

/-- The document with one default namespace instead. -/
def unprefixed : List UInt8 :=
  Text.Utf8.encode "<dataDocument xmlns='urn:three'><trade/><party/></dataDocument>"

/-- With prefixes or with a default namespace, a document is read alike. -/
theorem readAlike_prefixed :
    ∃ d e : Document, Document.parse {} prefixed = .ok d ∧ Document.parse {} unprefixed = .ok e ∧
      d.root.namespaceUri? = some "urn:one" ∧ e.root.namespaceUri? = some "urn:three" ∧
      d.root.SameButNamespaces e.root ∧ d.ReadAlike e := by
  have hd : Document.parse {} prefixed = .ok ⟨⟨"dataDocument", some "urn:one", [], "",
      [⟨"trade", some "urn:one", [], "", []⟩, ⟨"party", some "urn:two", [], "", []⟩]⟩, 89, 3⟩ :=
    rfl
  have he : Document.parse {} unprefixed = .ok ⟨⟨"dataDocument", some "urn:three", [], "",
      [⟨"trade", some "urn:three", [], "", []⟩, ⟨"party", some "urn:three", [], "", []⟩]⟩, 63, 3⟩ :=
    rfl
  exact ⟨_, _, hd, he, rfl, rfl, rfl, readAlike_of_sameButNamespaces rfl⟩

end Document

end TwoDocuments

end TradeIntake
