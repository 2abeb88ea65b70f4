import Mathlib.Data.List.Forall2
import TradeIntake.Proofs.Document.Copy
import TradeIntake.Proofs.Xml.NodeLimit

/-!
# The copy mirrors the tree

An element mirrors a node when it has what the start tag says, the text that stands directly in the
node, and children that mirror the node's elements, all in document order. No other element does.
The copy makes that element, unless the tree is nested too deep, and it makes it in a loop: each
round takes up one node or closes one element, so every state of the loop has its number of rounds
left.

* **`mirrors_iff`**: which element mirrors a node.
* **`copyFrom_succ`**, **`copyFrom_ends`**: what a round of the loop does, and that the loop ends.
* **`copy_mirrors`**: what the copy of a tree is.
-/

namespace TradeIntake

namespace Xml.Node

instance : DecidablePred IsElement
  | .element .. => isTrue trivial
  | .text _ | .comment | .instruction => isFalse id

/-- The text that the node is. -/
def text? : Node → Option String
  | .text s => some s
  | _ => none

/-- **The element mirrors the node.** -/
inductive Mirrors : Node → Element → Prop
  | intro {head : Head} {children : List Node} {e : Element} (name : e.name = head.name)
      (namespaceUri? : e.namespaceUri? = head.namespaceUri?)
      (attributes : e.attributes = head.attributes)
      (text : e.text = String.join (children.filterMap text?))
      (elements : List.Forall₂ Mirrors (children.filter (·.IsElement)) e.children) :
      Mirrors (.element head children) e

theorem textOf_eq_join (ns : List Node) : textOf ns = String.join (ns.filterMap text?) := by
  induction ns with
  | nil => rfl
  | cons n ns ih => cases n <;> simp [textOf, text?, List.filterMap_cons, ih, String.join_cons]

/-- An element mirrors a node with these children when its own children mirror those that are
elements. -/
theorem mirrors_element_iff {head : Head} {children : List Node} {e : Element}
    (h : ∀ es, List.Forall₂ Mirrors (children.filter (·.IsElement)) es ↔ elementsOf children = es) :
    Mirrors (.element head children) e ↔ (Node.element head children).element? = some e := by
  obtain ⟨name, ns, attributes, text, es⟩ := e
  rw [element?, Option.some.injEq, Element.mk.injEq, textOf_eq_join]
  constructor
  · rintro ⟨rfl, rfl, rfl, rfl, hes⟩
    exact ⟨rfl, rfl, rfl, rfl, (h es).mp hes⟩
  · rintro ⟨rfl, rfl, rfl, rfl, hes⟩
    exact .intro rfl rfl rfl rfl ((h es).mpr hes)

theorem forall₂_mirrors_iff (ns : List Node) (es : List Element) :
    List.Forall₂ Mirrors (ns.filter (·.IsElement)) es ↔ elementsOf ns = es := by
  induction ns using induction_list generalizing es with
  | nil => simp [elementsOf, eq_comm]
  | element head children ns ihchildren ihns =>
    have hhead : ∀ e, Mirrors (.element head children) e ↔
        (Node.element head children).element? = some e := fun e => mirrors_element_iff ihchildren
    rw [List.filter_cons_of_pos (by exact decide_eq_true trivial), List.forall₂_cons_left_iff]
    simp only [hhead, ihns]
    constructor
    · rintro ⟨e, es, he, rfl, rfl⟩
      rw [elementsOf, he]
      rfl
    · rintro rfl
      exact ⟨_, _, rfl, rfl, rfl⟩
  | leaf n ns hn ih =>
    rw [List.filter_cons_of_neg (by simpa using hn), elementsOf_of_not_isElement hn]
    exact ih es

/-- **One element mirrors a node**: the one that the node becomes, and only an element has one. -/
theorem mirrors_iff {n : Node} {e : Element} : n.Mirrors e ↔ n.element? = some e := by
  cases n with
  | element head children => exact mirrors_element_iff (forall₂_mirrors_iff children)
  | text | comment | instruction =>
    constructor
    · rintro ⟨⟩
    · rintro ⟨⟩

end Xml.Node

open Xml (Node Head)
open Xml.Node

/-! ## The loop -/

/-- The rounds that it takes to use up what is pending and to close the element. -/
def OpenCopy.rounds (c : OpenCopy) : Nat := copyStepsList c.pending + 1

/-- The rounds that are left of the loop, with these elements open. -/
def roundsLeft (inner : OpenCopy) (outer : List OpenCopy) : Nat :=
  inner.rounds + outer.foldr (fun up left => up.rounds + left) 0

/-- **A round of the loop** gives the answer, or it leaves one round less. -/
theorem copyFrom_succ (limit count depth : Nat) (inner : OpenCopy) (outer : List OpenCopy) :
    (∃ answer ≠ .error .noRoot,
      ∀ fuel, copyFrom limit (fuel + 1) count depth inner outer = answer) ∨
    ∃ count' depth' inner' outer', roundsLeft inner' outer' + 1 = roundsLeft inner outer ∧
      ∀ fuel, copyFrom limit (fuel + 1) count depth inner outer =
        copyFrom limit fuel count' depth' inner' outer' := by
  obtain ⟨head, text, copied, pending⟩ := inner
  cases pending with
  | nil =>
    cases outer with
    | nil => exact Or.inl ⟨_, by simp, fun fuel => rfl⟩
    | cons up outer =>
      refine Or.inr ⟨_, _, _, _, ?_, fun fuel => rfl⟩
      simp only [roundsLeft, OpenCopy.rounds, copyStepsList, List.foldr_cons]
      omega
  | cons n rest =>
    cases n with
    | element inner children =>
      by_cases hle : limit ≤ depth
      · exact Or.inl ⟨.error .tooDeep, by simp, fun fuel => by rw [copyFrom_element, if_pos hle]⟩
      · refine Or.inr ⟨_, _, _, _, ?_, fun fuel => by rw [copyFrom_element, if_neg hle]⟩
        simp only [roundsLeft, OpenCopy.rounds, copyStepsList, copySteps, List.foldr_cons]
        omega
    | text | comment | instruction =>
      refine Or.inr ⟨_, _, _, _, ?_, fun fuel => rfl⟩
      simp only [roundsLeft, OpenCopy.rounds, copyStepsList, copySteps]
      omega

/-- **The loop ends**, whatever state it is in: with as many rounds as are left, or with more, it
comes to the same answer, and that is never that there is no root. -/
theorem copyFrom_ends (limit count depth : Nat) (inner : OpenCopy) (outer : List OpenCopy) :
    ∃ answer ≠ .error .noRoot, ∀ fuel, roundsLeft inner outer ≤ fuel →
      copyFrom limit fuel count depth inner outer = answer := by
  induction hleft : roundsLeft inner outer generalizing count depth inner outer with
  | zero =>
    simp only [roundsLeft, OpenCopy.rounds] at hleft
    omega
  | succ left ih =>
    rcases copyFrom_succ limit count depth inner outer with
      ⟨answer, hne, hround⟩ | ⟨count', depth', inner', outer', hless, hround⟩
    · refine ⟨answer, hne, fun fuel hfuel => ?_⟩
      rw [← Nat.sub_add_cancel (Nat.one_le_of_lt hfuel), hround]
    · obtain ⟨answer, hne, hrest⟩ := ih count' depth' inner' outer' (by omega)
      refine ⟨answer, hne, fun fuel hfuel => ?_⟩
      rw [← Nat.sub_add_cancel (Nat.one_le_of_lt hfuel), hround]
      exact hrest _ (by omega)

/-- The loop ends on a tree once every node is taken up and every element closed. -/
theorem copyFrom_root {limit : Nat} (hlimit : 0 < limit) (head : Head) (children : List Node)
    {fuel : Nat} (hfuel : copyStepsList children < fuel) :
    copyFrom limit fuel 1 1 ⟨head, "", [], children⟩ [] = copy limit (.element head children) := by
  obtain ⟨answer, -, hends⟩ := copyFrom_ends limit 1 1 ⟨head, "", [], children⟩ []
  have hrounds : roundsLeft ⟨head, "", [], children⟩ [] = copyStepsList children + 1 := rfl
  have henough : copyStepsList children < 2 * (Node.element head children).size := by
    have hle := copyStepsList_le children
    rw [size]
    omega
  rw [copy, if_neg (Nat.ne_of_gt hlimit), hends fuel (by omega), hends _ (by omega)]

/-- **The copy of a tree mirrors it**: within the limit on nesting it is the one element that does,
with as many elements as there are start tags, and beyond the limit there is none. The loop ends on
every tree, with an answer that more rounds do not change. -/
theorem copy_mirrors (limit : Nat) (head : Head) (children : List Node) :
    let root := Node.element head children
    (root.depth ≤ limit → ∃ e, root.Mirrors e ∧ (∀ f, root.Mirrors f → f = e) ∧
      copy limit root = .ok (e, e.count) ∧ e.count = root.brackets.count .opening) ∧
    (limit < root.depth → copy limit root = .error .tooDeep) ∧
    (∀ e, root.Mirrors e ↔ root.element? = some e) ∧
    ∀ fuel, 0 < limit → 2 * root.size ≤ fuel →
      copyFrom limit fuel 1 1 ⟨head, "", [], children⟩ [] = copy limit root := by
  intro root
  obtain ⟨e, he⟩ : ∃ e, root.element? = some e := ⟨_, rfl⟩
  refine ⟨fun hdepth =>
      ⟨e, mirrors_iff.mpr he, fun f hf => ?_, ?_, Xml.count_eq_count_opening he⟩,
    fun hdeep => ?_, fun e => mirrors_iff, fun fuel hlimit hfuel => ?_⟩
  · exact Option.some.inj ((mirrors_iff.mp hf).symm.trans he)
  · rw [copy_eq limit he, if_neg (Nat.not_lt.mpr hdepth)]
  · rw [copy_eq limit he, if_pos hdeep]
  · refine copyFrom_root hlimit head children ?_
    have hle := copyStepsList_le children
    have hsize : root.size = sizeList children + 1 := rfl
    omega

/-- Text on both sides of a child is one text, past a comment too, without the child's own. -/
example :
    copy 2 (.element ⟨"a", none, []⟩ [.text "x", .element ⟨"b", some "urn:b", [⟨"k", "v"⟩]⟩
      [.text "y"], .text "z", .comment, .text "!"]) =
    .ok (⟨"a", none, [], "xz!", [⟨"b", some "urn:b", [⟨"k", "v"⟩], "y", []⟩]⟩, 2) := rfl

end TradeIntake
