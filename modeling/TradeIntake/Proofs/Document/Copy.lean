import TradeIntake.Proofs.Xml.Brackets

/-!
# The copy of a tree

The copy with a stack takes up the nodes that an element still has to copy, one after another. When
they are used up, the element has their texts and their elements, and those around it are as they
were. So the copy is the recursion, refused when the tree is nested too deep. Its fuel is enough, and
it never finds that there is no root.

* **`copyFrom_pending`**: what copying nodes does to the innermost element.
* **`copy_eq`**: the copy of an element.
-/

namespace TradeIntake

namespace Xml.Node

mutual

/-- How many steps it takes to copy this node. -/
def copySteps : Node → Nat
  | .element _ children => copyStepsList children + 2
  | .text _ | .comment | .instruction => 1
termination_by structural n => n

/-- How many steps it takes to copy these nodes. -/
def copyStepsList : List Node → Nat
  | [] => 0
  | n :: ns => n.copySteps + copyStepsList ns
termination_by structural ns => ns

end

theorem copySteps_of_not_isElement {n : Node} (h : ¬ n.IsElement) : n.copySteps = 1 := by
  cases n with
  | element head children => exact absurd trivial h
  | text | comment | instruction => rfl

/-- Every node is taken up once and every element closed once. -/
theorem copyStepsList_le (ns : List Node) : copyStepsList ns ≤ 2 * sizeList ns := by
  induction ns using induction_list with
  | nil => exact Nat.le_refl _
  | element head children ns ihchildren ihns =>
    simp only [copyStepsList, copySteps, sizeList, size]
    omega
  | leaf n ns hn ih =>
    have hsize := n.size_pos
    rw [copyStepsList, copySteps_of_not_isElement hn, sizeList]
    omega

theorem elementsOf_of_not_isElement {n : Node} (h : ¬ n.IsElement) (ns : List Node) :
    elementsOf (n :: ns) = elementsOf ns := by
  cases n with
  | element head children => exact absurd trivial h
  | text | comment | instruction => rfl

/-- The elements that nodes become are nested as the nodes are. -/
theorem depthList_elementsOf (ns : List Node) :
    Element.depthList (elementsOf ns) = depthList ns := by
  induction ns using induction_list with
  | nil => rfl
  | element head children ns ihchildren ihns =>
    change max (Element.depthList (elementsOf children) + 1) (Element.depthList (elementsOf ns)) =
      max (depthList children + 1) (depthList ns)
    rw [ihchildren, ihns]
  | leaf n ns hn ih =>
    rw [elementsOf_of_not_isElement hn, ih, depthList, depth_of_not_isElement hn, Nat.zero_max]

theorem depth_of_element? {n : Node} {e : Element} (h : n.element? = some e) : e.depth = n.depth := by
  cases n with
  | element head children =>
    obtain rfl := Option.some.inj h
    exact congrArg (· + 1) (depthList_elementsOf children)
  | text | comment | instruction => cases h

end Xml.Node

open Xml (Node Head)
open Xml.Node

section Step

variable {limit fuel count depth : Nat} {head : Head} {text : String} {copied : List Element}
  {rest : List Node} {outer : List OpenCopy}

theorem copyFrom_element (inner : Head) (children : List Node) :
    copyFrom limit (fuel + 1) count depth ⟨head, text, copied, .element inner children :: rest⟩
        outer =
      if limit ≤ depth then .error .tooDeep
      else copyFrom limit fuel (count + 1) (depth + 1) ⟨inner, "", [], children⟩
        (⟨head, text, copied, rest⟩ :: outer) := rfl

/-- The text that a node adds to the element that it stands in. -/
theorem copyFrom_leaf {n : Node} (hn : ¬ n.IsElement) :
    copyFrom limit (fuel + 1) count depth ⟨head, text, copied, n :: rest⟩ outer =
      copyFrom limit fuel count depth ⟨head, text ++ textOf [n], copied, rest⟩ outer := by
  cases n with
  | element inner children => exact absurd trivial hn
  | text s => simp [copyFrom, textOf]
  | comment | instruction => simp [copyFrom, textOf]

theorem copyFrom_close (inner : OpenCopy) (h : inner.pending = []) :
    copyFrom limit (fuel + 1) count (depth + 1) inner (⟨head, text, copied, rest⟩ :: outer) =
      copyFrom limit fuel count depth ⟨head, text, inner.finish :: copied, rest⟩ outer := by
  obtain ⟨_, _, _, pending⟩ := inner
  obtain rfl : pending = [] := h
  rfl

end Step

theorem textOf_cons (n : Node) (ns : List Node) : textOf (n :: ns) = textOf [n] ++ textOf ns := by
  cases n <;> simp [textOf]

/-- **Copying nodes** adds their texts and their elements to the innermost element, unless one of
them is nested too deep. -/
theorem copyFrom_pending {limit depth : Nat} (h : depth ≤ limit) (ns : List Node)
    (fuel count : Nat) (head : Head) (text : String) (copied : List Element) (rest : List Node)
    (outer : List OpenCopy) :
    copyFrom limit (fuel + copyStepsList ns) count depth ⟨head, text, copied, ns ++ rest⟩ outer =
      if limit < depth + depthList ns then .error .tooDeep
      else copyFrom limit fuel (count + Element.countList (elementsOf ns)) depth
        ⟨head, text ++ textOf ns, (elementsOf ns).reverse ++ copied, rest⟩ outer := by
  induction ns using induction_list generalizing depth fuel count head text copied rest outer with
  | nil => simp [depthList, Nat.not_lt.mpr h, copyStepsList, elementsOf, Element.countList, textOf]
  | element inner children ns ihchildren ihns =>
    have hfuel : fuel + copyStepsList (.element inner children :: ns) =
        fuel + copyStepsList ns + 1 + copyStepsList children + 1 := by
      simp only [copyStepsList, copySteps]
      omega
    have hdepth : depthList (.element inner children :: ns) =
        max (depthList children + 1) (depthList ns) := rfl
    rw [hfuel, List.cons_append, copyFrom_element, hdepth]
    by_cases hle : limit ≤ depth
    · rw [if_pos hle, if_pos (by omega)]
    -- the children are copied on top of the element, which is closed when they are used up
    have hchildren := ihchildren (Nat.not_le.mp hle) (fuel + copyStepsList ns + 1) (count + 1)
      inner "" [] [] (⟨head, text, copied, ns ++ rest⟩ :: outer)
    rw [List.append_nil] at hchildren
    rw [if_neg hle, hchildren]
    by_cases hdeep : limit < depth + 1 + depthList children
    · rw [if_pos hdeep, if_pos (by omega)]
    rw [if_neg hdeep, copyFrom_close _ rfl, ihns h]
    by_cases hrest : limit < depth + depthList ns
    · rw [if_pos hrest, if_pos (by omega)]
    have helements : elementsOf (.element inner children :: ns) = ⟨inner.name, inner.namespaceUri?,
        inner.attributes, textOf children, elementsOf children⟩ :: elementsOf ns := rfl
    rw [if_neg hrest, if_neg (by omega), helements, Element.countList, Element.count]
    congr 1
    · omega
    · simp [OpenCopy.finish, textOf]
  | leaf n ns hn ih =>
    rw [copyStepsList, copySteps_of_not_isElement hn, Nat.add_comm 1, ← Nat.add_assoc,
      List.cons_append, copyFrom_leaf hn, ih h, depthList, depth_of_not_isElement hn, Nat.zero_max,
      elementsOf_of_not_isElement hn, textOf_cons n ns, String.append_assoc]

/-- **The copy of an element** is the element that it becomes, with the number of elements, unless
it is nested too deep. -/
theorem copy_eq (limit : Nat) {root : Node} {e : Element} (h : root.element? = some e) :
    copy limit root = if limit < root.depth then .error .tooDeep else .ok (e, e.count) := by
  cases root with
  | element head children =>
    obtain rfl := Option.some.inj h
    have hdepth : (Node.element head children).depth = depthList children + 1 := rfl
    rw [copy, hdepth]
    by_cases hzero : limit = 0
    · rw [if_pos hzero, if_pos (by omega)]
    obtain ⟨fuel, hfuel⟩ : ∃ fuel, 2 * (Node.element head children).size =
        fuel + 1 + copyStepsList children := by
      have := copyStepsList_le children
      refine ⟨2 * (Node.element head children).size - 1 - copyStepsList children, ?_⟩
      rw [size]
      omega
    have hone : 1 ≤ limit := Nat.pos_of_ne_zero hzero
    have hcopied := copyFrom_pending hone children (fuel + 1) 1 head "" [] [] []
    rw [List.append_nil] at hcopied
    rw [if_neg hzero, hfuel, hcopied]
    by_cases hdeep : limit < 1 + depthList children
    · rw [if_pos hdeep, if_pos (by omega)]
    rw [if_neg hdeep, if_neg (by omega), copyFrom]
    simp [OpenCopy.finish, Element.count, Nat.add_comm]
  | text | comment | instruction => cases h

end TradeIntake
