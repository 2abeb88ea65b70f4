import TradeIntake.Document.Element

/-!
# From nodes to elements

The node tree of a document becomes an owned tree of elements: comments and instructions go, and an
element keeps the text that stands directly in it. `Node.element?` says what becomes of a node by
recursion. `copy` does the same with a stack of the elements that are still being copied, counts
them, and refuses one that would be nested deeper than a limit.

Model of `copy_tree` (`crates/ingest/src/document.rs`), whose `OpenElement` is `OpenCopy`.

* **`size_pos`**: a node counts itself.
-/

namespace TradeIntake

namespace Xml.Node

mutual

/-- How many nodes there are from this one down. -/
def size : Node → Nat
  | .element _ children => sizeList children + 1
  | .text _ | .comment | .instruction => 1
termination_by structural n => n

/-- How many nodes there are from these down. -/
def sizeList : List Node → Nat
  | [] => 0
  | n :: ns => n.size + sizeList ns
termination_by structural ns => ns

end

theorem size_pos (n : Node) : 0 < n.size := by
  cases n <;> simp [size]

/-- The text that stands directly among nodes. -/
def textOf : List Node → String
  | [] => ""
  | .text s :: ns => s ++ textOf ns
  | _ :: ns => textOf ns

mutual

/-- The element that a node becomes, by recursion; none for a node that is no element. -/
def element? : Node → Option Element
  | .element head children =>
    some ⟨head.name, head.namespaceUri?, head.attributes, textOf children, elementsOf children⟩
  | .text _ | .comment | .instruction => none
termination_by structural n => n

/-- The elements that nodes become, by recursion. -/
def elementsOf : List Node → List Element
  | [] => []
  | n :: ns => n.element?.toList ++ elementsOf ns
termination_by structural ns => ns

end

end Xml.Node

/-- Why a node is not copied. -/
inductive CopyFault where
  | tooDeep
  | noRoot
  deriving Repr, DecidableEq

/-- An element whose children are still being copied. -/
structure OpenCopy where
  head : Xml.Head
  text : String
  /-- The children so far, the last one first. -/
  children : List Element
  /-- The nodes still to copy. -/
  pending : List Xml.Node

/-- The element, once nothing is pending. -/
def OpenCopy.finish (c : OpenCopy) : Element :=
  ⟨c.head.name, c.head.namespaceUri?, c.head.attributes, c.text, c.children.reverse⟩

/-- Go on copying: `count` elements so far, `depth` of them open, `outer` those around the innermost
one. `fuel` bounds the steps. -/
def copyFrom (limit : Nat) :
    Nat → Nat → Nat → OpenCopy → List OpenCopy → Except CopyFault (Element × Nat)
  | 0, _, _, _, _ => .error .noRoot
  | fuel + 1, count, depth, inner, outer =>
    match inner.pending with
    | .element head children :: rest =>
      if limit ≤ depth then .error .tooDeep
      else copyFrom limit fuel (count + 1) (depth + 1) ⟨head, "", [], children⟩
        ({ inner with pending := rest } :: outer)
    | .text s :: rest =>
      copyFrom limit fuel count depth { inner with text := inner.text ++ s, pending := rest } outer
    | _ :: rest => copyFrom limit fuel count depth { inner with pending := rest } outer
    | [] =>
      match outer with
      | [] => .ok (inner.finish, count)
      | up :: outer =>
        copyFrom limit fuel count (depth - 1)
          { up with children := inner.finish :: up.children } outer

/-- The element that a root becomes, with the number of elements. Every node is taken up once and
every element closed once, so twice the number of nodes is fuel enough. -/
def copy (limit : Nat) (root : Xml.Node) : Except CopyFault (Element × Nat) :=
  match root with
  | .element head children =>
    if limit = 0 then .error .tooDeep
    else copyFrom limit (2 * root.size) 1 1 ⟨head, "", [], children⟩ []
  | _ => .error .noRoot

end TradeIntake
