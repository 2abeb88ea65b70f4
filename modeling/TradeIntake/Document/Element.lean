import TradeIntake.Text.Blank
import TradeIntake.Xml.Node

/-!
# Elements

An owned tree of elements by local name. An element's text joins the text that stands directly in
it. A *place* is the way from the root to an element: at each level the number of the child, from
zero.

`preorder` lists an element and all below it in document order by recursion; `walk` lists them with
a stack of the elements still to visit.

Model of `XmlElement` (`crates/ingest/src/document.rs`) with `attribute`, `text` and
`children_named`. `walk` is the iterator `Descendants` of `descendants_and_self`, `below` that of
`descendants`.

* **`count_pos`**: an element counts itself.
* **`trimmedText?_eq_some_iff`**: what the trimmed text of an element is.
-/

namespace TradeIntake

/-- An element of a document. -/
structure Element where
  /-- The local name. -/
  name : String
  namespaceUri? : Option String
  attributes : List Xml.Attribute
  /-- The text that stands directly in the element. -/
  text : String
  children : List Element
  deriving Inhabited

namespace Element

/-- The value of the first attribute of that local name. -/
def attribute? (e : Element) (name : String) : Option String :=
  (e.attributes.find? fun a => a.name == name).map (·.value)

/-- The trimmed text, unless it is blank. -/
def trimmedText? (e : Element) : Option String :=
  Text.nonBlank? e.text

/-- The children of that local name. -/
def childrenNamed (e : Element) (name : String) : List Element :=
  e.children.filter fun c => c.name == name

mutual

/-- How many elements there are from this one down. -/
def count : Element → Nat
  | ⟨_, _, _, _, children⟩ => countList children + 1
termination_by structural e => e

/-- How many elements there are from these down. -/
def countList : List Element → Nat
  | [] => 0
  | e :: es => e.count + countList es
termination_by structural es => es

end

mutual

/-- How deep elements are nested from this one down. -/
def depth : Element → Nat
  | ⟨_, _, _, _, children⟩ => depthList children + 1
termination_by structural e => e

/-- How deep elements are nested from these down. -/
def depthList : List Element → Nat
  | [] => 0
  | e :: es => max e.depth (depthList es)
termination_by structural es => es

end

theorem count_pos (e : Element) : 0 < e.count := by
  cases e
  simp [count]

theorem trimmedText?_eq_some_iff {e : Element} {t : String} :
    e.trimmedText? = some t ↔ Text.trim e.text = t ∧ t ≠ "" := by
  unfold Element.trimmedText? Text.nonBlank?
  by_cases h : Text.trim e.text = ""
  · rw [if_pos (String.isEmpty_iff.mpr h), h]
    constructor
    · rintro ⟨⟩
    · rintro ⟨rfl, hne⟩
      exact absurd rfl hne
  · rw [if_neg (fun he => h (String.isEmpty_iff.mp he)), Option.some.injEq]
    constructor
    · rintro rfl
      exact ⟨rfl, h⟩
    · exact And.left

end Element

/-- The way from the root to an element. -/
abbrev Place := List Nat

/-- An element with its place. -/
structure Located where
  place : Place
  element : Element

namespace Located

/-- The children, in document order. -/
def children (x : Located) : List Located :=
  x.element.children.zipIdx.map fun c => ⟨x.place ++ [c.2], c.1⟩

/-- Visit the elements on the stack and all below them; `fuel` bounds how many there are, and `acc`
holds those visited so far, the last one first. -/
def walkFrom : Nat → List Located → List Located → List Located
  | 0, _, acc => acc.reverse
  | _, [], acc => acc.reverse
  | fuel + 1, x :: stack, acc => walkFrom fuel (x.children ++ stack) (x :: acc)

/-- The element and all below it, in document order. -/
def walk (x : Located) : List Located :=
  walkFrom x.element.count [x] []

/-- All elements below the element, in document order. -/
def below (x : Located) : List Located :=
  walkFrom (x.element.count - 1) x.children []

end Located

namespace Element

mutual

/-- The element at a place and all below it, by recursion. -/
def preorder (place : Place) : Element → List Located
  | ⟨name, ns, attributes, text, children⟩ =>
    ⟨place, ⟨name, ns, attributes, text, children⟩⟩ :: preorderList place 0 children
termination_by structural e => e

/-- The children of a place from number `i` on, and all below them, by recursion. -/
def preorderList (place : Place) (i : Nat) : List Element → List Located
  | [] => []
  | e :: es => e.preorder (place ++ [i]) ++ preorderList place (i + 1) es
termination_by structural es => es

end

/-- The root with its place. -/
def located (root : Element) : Located := ⟨[], root⟩

/-- All elements of a tree with their places, in document order. -/
def all (root : Element) : List Located :=
  root.located.walk

end Element
end TradeIntake
