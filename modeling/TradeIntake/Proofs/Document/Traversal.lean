import TradeIntake.Proofs.Document.Limits
import TradeIntake.Proofs.Path.Everywhere
import TradeIntake.Proofs.Path.RoundTrip

/-!
# The traversal of a tree

A traversal keeps a stack of the elements that it has still to visit. It takes the top one off and
puts that one's children on. So the stack holds what is left of the children at every level at once,
the innermost on top, and what is still to come is at any time the trees on the stack, one after
another. Two ways to look an element up rest on it: the first of a name, and the path to all of a
name.

* **`visits_iff`**: what a traversal visits until it ends.
* **`lists_iff`**: the elements of a tree in document order, without the recursion.
* **`parse_everywhere`**: the text of the path to all elements of a name.
* **`traversal_in_order`**: traversals, their number of elements, and what is looked up.
-/

namespace TradeIntake

/-! ## From a stack -/

namespace Located

/-- **From the stack, those elements are visited until it is empty.** -/
inductive Visits : List Located → List Located → Prop
  | done : Visits [] []
  | next {x : Located} {stack ys : List Located} (hys : Visits (x.children ++ stack) ys) :
      Visits (x :: stack) (x :: ys)

theorem flatMap_preorder_cons (x : Located) (stack : List Located) :
    (x :: stack).flatMap preorder = x :: (x.children ++ stack).flatMap preorder := by
  rw [List.flatMap_cons, preorder_eq, List.cons_append, ← List.flatMap_append]

/-- What is visited is the trees on the stack, one after another. -/
theorem eq_of_visits {stack ys : List Located} (h : Visits stack ys) :
    ys = stack.flatMap preorder := by
  induction h with
  | done => rfl
  | next _ ih => rw [flatMap_preorder_cons, ← ih]

/-- A traversal ends: each time it goes on, there is one element less to come. -/
theorem visits_flatMap_preorder (stack : List Located) :
    Visits stack (stack.flatMap preorder) := by
  induction hlength : (stack.flatMap preorder).length generalizing stack with
  | zero =>
    cases stack with
    | nil => exact .done
    | cons x stack =>
      rw [flatMap_preorder_cons] at hlength
      cases hlength
  | succ n ih =>
    cases stack with
    | nil => cases hlength
    | cons x stack =>
      rw [flatMap_preorder_cons] at hlength ⊢
      exact .next (ih _ (Nat.succ.inj hlength))

/-- **A traversal ends, after the trees on its stack.** -/
theorem visits_iff {stack ys : List Located} :
    Visits stack ys ↔ ys = stack.flatMap preorder := by
  constructor
  · exact eq_of_visits
  · rintro rfl
    exact visits_flatMap_preorder stack

theorem visits_walk_iff {x : Located} {ys : List Located} : Visits [x] ys ↔ ys = x.walk := by
  rw [visits_iff, List.flatMap_singleton, walk_eq]

theorem visits_below_iff {x : Located} {ys : List Located} :
    Visits x.children ys ↔ ys = x.below := by
  rw [visits_iff, below_eq]

/-! ## Document order -/

/-- The element and all below it, each of them once, in document order. -/
structure Lists (x : Located) (ys : List Located) : Prop where
  mem_iff : ∀ y, y ∈ ys ↔ ∃ way, LeadsTo way x y
  sorted : Sorted ys

/-- **There is one list of a tree in document order**, the one that the recursion gives. -/
theorem lists_iff {x : Located} {ys : List Located} : x.Lists ys ↔ ys = x.preorder := by
  constructor
  · intro h
    have hmem (y : Located) : y ∈ ys ↔ y ∈ x.preorder := by rw [h.mem_iff, mem_preorder_iff]
    exact List.Sublist.antisymm
      (h.sorted.sublist_of_subset (sorted_preorder x) fun y => (hmem y).mp)
      ((sorted_preorder x).sublist_of_subset h.sorted fun y => (hmem y).mpr)
  · rintro rfl
    exact ⟨fun _ => mem_preorder_iff, sorted_preorder x⟩

end Located

/-! ## All elements of a name -/

namespace Path

theorem wellFormed_everywhere {name : String} (h : IsName name) : (everywhere name).WellFormed where
  steps_ne_nil := List.cons_ne_nil _ _
  steps := List.forall_mem_singleton.mpr ⟨h, List.forall_mem_nil _⟩
  attributeName := by rintro _ ⟨⟩

theorem spells_everywhere {name : String} (h : IsName name) :
    Grammar.accepted.Spells (everywhere name) (everywhere name).renderList where
  steps_ne_nil := List.cons_ne_nil _ _
  attributeName := by rintro _ ⟨⟩
  steps := ⟨_, .cons h .nil .nil, by simp [everywhere, renderList, renderStep, renderAttribute]⟩

/-- **Two marks and a name are the path to all elements of that name.** -/
theorem parse_everywhere {name : String} (h : IsName name) :
    parse ("//" ++ name) = .ok (everywhere name) := by
  have hrender : ("//" ++ name).toList = (everywhere name).renderList := by
    simp [everywhere, renderList, renderStep, renderAxis, renderTest, renderAttribute]
  rw [parse_eq_ok_iff, hrender, trimList_renderList (wellFormed_everywhere h)]
  exact (spells_everywhere h).readList_eq Grammar.readable_accepted

end Path

namespace Document

/-- The first element of a name is the first that the path to all of them selects. -/
theorem findFirst?_eq (d : Document) (name : String) :
    d.findFirst? name = ((Path.everywhere name).select d.root).head? := by
  rw [Path.select_everywhere, List.head?_filter]
  rfl

theorem containsElement_iff (d : Document) (name : String) :
    d.containsElement name = true ↔ (Path.everywhere name).select d.root ≠ [] := by
  rw [containsElement, findFirst?_eq, List.isSome_head?]

theorem length_all_of_parse {settings : IngestSettings} {bytes : List UInt8} {d : Document}
    (h : parse settings bytes = .ok d) : d.root.all.length = d.elementCount := by
  have hcount := (within_of_parse h).2.1
  rw [hcount, Located.all_eq]
  exact Located.length_preorder d.root.located

open Located in
/-- **The traversal is in document order.** From every element on, it visits that element and all
below it, each of them once and in document order, and ends; from the children on, it visits all but
the element itself. From the root of a document it visits as many as the document counts. So the
first element of a name, and whether there is one, are known from the path to all elements of the
name, which selects them in document order. -/
theorem traversal_in_order :
    (∀ x : Located, x.Lists x.walk ∧ x.walk = x.preorder ∧ (∀ ys, Visits [x] ys ↔ ys = x.walk) ∧
      (∀ ys, Visits x.children ys ↔ ys = x.below) ∧ x.walk = x :: x.below) ∧
    (∀ settings bytes d, parse settings bytes = .ok d → d.root.all.length = d.elementCount) ∧
    ∀ (d : Document) (name : String), Path.IsName name →
      ∃ p, Path.parse ("//" ++ name) = .ok p ∧
        d.findFirst? name = (p.select d.root).head? ∧
        (d.containsElement name = true ↔ p.select d.root ≠ []) ∧
        p.select d.root = d.root.all.filter fun x => x.element.name == name := by
  refine ⟨fun x => ⟨lists_iff.mpr (walk_eq x), walk_eq x, fun ys => visits_walk_iff,
    fun ys => visits_below_iff, ?_⟩, fun settings bytes d => length_all_of_parse,
    fun d name hname => ⟨Path.everywhere name, Path.parse_everywhere hname, findFirst?_eq d name,
      containsElement_iff d name, Path.select_everywhere name d.root⟩⟩
  rw [walk_eq, preorder_eq_cons]

/-- What is below one child comes before the next child. -/
example :
    let c : Element := ⟨"c", none, [], "", []⟩
    (Element.all ⟨"a", none, [], "", [⟨"b", none, [], "", [c]⟩, c]⟩).map (·.place) =
      [[], [0], [0, 0], [1]] := rfl

end Document

end TradeIntake
