import TradeIntake.Proofs.Path.Order

/-!
# Elements of a name, wherever they stand

The path `//name` leads to the root if it has that local name, and to every element below it that
has. It selects them in document order. Whether it selects any is a matter of the tree alone: a name
occurs in a tree when it is that of the element on top or occurs in the tree of one of its children.

* **`select_everywhere`**: what the path selects.
* **`select_everywhere_eq_nil_iff`**: it selects nothing exactly when the name does not occur.
-/

namespace TradeIntake

/-- The path to all elements of a name. -/
def Path.everywhere (name : String) : Path :=
  ⟨[⟨.descendant, .named name, []⟩], none⟩

/-- **The name occurs in the tree**, whether the element itself has it or one somewhere below. -/
inductive Element.Occurs (name : String) : Element → Prop
  | here {e : Element} (h : e.name = name) : Occurs name e
  | under {e c : Element} (hc : c ∈ e.children) (h : Occurs name c) : Occurs name e

open Located

/-- A name occurs exactly when it is found in document order. -/
theorem Element.occurs_iff_exists_preorder {name : String} (x : Located) :
    x.element.Occurs name ↔ ∃ y ∈ x.preorder, y.element.name = name := by
  obtain ⟨place, e⟩ := x
  induction e using Element.induction_children generalizing place with
  | step e ih =>
    rw [preorder_eq]
    constructor
    · intro h
      cases h with
      | here h => exact ⟨_, List.mem_cons_self, h⟩
      | @under _ c hc h =>
        obtain ⟨i, hi⟩ := List.mem_iff_getElem?.mp hc
        obtain ⟨y, hy, hname⟩ := (ih c hc (place ++ [i])).mp h
        have hchild : (⟨place ++ [i], c⟩ : Located) ∈ (⟨place, e⟩ : Located).children :=
          mem_children_iff.mpr ⟨i, hi, rfl⟩
        exact ⟨y, List.mem_cons_of_mem _ (List.mem_flatMap.mpr ⟨_, hchild, hy⟩), hname⟩
    · rintro ⟨y, hy, hname⟩
      rcases List.mem_cons.mp hy with rfl | hy
      · exact .here hname
      · obtain ⟨c, hc, hy⟩ := List.mem_flatMap.mp hy
        obtain ⟨i, hi, -⟩ := mem_children_iff.mp hc
        have hmem := List.mem_of_getElem? hi
        exact .under hmem ((ih c.element hmem c.place).mpr ⟨y, hy, hname⟩)

namespace Path

/-- **The path selects the elements of the name**, in document order. -/
theorem select_everywhere (name : String) (root : Element) :
    (everywhere name).select root = root.all.filter fun x => x.element.name == name :=
  keep_of_nodup (sorted_all root).nodup_places _

/-- **It selects nothing exactly when the name does not occur.** -/
theorem select_everywhere_eq_nil_iff {name : String} {root : Element} :
    (everywhere name).select root = [] ↔ ¬ root.Occurs name := by
  have hoccurs : root.Occurs name ↔ ∃ x ∈ root.preorder [], x.element.name = name :=
    Element.occurs_iff_exists_preorder root.located
  rw [select_everywhere, List.filter_eq_nil_iff, all_eq, hoccurs]
  simp only [beq_iff_eq, not_exists, not_and]

end Path

instance (name : String) (root : Element) : Decidable (root.Occurs name) :=
  decidable_of_iff (∃ x ∈ root.all, x.element.name = name) <| by
    rw [all_eq]
    exact (Element.occurs_iff_exists_preorder root.located).symm

end TradeIntake
