import Mathlib.Data.List.Pairwise
import Mathlib.Data.List.Sort
import TradeIntake.Document.Element

/-!
# Document order

An element comes before all that is below it, and all below one child before all below the next. So
document order is the lexicographic order of places, in which a way that ends comes before the ways
that go on from it.

* **`walk_eq`**: the walk with a stack is the recursion.
* **`mem_preorder_iff`**: below an element there is what some way leads to from there.
* **`sorted_preorder`**: each element comes once, in the order of places.
-/

namespace TradeIntake

/-! ## Places -/

namespace Place

theorem lt_append_of_ne_nil (p : Place) {w : Place} (h : w ≠ []) : p < p ++ w := by
  obtain ⟨i, w, rfl⟩ := List.exists_cons_of_ne_nil h
  conv_lhs => rw [← List.append_nil p]
  exact List.append_left_lt (List.nil_lt_cons i w)

theorem append_lt_append_of_lt (p : Place) {i j : Nat} (h : i < j) (v w : Place) :
    p ++ i :: v < p ++ j :: w :=
  List.append_left_lt (List.cons_lt_cons_iff.mpr (Or.inl h))

/-- Ways that part stay in the order in which they parted. -/
theorem append_lt_append_of_not_isPrefix {p q : Place} (h : p < q) (hn : ¬ p <+: q) (v w : Place) :
    p ++ v < q ++ w := by
  induction p generalizing q with
  | nil => exact absurd List.nil_prefix hn
  | cons i p ih =>
    cases q with
    | nil => exact absurd h (List.not_lt_nil _)
    | cons j q =>
      rw [List.cons_append, List.cons_append, List.cons_lt_cons_iff]
      rcases List.cons_lt_cons_iff.mp h with hlt | ⟨rfl, hlt⟩
      · exact Or.inl hlt
      · exact Or.inr ⟨rfl, ih hlt fun hp => hn (List.prefix_cons_inj i |>.mpr hp)⟩

end Place

/-! ## Trees -/

namespace Element

/-- **Induction on elements**: what holds of an element whenever it holds of its children holds of
all elements. -/
@[elab_as_elim]
theorem induction_children {motive : Element → Prop}
    (step : ∀ e : Element, (∀ c ∈ e.children, motive c) → motive e) (e : Element) : motive e :=
  step e fun c _ => induction_children step c
termination_by e
decreasing_by
  rename_i hc
  cases e
  have := List.sizeOf_lt_of_mem hc
  simp only [Element.mk.sizeOf_spec]
  simp only at this
  omega

/-- The element that a way leads to. -/
def at? : Element → Place → Option Element
  | e, [] => some e
  | e, i :: way => e.children[i]?.bind fun c => c.at? way

theorem at?_append (e : Element) (v w : Place) : e.at? (v ++ w) = (e.at? v).bind (·.at? w) := by
  induction v generalizing e with
  | nil => rfl
  | cons i v ih =>
    rw [List.cons_append, at?, at?]
    cases e.children[i]? with
    | none => rfl
    | some c => exact ih c

end Element

namespace Located

/-- The element and all below it, in document order, by recursion. -/
def preorder (x : Located) : List Located := x.element.preorder x.place

theorem preorderList_eq (place : Place) (i : Nat) (es : List Element) :
    Element.preorderList place i es =
      (es.zipIdx i).flatMap fun c => c.1.preorder (place ++ [c.2]) := by
  induction es generalizing i with
  | nil => rfl
  | cons e es ih => rw [Element.preorderList, ih, List.zipIdx_cons, List.flatMap_cons]

theorem preorder_eq (x : Located) : x.preorder = x :: x.children.flatMap preorder := by
  obtain ⟨place, name, ns, attributes, text, children⟩ := x
  rw [preorder, Element.preorder, preorderList_eq, Located.children, List.flatMap_map]
  rfl

theorem mem_children_iff {x c : Located} :
    c ∈ x.children ↔ ∃ i, x.element.children[i]? = some c.element ∧ c.place = x.place ++ [i] := by
  unfold children
  rw [List.mem_map]
  constructor
  · rintro ⟨⟨e, i⟩, he, rfl⟩
    exact ⟨i, List.mem_zipIdx_iff_getElem?.mp he, rfl⟩
  · rintro ⟨i, he, hp⟩
    refine ⟨⟨c.element, i⟩, List.mem_zipIdx_iff_getElem?.mpr he, ?_⟩
    rw [← hp]

/-! ## The walk -/

theorem length_preorderList {es : List Element} (h : ∀ e ∈ es, ∀ p, (e.preorder p).length = e.count)
    (place : Place) (i : Nat) :
    (Element.preorderList place i es).length = Element.countList es := by
  induction es generalizing i with
  | nil => rfl
  | cons e es ih =>
    rw [Element.preorderList, List.length_append, h e (by simp),
      ih fun c hc => h c (List.mem_cons_of_mem e hc)]
    rfl

theorem length_preorder (x : Located) : x.preorder.length = x.element.count := by
  obtain ⟨place, e⟩ := x
  induction e using Element.induction_children generalizing place with
  | step e ih =>
    obtain ⟨name, ns, attributes, text, children⟩ := e
    rw [preorder, Element.preorder, List.length_cons, length_preorderList fun c hc p => ih c hc p]
    rfl

/-- Enough fuel visits the stack and all below it. -/
theorem walkFrom_eq {fuel : Nat} {stack : List Located}
    (h : (stack.flatMap preorder).length ≤ fuel) (acc : List Located) :
    walkFrom fuel stack acc = acc.reverse ++ stack.flatMap preorder := by
  induction fuel generalizing stack acc with
  | zero =>
    rw [List.eq_nil_of_length_eq_zero (Nat.le_zero.mp h), List.append_nil]
    rfl
  | succ fuel ih =>
    cases stack with
    | nil => simp [walkFrom]
    | cons x stack =>
      rw [List.flatMap_cons, preorder_eq, List.cons_append, ← List.flatMap_append] at h ⊢
      rw [walkFrom, ih (Nat.le_of_succ_le_succ h), List.reverse_cons, List.append_assoc]
      rfl

/-- **The walk visits what the recursion lists.** -/
theorem walk_eq (x : Located) : x.walk = x.preorder := by
  unfold walk
  rw [walkFrom_eq (by rw [List.flatMap_singleton, length_preorder])]
  rw [List.flatMap_singleton]
  rfl

theorem all_eq (root : Element) : root.all = root.preorder [] := walk_eq root.located

theorem below_eq (x : Located) : x.below = x.children.flatMap preorder := by
  unfold below
  have h := length_preorder x
  rw [preorder_eq, List.length_cons] at h
  rw [walkFrom_eq (by omega)]
  rfl

theorem preorder_eq_cons (x : Located) : x.preorder = x :: x.below := by
  rw [preorder_eq, below_eq]

/-! ## The order -/

/-- A way leads to an element. -/
def LeadsTo (way : Place) (x y : Located) : Prop :=
  y.place = x.place ++ way ∧ x.element.at? way = some y.element

theorem leadsTo_nil_iff {x y : Located} : LeadsTo [] x y ↔ y = x := by
  obtain ⟨p, e⟩ := x
  obtain ⟨q, f⟩ := y
  simp [LeadsTo, Element.at?, eq_comm]

theorem leadsTo_cons_iff {i : Nat} {way : Place} {x y : Located} :
    LeadsTo (i :: way) x y ↔ ∃ c, LeadsTo [i] x c ∧ LeadsTo way c y := by
  unfold LeadsTo
  constructor
  · rintro ⟨hp, hat⟩
    obtain ⟨c, hi, hat⟩ := Option.bind_eq_some_iff.mp hat
    refine ⟨⟨x.place ++ [i], c⟩, ⟨rfl, ?_⟩, ?_, hat⟩
    · rw [Element.at?, hi]
      rfl
    · rw [hp, List.append_assoc]
      rfl
  · rintro ⟨c, ⟨hpc, hi⟩, hp, hat⟩
    obtain ⟨c', hi, hc⟩ := Option.bind_eq_some_iff.mp hi
    obtain rfl := Option.some.inj hc
    refine ⟨by rw [hp, hpc, List.append_assoc]; rfl, ?_⟩
    rw [Element.at?, hi]
    exact hat

theorem leadsTo_append {v w : Place} {x y z : Located} (hy : LeadsTo v x y) (hz : LeadsTo w y z) :
    LeadsTo (v ++ w) x z := by
  refine ⟨by rw [hz.1, hy.1, List.append_assoc], ?_⟩
  rw [Element.at?_append, hy.2]
  exact hz.2

theorem mem_children_iff_leadsTo {x c : Located} : c ∈ x.children ↔ ∃ i, LeadsTo [i] x c := by
  simp only [mem_children_iff, LeadsTo, Element.at?]
  constructor
  · rintro ⟨i, hi, hp⟩
    exact ⟨i, hp, by rw [hi]; rfl⟩
  · rintro ⟨i, hp, hi⟩
    obtain ⟨c', hi, hc⟩ := Option.bind_eq_some_iff.mp hi
    exact ⟨i, by rw [hi, ← Option.some.inj hc], hp⟩

/-- Below an element there is what is reached from it through a child. -/
theorem mem_flatMap_children_iff {x y : Located} {below : Located → List Located}
    (h : ∀ c ∈ x.children, y ∈ below c ↔ ∃ way, LeadsTo way c y) :
    y ∈ x.children.flatMap below ↔ ∃ i way, LeadsTo (i :: way) x y := by
  rw [List.mem_flatMap]
  constructor
  · rintro ⟨c, hc, hy⟩
    obtain ⟨i, hi⟩ := mem_children_iff_leadsTo.mp hc
    obtain ⟨way, hw⟩ := (h c hc).mp hy
    exact ⟨i, way, leadsTo_cons_iff.mpr ⟨c, hi, hw⟩⟩
  · rintro ⟨i, way, hw⟩
    obtain ⟨c, hi, hw⟩ := leadsTo_cons_iff.mp hw
    have hc := mem_children_iff_leadsTo.mpr ⟨i, hi⟩
    exact ⟨c, hc, (h c hc).mpr ⟨way, hw⟩⟩

/-- **What is listed is what some way leads to.** -/
theorem mem_preorder_iff {x y : Located} : y ∈ x.preorder ↔ ∃ way, LeadsTo way x y := by
  obtain ⟨place, e⟩ := x
  induction e using Element.induction_children generalizing place with
  | step e ih =>
    rw [preorder_eq, List.mem_cons, mem_flatMap_children_iff, ← leadsTo_nil_iff]
    · constructor
      · rintro (h | ⟨i, way, h⟩)
        · exact ⟨[], h⟩
        · exact ⟨i :: way, h⟩
      · rintro ⟨way, h⟩
        cases way with
        | nil => exact Or.inl h
        | cons i way => exact Or.inr ⟨i, way, h⟩
    · intro c hc
      obtain ⟨i, hi, -⟩ := mem_children_iff.mp hc
      exact ih c.element (List.mem_of_getElem? hi) c.place

theorem mem_below_iff {x y : Located} : y ∈ x.below ↔ ∃ i way, LeadsTo (i :: way) x y := by
  rw [below_eq, mem_flatMap_children_iff fun c _ => mem_preorder_iff]

/-- In the order of places, none twice. -/
def Sorted (xs : List Located) : Prop := xs.Pairwise fun x y => x.place < y.place

/-- What is below elements that part is ordered as they are. -/
theorem lt_of_not_isPrefix {x y a b : Located} {v w : Place} (h : x.place < y.place)
    (hn : ¬ x.place <+: y.place) (ha : LeadsTo v x a) (hb : LeadsTo w y b) : a.place < b.place := by
  rw [ha.1, hb.1]
  exact Place.append_lt_append_of_not_isPrefix h hn v w

/-- The children are in order, and so is all that is below them. -/
theorem pairwise_children (x : Located) :
    x.children.Pairwise fun c d => c.place < d.place ∧ ¬ c.place <+: d.place := by
  unfold children
  rw [List.pairwise_map]
  have hi : (x.element.children.zipIdx.map Prod.snd).Pairwise (· < ·) := by
    rw [List.zipIdx_map_snd]
    exact List.pairwise_lt_range'
  refine (List.pairwise_map.mp hi).imp fun hlt => ⟨Place.append_lt_append_of_lt _ hlt [] [], ?_⟩
  intro hp
  have := List.cons_prefix_cons.mp ((List.prefix_append_right_inj _).mp hp)
  omega

/-- **Each element is listed once, in the order of places.** -/
theorem sorted_preorder (x : Located) : Sorted x.preorder := by
  obtain ⟨place, e⟩ := x
  induction e using Element.induction_children generalizing place with
  | step e ih =>
    rw [preorder_eq]
    refine List.pairwise_cons.mpr ⟨fun y hy => ?_, List.pairwise_flatMap.mpr ⟨fun c hc => ?_, ?_⟩⟩
    · rw [← below_eq] at hy
      obtain ⟨i, way, hw⟩ := mem_below_iff.mp hy
      rw [hw.1]
      exact Place.lt_append_of_ne_nil _ (List.cons_ne_nil i way)
    · obtain ⟨i, hi, -⟩ := mem_children_iff.mp hc
      exact ih c.element (List.mem_of_getElem? hi) c.place
    · refine (pairwise_children _).imp fun ⟨hlt, hn⟩ a ha b hb => ?_
      obtain ⟨v, ha⟩ := mem_preorder_iff.mp ha
      obtain ⟨w, hb⟩ := mem_preorder_iff.mp hb
      exact lt_of_not_isPrefix hlt hn ha hb

theorem sorted_all (root : Element) : Sorted root.all := by
  rw [all_eq]
  exact sorted_preorder root.located

/-- What is below something below is below. -/
theorem mem_below_trans {x y z : Located} (hy : y ∈ x.below) (hz : z ∈ y.below) : z ∈ x.below := by
  obtain ⟨i, v, hv⟩ := mem_below_iff.mp hy
  obtain ⟨j, w, hw⟩ := mem_below_iff.mp hz
  exact mem_below_iff.mpr ⟨i, v ++ j :: w, leadsTo_append hv hw⟩

/-- In one tree, what stands at a longer way stands below. -/
theorem mem_preorder_of_isPrefix {top x y : Located} (hx : x ∈ top.preorder) (hy : y ∈ top.preorder)
    (h : x.place <+: y.place) : y ∈ x.preorder := by
  obtain ⟨v, hpx, hx⟩ := mem_preorder_iff.mp hx
  obtain ⟨w, hpy, hy⟩ := mem_preorder_iff.mp hy
  rw [hpx, hpy, List.prefix_append_right_inj] at h
  obtain ⟨u, rfl⟩ := h
  rw [Element.at?_append, hx] at hy
  exact mem_preorder_iff.mpr ⟨u, by rw [hpy, hpx, List.append_assoc], hy⟩

theorem below_subset (x : Located) : x.below ⊆ x.preorder := by
  rw [preorder_eq_cons]
  exact List.subset_cons_self x _

theorem mem_below_iff_of_mem_preorder {x y : Located} (h : y ∈ x.preorder) :
    y ∈ x.below ↔ x.place < y.place := by
  constructor
  · intro hy
    obtain ⟨i, way, hw⟩ := mem_below_iff.mp hy
    rw [hw.1]
    exact Place.lt_append_of_ne_nil _ (List.cons_ne_nil i way)
  · intro hlt
    rw [preorder_eq_cons] at h
    rcases List.mem_cons.mp h with rfl | h
    · exact absurd hlt (List.lt_irrefl _)
    · exact h

/-! ## Lists in document order -/

theorem sorted_below (x : Located) : Sorted x.below := by
  have h := sorted_preorder x
  rw [preorder_eq_cons] at h
  exact (List.pairwise_cons.mp h).2

theorem Sorted.of_sublist {xs ys : List Located} (hy : Sorted ys) (h : xs.Sublist ys) : Sorted xs :=
  List.Pairwise.sublist h hy

theorem Sorted.nodup_places {xs : List Located} (h : Sorted xs) : (xs.map (·.place)).Nodup := by
  refine List.pairwise_map.mpr (List.Pairwise.imp (fun {x y} hlt he => ?_) h)
  rw [he] at hlt
  exact List.lt_irrefl _ hlt

/-- Elements of a list in document order are known by their places. -/
theorem Sorted.eq_of_place {xs : List Located} (h : Sorted xs) {x y : Located} (hx : x ∈ xs)
    (hy : y ∈ xs) (he : x.place = y.place) : x = y :=
  List.inj_on_of_nodup_map h.nodup_places hx hy he

theorem sorted_children (x : Located) : Sorted x.children :=
  (pairwise_children x).imp fun h => h.1

/-- What holds of any two elements of a list in its order holds of those in document order. -/
theorem Sorted.rel_of_pairwise {xs : List Located} (h : Sorted xs) {R : Located → Located → Prop}
    (hR : xs.Pairwise R) {x y : Located} (hx : x ∈ xs) (hy : y ∈ xs) (hlt : x.place < y.place) :
    R x y := by
  have : Std.Symm fun x y : Located =>
      (x.place < y.place → R x y) ∧ (y.place < x.place → R y x) := ⟨fun _ _ => And.symm⟩
  have key : xs.Pairwise fun x y =>
      (x.place < y.place → R x y) ∧ (y.place < x.place → R y x) :=
    (h.and hR).imp fun ⟨hlt, hr⟩ => ⟨fun _ => hr, fun hgt => absurd hgt (List.lt_asymm hlt)⟩
  refine (key.forall hx hy fun he => ?_).1 hlt
  rw [he] at hlt
  exact List.lt_irrefl _ hlt

/-- **A list of elements in document order is a part of any such list that has them all.** -/
theorem Sorted.sublist_of_subset {xs ys : List Located} (hx : Sorted xs) (hy : Sorted ys)
    (h : xs ⊆ ys) : xs.Sublist ys := by
  have : Std.Antisymm fun x y : Located => x.place < y.place :=
    ⟨fun x y hxy hyx => absurd hyx (List.lt_asymm hxy)⟩
  have hsub := List.subperm_of_subset (List.Nodup.of_map _ hx.nodup_places) h
  exact List.sublist_of_subperm_of_pairwise (r := fun x y : Located => x.place < y.place) hsub hx hy

/-- What is a part of the document is what is found of it there. -/
theorem Sorted.filter_eq {xs ys : List Located} (hy : Sorted ys) (h : xs.Sublist ys) :
    ys.filter (fun y => y.place ∈ xs.map (·.place)) = xs := by
  refine List.Sublist.antisymm ?_ ?_
  · refine Sorted.sublist_of_subset (hy.filter _) (hy.of_sublist h) fun y hm => ?_
    obtain ⟨hym, hp⟩ := List.mem_filter.mp hm
    obtain ⟨x, hx, he⟩ := List.mem_map.mp (of_decide_eq_true hp)
    rwa [← hy.eq_of_place (h.subset hx) hym he]
  · refine Sorted.sublist_of_subset (hy.of_sublist h) (hy.filter _) fun x hx => ?_
    exact List.mem_filter.mpr ⟨h.subset hx, decide_eq_true (List.mem_map_of_mem hx)⟩

end Located
end TradeIntake
