import Mathlib.Data.List.Basic
import TradeIntake.Path.Reader
import TradeIntake.Proofs.Path.Order

/-!
# What paths select

A path is followed step by step, with a list of elements at a time. What it means is said of single
elements: a *chain* has one element for each step, the first one at the root or anywhere in the
document, each further one a child of the one before or somewhere below it, and each passes its
step. Many chains may end in one element.

* **`mem_select_iff`**: without positions, a path selects the elements in which its chains end.
* **`nodup_places_select`**: no path selects an element twice.
* **`selects_chain_ends`**: both together.
-/

namespace TradeIntake

/-! ## Chains -/

/-- The first attribute of that local name has that value. -/
def Element.FirstAttribute (e : Element) (name value : String) : Prop :=
  ∃ before a after, e.attributes = before ++ a :: after ∧ (∀ b ∈ before, b.name ≠ name) ∧
    a.name = name ∧ a.value = value

/-- The element passes the step: its name, and the attributes that the step asks for. -/
def Step.Passes (s : Step) (x : Located) : Prop :=
  (s.test = .any ∨ s.test = .named x.element.name) ∧
    ∀ name value, .hasValue name value ∈ s.predicates → x.element.FirstAttribute name value

/-- The step asks for no position. -/
def Step.Unpositioned (s : Step) : Prop := ∀ n, .position n ∉ s.predicates

/-- Where a first step may begin: at the root, or at any element of the document. -/
def Axis.Begins (root : Element) : Axis → Located → Prop
  | .child, x => x = root.located
  | .descendant, x => ∃ way, Located.LeadsTo way root.located x

/-- Where a further step may lead from an element: to a child, or to any element below it. -/
def Axis.Leads : Axis → Located → Located → Prop
  | .child, x, y => ∃ i, Located.LeadsTo [i] x y
  | .descendant, x, y => ∃ i way, Located.LeadsTo (i :: way) x y

namespace Path

open Located

/-- The elements continue a chain that came to `x`, one for each step. -/
def Continues (x : Located) : List Step → List Located → Prop
  | [], [] => True
  | s :: steps, y :: ys => s.axis.Leads x y ∧ s.Passes y ∧ Continues y steps ys
  | _, _ => False

/-- **A chain of the steps**, one element for each. -/
def Chain (root : Element) : List Step → List Located → Prop
  | s :: steps, x :: xs => s.axis.Begins root x ∧ s.Passes x ∧ Continues x steps xs
  | _, _ => False

/-! ## One step -/

theorem attribute?_eq_some_iff {e : Element} {name value : String} :
    e.attribute? name = some value ↔ e.FirstAttribute name value := by
  unfold Element.attribute? Element.FirstAttribute
  simp only [Option.map_eq_some_iff, List.find?_eq_some_iff_append, beq_iff_eq, Bool.not_eq_eq_eq_not,
    Bool.not_true, beq_eq_false_iff_ne]
  constructor
  · rintro ⟨a, ⟨ha, before, after, he, hb⟩, hv⟩
    exact ⟨before, a, after, he, hb, ha, hv⟩
  · rintro ⟨before, a, after, he, hb, ha, hv⟩
    exact ⟨a, ⟨ha, before, after, he, hb⟩, hv⟩

theorem admits_iff {t : NameTest} {name : String} :
    t.admits name = true ↔ t = .any ∨ t = .named name := by
  cases t with
  | any => simp [NameTest.admits]
  | named n =>
    rw [NameTest.admits, beq_iff_eq, NameTest.named.injEq, eq_comm]
    simp

/-- Without positions, predicates keep the elements with the values that they ask for. -/
theorem mem_foldl_apply_iff {ps : List Predicate} (h : ∀ n, .position n ∉ ps) {xs : List Located}
    {x : Located} :
    x ∈ ps.foldl (fun xs p => p.apply xs) xs ↔
      x ∈ xs ∧ ∀ name value, .hasValue name value ∈ ps → x.element.FirstAttribute name value := by
  induction ps generalizing xs with
  | nil => simp
  | cons p ps ih =>
    rw [List.foldl_cons, ih fun n hn => h n (List.mem_cons_of_mem p hn)]
    cases p with
    | position n => exact absurd List.mem_cons_self (h n)
    | hasValue name value =>
      simp only [Predicate.apply, List.mem_filter, beq_iff_eq, attribute?_eq_some_iff,
        List.mem_cons, Predicate.hasValue.injEq]
      constructor
      · rintro ⟨⟨hx, hv⟩, hps⟩
        refine ⟨hx, fun n v hm => ?_⟩
        rcases hm with ⟨rfl, rfl⟩ | hm
        · exact hv
        · exact hps n v hm
      · rintro ⟨hx, hps⟩
        exact ⟨⟨hx, hps name value (Or.inl ⟨rfl, rfl⟩)⟩, fun n v hm => hps n v (Or.inr hm)⟩

/-- Elements of one tree are known by their places, so nothing is lost with what was reached
before. -/
theorem mem_distinct_iff {top : Located} {xs : List Located} (h : xs ⊆ top.preorder)
    {seen : List Place} {x : Located} :
    x ∈ distinct seen xs ↔ x ∈ xs ∧ x.place ∉ seen := by
  induction xs generalizing seen with
  | nil => simp [distinct]
  | cons y xs ih =>
    obtain ⟨hy, h⟩ := List.cons_subset.mp h
    unfold distinct
    split
    · rename_i hs
      have hs := List.contains_iff_mem.mp hs
      rw [ih h, List.mem_cons]
      constructor
      · rintro ⟨hx, hn⟩
        exact ⟨Or.inr hx, hn⟩
      · rintro ⟨rfl | hx, hn⟩
        · exact absurd hs hn
        · exact ⟨hx, hn⟩
    · rename_i hs
      have hs := fun hm => hs (List.contains_iff_mem.mpr hm)
      rw [List.mem_cons, ih h, List.mem_cons, List.mem_cons]
      constructor
      · rintro (rfl | ⟨hx, hn⟩)
        · exact ⟨Or.inl rfl, hs⟩
        · exact ⟨Or.inr hx, fun hm => hn (Or.inr hm)⟩
      · rintro ⟨rfl | hx, hn⟩
        · exact Or.inl rfl
        · by_cases he : x.place = y.place
          · exact Or.inl ((sorted_preorder top).eq_of_place (h hx) hy he)
          · exact Or.inr ⟨hx, fun hm => hm.elim he hn⟩

/-- **A step keeps what passes it.** -/
theorem mem_keep_iff {top : Located} {xs : List Located} (h : xs ⊆ top.preorder) {s : Step}
    (hs : s.Unpositioned) {x : Located} : x ∈ keep s xs ↔ x ∈ xs ∧ s.Passes x := by
  have hsub : (xs.filter fun x => s.test.admits x.element.name) ⊆ top.preorder :=
    fun y hy => h (List.mem_of_mem_filter hy)
  unfold keep Step.Passes
  rw [mem_foldl_apply_iff hs, mem_distinct_iff hsub, List.mem_filter, admits_iff]
  simp [and_assoc]

theorem mem_reach_iff {axis : Axis} {x y : Located} : y ∈ reach axis x ↔ axis.Leads x y := by
  cases axis with
  | child => exact mem_children_iff_leadsTo
  | descendant => exact mem_below_iff

theorem mem_reachFirst_iff {axis : Axis} {root : Element} {x : Located} :
    x ∈ reachFirst axis root ↔ axis.Begins root x := by
  cases axis with
  | child => exact List.mem_singleton
  | descendant =>
    change x ∈ root.all ↔ _
    rw [all_eq]
    exact mem_preorder_iff (x := root.located)

theorem reachFirst_subset (axis : Axis) (root : Element) :
    reachFirst axis root ⊆ root.located.preorder := by
  intro x hx
  rw [mem_preorder_iff]
  have hb := mem_reachFirst_iff.mp hx
  cases axis with
  | child => exact ⟨[], leadsTo_nil_iff.mpr hb⟩
  | descendant => exact hb

theorem reach_subset {top x : Located} (hx : x ∈ top.preorder) (axis : Axis) :
    reach axis x ⊆ top.preorder := by
  intro y hy
  obtain ⟨v, hv⟩ := mem_preorder_iff.mp hx
  obtain ⟨w, hw⟩ : ∃ w, LeadsTo w x y := by
    cases axis with
    | child =>
      obtain ⟨i, hi⟩ := mem_children_iff_leadsTo.mp hy
      exact ⟨[i], hi⟩
    | descendant =>
      obtain ⟨i, w, hw⟩ := mem_below_iff.mp hy
      exact ⟨i :: w, hw⟩
  exact mem_preorder_iff.mpr ⟨v ++ w, leadsTo_append hv hw⟩

theorem keep_subset (s : Step) (xs : List Located) : keep s xs ⊆ xs :=
  ((foldl_apply_sublist _ _).trans ((distinct_sublist _ _).trans List.filter_sublist)).subset

/-! ## All steps -/

/-- **The steps after the first select what continues a chain** that came to the context. -/
theorem mem_selectFrom_iff {root : Element} {context : List Located} {steps : List Step}
    (hm : context ⊆ root.located.preorder) (hs : ∀ s ∈ steps, s.Unpositioned) {x : Located} :
    x ∈ selectFrom context steps ↔
      ∃ d ∈ context, ∃ es, Continues d steps es ∧ (d :: es).getLast? = some x := by
  induction steps generalizing context with
  | nil =>
    change x ∈ context ↔ _
    constructor
    · exact fun hx => ⟨x, hx, [], trivial, rfl⟩
    · rintro ⟨d, hd, es, hc, hl⟩
      cases es with
      | nil => exact Option.some.inj hl ▸ hd
      | cons e es => cases hc
  | cons s steps ih =>
    have hreach : context.flatMap (reach s.axis) ⊆ root.located.preorder := by
      intro y hy
      obtain ⟨d, hd, hy⟩ := List.mem_flatMap.mp hy
      exact reach_subset (hm hd) s.axis hy
    have hkept : ∀ e, e ∈ keep s (context.flatMap (reach s.axis)) ↔
        ∃ d ∈ context, s.axis.Leads d e ∧ s.Passes e := by
      intro e
      rw [mem_keep_iff hreach (hs s List.mem_cons_self), List.mem_flatMap]
      simp only [mem_reach_iff]
      constructor
      · rintro ⟨⟨d, hd, hl⟩, hp⟩
        exact ⟨d, hd, hl, hp⟩
      · rintro ⟨d, hd, hl, hp⟩
        exact ⟨⟨d, hd, hl⟩, hp⟩
    change x ∈ selectFrom (keep s (context.flatMap (reach s.axis))) steps ↔ _
    rw [ih (fun y hy => hreach (keep_subset _ _ hy)) fun t ht => hs t (List.mem_cons_of_mem s ht)]
    constructor
    · rintro ⟨e, he, es, hc, hl⟩
      obtain ⟨d, hd, hde, hp⟩ := (hkept e).mp he
      exact ⟨d, hd, e :: es, ⟨hde, hp, hc⟩, by rwa [List.getLast?_cons_cons]⟩
    · rintro ⟨d, hd, es, hc, hl⟩
      cases es with
      | nil => cases hc
      | cons e es =>
        obtain ⟨hde, hp, hc⟩ := hc
        rw [List.getLast?_cons_cons] at hl
        exact ⟨e, (hkept e).mpr ⟨d, hd, hde, hp⟩, es, hc, hl⟩

/-- **Without positions, a path selects the elements in which its chains end.** -/
theorem mem_select_iff {p : Path} (h : ∀ s ∈ p.steps, s.Unpositioned) {root : Element}
    {x : Located} :
    x ∈ p.select root ↔ ∃ es, Chain root p.steps es ∧ es.getLast? = some x := by
  unfold select
  cases hp : p.steps with
  | nil => simp [Chain]
  | cons s steps =>
    rw [hp] at h
    have hfirst := reachFirst_subset s.axis root
    rw [mem_selectFrom_iff (fun y hy => hfirst (keep_subset _ _ hy))
      fun t ht => h t (List.mem_cons_of_mem s ht)]
    simp only [mem_keep_iff hfirst (h s List.mem_cons_self), mem_reachFirst_iff]
    constructor
    · rintro ⟨e, ⟨hb, hp⟩, es, hc, hl⟩
      exact ⟨e :: es, ⟨hb, hp, hc⟩, hl⟩
    · rintro ⟨es, hc, hl⟩
      cases es with
      | nil => cases hc
      | cons e es =>
        obtain ⟨hb, hp, hc⟩ := hc
        exact ⟨e, ⟨hb, hp⟩, es, hc, hl⟩

/-- **No path selects an element twice**, whatever its predicates. -/
theorem nodup_places_select (p : Path) (root : Element) :
    ((p.select root).map (·.place)).Nodup := by
  change ((reached p.steps root).map (·.place)).Nodup
  cases p.steps using List.reverseRecOn with
  | nil => exact List.nodup_nil
  | append_singleton before s =>
    rw [reached_concat]
    exact step_nodup s _

/-- **What a path selects**: without positions the elements in which its chains end, and with or
without them no element twice. -/
theorem selects_chain_ends (p : Path) (root : Element) :
    ((∀ s ∈ p.steps, s.Unpositioned) → ∀ x, x ∈ p.select root ↔
      ∃ es, Chain root p.steps es ∧ es.getLast? = some x) ∧
    ((p.select root).map (·.place)).Nodup :=
  ⟨fun h _ => mem_select_iff h, nodup_places_select p root⟩

/-- An element with an attribute, below two nested elements of one name. -/
def twiceBelow : Element :=
  ⟨"r", none, [], "", [⟨"a", none, [], "", [⟨"a", none, [], "", [marked]⟩]⟩]⟩
where
  /-- The innermost element. -/
  marked : Element := ⟨"b", none, [⟨"k", "v"⟩, ⟨"k", "w"⟩], "", []⟩

/-- Descendants of one name with a value, below descendants of another. -/
def markedPath : Path :=
  ⟨[⟨.descendant, .named "a", []⟩, ⟨.descendant, .named "b", [.hasValue "k" "v"]⟩], none⟩

/-- The innermost element is below both others, and it is selected once. -/
theorem selects_twiceBelow :
    Path.parse "//a//b[@k='v']" = .ok markedPath ∧
    (∀ x, x ∈ markedPath.select twiceBelow ↔
      ∃ es, Chain twiceBelow markedPath.steps es ∧ es.getLast? = some x) ∧
    (markedPath.select twiceBelow).map (·.place) = [[0, 0, 0]] := by
  refine ⟨rfl, (selects_chain_ends markedPath twiceBelow).1 ?_, by decide +kernel⟩
  intro s hs n
  rcases List.mem_pair.mp hs with rfl | rfl <;> simp

end Path
end TradeIntake
