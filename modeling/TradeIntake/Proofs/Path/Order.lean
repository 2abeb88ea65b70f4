import Mathlib.Data.List.Induction
import TradeIntake.Path.Reader
import TradeIntake.Path.Select
import TradeIntake.Proofs.Document.Order

/-!
# When paths select in document order

A step goes through its context element by element. Two elements of the context may be nested. A
descendant step does no harm then: what is below the inner element was reached from the outer one
before. But a child step lists the children of the outer element first, and one of them may stand
behind the inner element and its children.

* **`inDocumentOrder_iff`**: a path, and whatever it starts with, selects in document order exactly
  when no child step overtakes.
* `not_sublist_nested`: a path that selects out of order.
* **`inDocumentOrder_of_axes`**: a path that takes its child steps first never does.
-/

namespace TradeIntake

namespace Path

open Located

/-! ## What was reached before -/

theorem distinct_congr {s t : List Place} (h : ∀ p, p ∈ s ↔ p ∈ t) (xs : List Located) :
    distinct s xs = distinct t xs := by
  induction xs generalizing s t with
  | nil => rfl
  | cons x xs ih =>
    have hx : s.contains x.place = t.contains x.place := by
      rw [Bool.eq_iff_iff, List.contains_iff_mem, List.contains_iff_mem]
      exact h x.place
    unfold distinct
    rw [hx, ih h, ih (s := x.place :: s) (t := x.place :: t)]
    intro p
    rw [List.mem_cons, List.mem_cons, h p]

theorem distinct_append (seen : List Place) (xs ys : List Located) :
    distinct seen (xs ++ ys) = distinct seen xs ++ distinct (xs.map (·.place) ++ seen) ys := by
  induction xs generalizing seen with
  | nil => rfl
  | cons x xs ih =>
    rw [List.cons_append, distinct, distinct]
    split
    · rename_i hx
      rw [ih]
      congr 1
      refine distinct_congr (fun p => ?_) ys
      have hx := List.contains_iff_mem.mp hx
      simp only [List.map_cons, List.mem_append, List.mem_cons]
      constructor
      · exact Or.imp_left Or.inr
      · rintro ((rfl | h) | h)
        · exact Or.inr hx
        · exact Or.inl h
        · exact Or.inr h
    · rw [ih, List.cons_append]
      congr 2
      refine distinct_congr (fun p => ?_) ys
      simp only [List.map_cons, List.mem_append, List.mem_cons]
      exact or_left_comm.trans or_assoc.symm

theorem distinct_sublist (seen : List Place) (xs : List Located) :
    (distinct seen xs).Sublist xs := by
  induction xs generalizing seen with
  | nil => exact List.Sublist.refl _
  | cons x xs ih =>
    unfold distinct
    split
    · exact (ih seen).cons x
    · exact (ih _).cons_cons x

theorem distinct_eq_self {seen : List Place} {xs : List Located} (h : (xs.map (·.place)).Nodup)
    (hs : ∀ x ∈ xs, x.place ∉ seen) : distinct seen xs = xs := by
  induction xs generalizing seen with
  | nil => rfl
  | cons x xs ih =>
    obtain ⟨hx, h⟩ := List.nodup_cons.mp h
    unfold distinct
    rw [if_neg (fun hc => hs x (by simp) (List.contains_iff_mem.mp hc)), ih h]
    intro y hy hm
    rcases List.mem_cons.mp hm with he | hm
    · exact hx (List.mem_map.mpr ⟨y, hy, he⟩)
    · exact hs y (List.mem_cons_of_mem x hy) hm

/-- Where no element comes twice, a step drops none. -/
theorem keep_of_nodup {xs : List Located} (h : (xs.map (·.place)).Nodup) (s : Step) :
    keep s xs = s.predicates.foldl (fun xs p => p.apply xs)
      (xs.filter fun x => s.test.admits x.element.name) := by
  rw [keep, distinct_eq_self ((List.filter_sublist.map _).nodup h) fun x _ => List.not_mem_nil]

/-! ## Nested contexts -/

section Context

variable {top : Located} {context : List Located} (admits : Located → Bool)

/-- **Descendants of a context in document order come in document order**, without those that were
reached before. -/
theorem sorted_descend (h : Sorted context) (hm : context ⊆ top.preorder) (seen : List Place) :
    Sorted (distinct seen ((context.flatMap below).filter admits)) := by
  induction context generalizing seen with
  | nil => exact List.Pairwise.nil
  | cons x context ih =>
    obtain ⟨hx, h⟩ := List.pairwise_cons.mp h
    obtain ⟨hxm, hm⟩ := List.cons_subset.mp hm
    rw [List.flatMap_cons, List.filter_append, distinct_append]
    refine List.pairwise_append.mpr ⟨?_, ih h hm _, fun a ha b hb => ?_⟩
    · exact (sorted_below x).of_sublist ((distinct_sublist seen _).trans List.filter_sublist)
    · have ha := (List.mem_filter.mp ((distinct_sublist _ _).subset ha)).1
      have hnew := (distinct_places _ _).2 b hb
      obtain ⟨hb, hadmits⟩ := List.mem_filter.mp ((distinct_sublist _ _).subset hb)
      obtain ⟨y, hy, hb⟩ := List.mem_flatMap.mp hb
      obtain ⟨i, v, hva⟩ := mem_below_iff.mp ha
      obtain ⟨j, w, hwb⟩ := mem_below_iff.mp hb
      refine lt_of_not_isPrefix (hx y hy) (fun hp => ?_) hva hwb
      -- the inner element is below the outer one, and so is what is below it
      have hyx := (mem_below_iff_of_mem_preorder (mem_preorder_of_isPrefix hxm (hm hy) hp)).mpr
        (hx y hy)
      have hbx := List.mem_filter.mpr ⟨mem_below_trans hyx hb, hadmits⟩
      exact hnew (List.mem_append_left _ (List.mem_map.mpr ⟨b, hbx, rfl⟩))

/-- A child of an outer element and a child of an inner one are not the same. -/
theorem lt_of_not_overtaken {outer inner c d : Located} (h : inner ∈ outer.below)
    (hc : c ∈ outer.children) (hd : d ∈ inner.children) (hn : ¬ d.place < c.place) :
    c.place < d.place := by
  obtain ⟨k, w, hw⟩ := mem_below_iff.mp h
  obtain ⟨i, hi⟩ := mem_children_iff_leadsTo.mp hc
  obtain ⟨j, hj⟩ := mem_children_iff_leadsTo.mp hd
  rcases List.le_iff_lt_or_eq.mp (List.not_lt.mp hn) with hlt | he
  · exact hlt
  · have hlen := congrArg List.length he
    rw [hi.1, hj.1, hw.1] at hlen
    simp only [List.length_append, List.length_cons, List.length_nil] at hlen
    omega

/-- **Children of a context in document order come in document order exactly when no child of an
outer element stands behind a child of an inner one.** -/
theorem sorted_children_iff (h : Sorted context) (hm : context ⊆ top.preorder) :
    Sorted ((context.flatMap children).filter admits) ↔
      ∀ outer ∈ context, ∀ inner ∈ context, inner ∈ outer.below →
        ∀ c ∈ outer.children, ∀ d ∈ inner.children, admits c → admits d →
          ¬ d.place < c.place := by
  unfold Sorted
  rw [List.filter_flatMap, List.pairwise_flatMap]
  constructor
  · rintro ⟨-, hpair⟩ outer ho inner hi hbelow c hc d hd hac had
    have hlt := (mem_below_iff_of_mem_preorder (below_subset outer hbelow)).mp hbelow
    exact List.lt_asymm (h.rel_of_pairwise hpair ho hi hlt c (List.mem_filter.mpr ⟨hc, hac⟩) d
      (List.mem_filter.mpr ⟨hd, had⟩))
  · intro hnest
    refine ⟨fun x _ => (sorted_children x).filter _, ?_⟩
    refine List.Pairwise.imp_of_mem (fun {x y} hx hy hlt c hc d hd => ?_) h
    obtain ⟨hc, hac⟩ := List.mem_filter.mp hc
    obtain ⟨hd, had⟩ := List.mem_filter.mp hd
    by_cases hp : x.place <+: y.place
    · have hyx := mem_preorder_of_isPrefix (hm hx) (hm hy) hp
      have hbelow := (mem_below_iff_of_mem_preorder hyx).mpr hlt
      exact lt_of_not_overtaken hbelow hc hd (hnest x hx y hy hbelow c hc d hd hac had)
    · obtain ⟨i, hci⟩ := mem_children_iff_leadsTo.mp hc
      obtain ⟨j, hdj⟩ := mem_children_iff_leadsTo.mp hd
      exact lt_of_not_isPrefix hlt hp hci hdj

end Context

/-! ## Steps -/

/-- The elements that a path of these steps selects. -/
def reached (steps : List Step) (root : Element) : List Located :=
  (⟨steps, none⟩ : Path).select root

/-- Where a step leads after the steps before it. -/
def entered (before : List Step) (axis : Axis) (root : Element) : List Located :=
  if before = [] then reachFirst axis root else (reached before root).flatMap (reach axis)

/-- What a step yields without its predicates. -/
def matched (before : List Step) (s : Step) (root : Element) : List Located :=
  distinct [] ((entered before s.axis root).filter fun x => s.test.admits x.element.name)

theorem reached_concat (before : List Step) (s : Step) (root : Element) :
    reached (before ++ [s]) root =
      s.predicates.foldl (fun xs p => p.apply xs) (matched before s root) := by
  cases before with
  | nil => rfl
  | cons b before =>
    simp only [reached, matched, entered, select, List.cons_append, selectFrom, List.foldl_append,
      reduceCtorEq, if_false]
    rfl

theorem foldl_apply_sublist (ps : List Predicate) (xs : List Located) :
    (ps.foldl (fun xs p => p.apply xs) xs).Sublist xs := by
  induction ps generalizing xs with
  | nil => exact List.Sublist.refl xs
  | cons p ps ih => exact (ih _).trans (apply_sublist p xs)

theorem reached_sublist_matched (before : List Step) (s : Step) (root : Element) :
    (reached (before ++ [s]) root).Sublist (matched before s root) := by
  rw [reached_concat]
  exact foldl_apply_sublist _ _

theorem entered_subset {before : List Step} {root : Element}
    (h : reached before root ⊆ root.preorder []) (axis : Axis) :
    entered before axis root ⊆ root.preorder [] := by
  have hroot : root.located.preorder = root.preorder [] := rfl
  unfold entered
  split
  · cases axis with
    | child =>
      intro x hx
      rw [List.mem_singleton.mp hx, ← hroot, preorder_eq]
      exact List.mem_cons_self
    | descendant => exact fun x hx => all_eq root ▸ show x ∈ root.all from hx
  · intro y hy
    obtain ⟨x, hx, hy⟩ := List.mem_flatMap.mp hy
    have hbelow : y ∈ x.below := by
      cases axis with
      | child =>
        obtain ⟨i, hi⟩ := mem_children_iff_leadsTo.mp hy
        exact mem_below_iff.mpr ⟨i, [], hi⟩
      | descendant => exact hy
    obtain ⟨v, hv⟩ := mem_preorder_iff.mp (show x ∈ root.located.preorder from h hx)
    obtain ⟨i, w, hw⟩ := mem_below_iff.mp hbelow
    exact mem_preorder_iff.mpr ⟨v ++ i :: w, leadsTo_append hv hw⟩

/-- A path selects elements of the document. -/
theorem reached_subset (steps : List Step) (root : Element) :
    reached steps root ⊆ root.preorder [] := by
  induction steps using List.reverseRecOn with
  | nil => exact List.nil_subset _
  | append_singleton before s ih =>
    have hm := (reached_sublist_matched before s root).subset
    exact fun x hx => entered_subset ih s.axis
      (List.mem_of_mem_filter ((distinct_sublist [] _).subset (hm hx)))

/-! ## Overtaking -/

/-- **A child step overtakes** after the steps before it: of two nested elements in its context, the
outer one has a child that the step admits behind such a child of the inner one. -/
def Overtakes (before : List Step) (s : Step) (root : Element) : Prop :=
  s.axis = .child ∧ ∃ outer ∈ reached before root, ∃ inner ∈ reached before root,
    inner ∈ outer.below ∧ ∃ c ∈ outer.children, ∃ d ∈ inner.children,
      s.test.admits c.element.name ∧ s.test.admits d.element.name ∧ d.place < c.place

/-- The children of different elements are different. -/
theorem nodup_places_children {context : List Located} (h : Sorted context) :
    ((context.flatMap children).map (·.place)).Nodup := by
  rw [List.map_flatMap]
  refine List.nodup_flatMap.mpr ⟨fun x _ => (sorted_children x).nodup_places, ?_⟩
  refine List.Pairwise.imp (fun {x y} hlt p hx hy => ?_) h
  obtain ⟨c, hc, rfl⟩ := List.mem_map.mp hx
  obtain ⟨d, hd, he⟩ := List.mem_map.mp hy
  obtain ⟨i, hi⟩ := mem_children_iff_leadsTo.mp hc
  obtain ⟨j, hj⟩ := mem_children_iff_leadsTo.mp hd
  rw [hi.1, hj.1] at he
  rw [(List.append_inj' he rfl).1] at hlt
  exact List.lt_irrefl _ hlt

theorem sorted_reachFirst (axis : Axis) (root : Element) : Sorted (reachFirst axis root) := by
  cases axis with
  | child => exact List.pairwise_singleton _ _
  | descendant => exact sorted_all root

/-- **A step over a context in document order stays in it unless it overtakes.** -/
theorem sorted_matched_iff {before : List Step} {root : Element} (h : Sorted (reached before root))
    (s : Step) : Sorted (matched before s root) ↔ ¬ Overtakes before s root := by
  have hsub : reached before root ⊆ root.located.preorder := reached_subset before root
  unfold matched entered Overtakes
  by_cases hb : before = []
  · have hnil : reached before root = [] := by
      rw [hb]
      rfl
    rw [if_pos hb, hnil]
    have hsorted := (sorted_reachFirst s.axis root).of_sublist ((distinct_sublist [] _).trans
      (List.filter_sublist (p := fun x => s.test.admits x.element.name)))
    exact iff_of_true hsorted (by simp)
  · rw [if_neg hb]
    cases s.axis with
    | descendant => exact iff_of_true (sorted_descend _ h hsub []) (by simp)
    | child =>
      change Sorted (distinct [] (((reached before root).flatMap children).filter _)) ↔ _
      have hnodup : ((((reached before root).flatMap children).filter
          fun x => s.test.admits x.element.name).map (·.place)).Nodup :=
        (List.filter_sublist.map _).nodup (nodup_places_children h)
      rw [distinct_eq_self hnodup (by simp), sorted_children_iff _ h hsub]
      constructor
      · rintro hnest ⟨-, outer, ho, inner, hi, hbelow, c, hc, d, hd, hac, had, hlt⟩
        exact hnest outer ho inner hi hbelow c hc d hd hac had hlt
      · intro hno outer ho inner hi hbelow c hc d hd hac had hlt
        exact hno ⟨rfl, outer, ho, inner, hi, hbelow, c, hc, d, hd, hac, had, hlt⟩

/-! ## The exact condition -/

/-- The path up to a step, with the first so many of its predicates. -/
def upTo (before : List Step) (s : Step) (n : Nat) : Path :=
  ⟨before ++ [{ s with predicates := s.predicates.take n }], none⟩

/-- **Elements are in document order**: they are a part of the document as it is listed, and a
position among them is that of the element among all such elements of the document. -/
structure InDocumentOrder (root : Element) (xs : List Located) : Prop where
  sublist : xs.Sublist (root.preorder [])
  position : ∀ n, (Predicate.position (n + 1)).apply xs =
    (((root.preorder []).filter fun x => x.place ∈ xs.map (·.place))[n]?).toList

theorem inDocumentOrder_iff_sorted {root : Element} {xs : List Located}
    (h : xs ⊆ root.preorder []) : InDocumentOrder root xs ↔ Sorted xs := by
  have hroot : Sorted (root.preorder []) := sorted_preorder root.located
  constructor
  · exact fun ho => hroot.of_sublist ho.sublist
  · intro hs
    have hsub := hs.sublist_of_subset hroot h
    refine ⟨hsub, fun n => ?_⟩
    rw [hroot.filter_eq hsub]
    rfl

/-- Without overtaking, each step hands a context in document order to the next one. -/
theorem sorted_reached {before : List Step} (after : List Step) {root : Element}
    (h : ∀ front s back, before ++ after = front ++ s :: back → ¬ Overtakes front s root) :
    Sorted (reached before root) := by
  induction before using List.reverseRecOn generalizing after with
  | nil => exact List.Pairwise.nil
  | append_singleton before s ih =>
    rw [List.append_assoc] at h
    have hmatched := (sorted_matched_iff (ih ([s] ++ after) h) s).mpr (h before s after rfl)
    exact hmatched.of_sublist (reached_sublist_matched before s root)

/-- **When a path selects in document order**: it does, together with every path that it starts
with, cut after the name of a step or after any of its predicates, exactly when none of its steps
overtakes. -/
theorem inDocumentOrder_iff (p : Path) (root : Element) :
    (InDocumentOrder root (p.select root) ∧
      ∀ before s after, p.steps = before ++ s :: after →
        ∀ n, InDocumentOrder root ((upTo before s n).select root)) ↔
    ∀ before s after, p.steps = before ++ s :: after → ¬ Overtakes before s root := by
  constructor
  · rintro ⟨-, hcut⟩ before s after hp
    have hbefore : Sorted (reached before root) := by
      cases before using List.reverseRecOn with
      | nil => exact List.Pairwise.nil
      | append_singleton front b =>
        rw [List.append_assoc] at hp
        have h := hcut front b (s :: after) hp b.predicates.length
        unfold upTo at h
        rw [List.take_length] at h
        exact (inDocumentOrder_iff_sorted (reached_subset _ root)).mp h
    refine (sorted_matched_iff hbefore s).mp ?_
    have h := (inDocumentOrder_iff_sorted (reached_subset _ root)).mp (hcut before s after hp 0)
    rwa [reached_concat] at h
  · intro h
    have hsorted : ∀ front back, p.steps = front ++ back → Sorted (reached front root) := by
      intro front back hp
      exact sorted_reached back fun f s b hf => h f s b (hp.trans hf)
    refine ⟨(inDocumentOrder_iff_sorted (reached_subset p.steps root)).mpr
      (hsorted p.steps [] (List.append_nil _).symm), fun before s after hp n => ?_⟩
    refine (inDocumentOrder_iff_sorted (reached_subset _ root)).mpr ?_
    have hmatched := (sorted_matched_iff (hsorted before (s :: after) hp) s).mpr
      (h before s after hp)
    exact hmatched.of_sublist (reached_sublist_matched before _ root)

/-- Two nested elements; the outer one has a child behind the inner one. -/
def nested : List UInt8 :=
  Text.Utf8.encode "<r><a><a><b>1</b></a><b>2</b></a></r>"

/-- The children of one name below elements of another. -/
def nestedPath : Path :=
  ⟨[⟨.descendant, .named "a", []⟩, ⟨.child, .named "b", []⟩], none⟩

/-- **Nesting can spoil the order**: the child of the outer element is selected first, though it
comes last in the document. -/
theorem not_sublist_nested :
    ¬ ∀ (settings : IngestSettings) (bytes : List UInt8) (d : Document) (text : String) (p : Path),
      Document.parse settings bytes = .ok d → Path.parse text = .ok p →
        (p.select d.root).Sublist (d.root.preorder []) := by
  intro h
  have hp : Path.parse "//a/b" = .ok nestedPath := rfl
  have hplaces : (Document.parse {} nested).toOption.map
      (fun d => (nestedPath.select d.root).map (·.place)) = some [[0, 1], [0, 0, 0]] := by
    decide +kernel
  obtain ⟨d, hd, hplaces⟩ := Option.map_eq_some_iff.mp hplaces
  have hd : Document.parse {} nested = .ok d := by
    cases hr : Document.parse {} nested with
    | error e =>
      rw [hr] at hd
      cases hd
    | ok d' =>
      rw [hr] at hd
      exact congrArg _ (Option.some.inj hd)
  have hsub := h {} nested d "//a/b" nestedPath hd hp
  have hsorted := (sorted_preorder d.root.located).of_sublist hsub
  have hlt : ([[0, 1], [0, 0, 0]] : List Place).Pairwise (· < ·) :=
    hplaces ▸ hsorted.map _ fun _ _ h => h
  exact absurd hlt (by decide)

/-! ## Paths that never overtake -/

/-- Steps to children lead to one level of the document. -/
theorem length_place_of_mem_reached {before : List Step} {root : Element}
    (h : ∀ b ∈ before, b.axis = .child) {x : Located} (hx : x ∈ reached before root) :
    x.place.length + 1 = before.length := by
  induction before using List.reverseRecOn generalizing x with
  | nil => cases hx
  | append_singleton before s ih =>
    have hs : s.axis = .child := h s (by simp)
    have hx := (reached_sublist_matched before s root).subset hx
    have hx := List.mem_of_mem_filter ((distinct_sublist [] _).subset hx)
    unfold entered at hx
    rw [hs] at hx
    split at hx
    · rename_i hb
      rw [List.mem_singleton.mp hx, hb]
      rfl
    · obtain ⟨y, hy, hx⟩ := List.mem_flatMap.mp hx
      obtain ⟨i, hi⟩ := mem_children_iff_leadsTo.mp hx
      have hlen := ih (fun b hb => h b (List.mem_append_left _ hb)) hy
      rw [hi.1, List.length_append, List.length_append, ← hlen]
      rfl

theorem not_overtakes_of_child {before : List Step} (h : ∀ b ∈ before, b.axis = .child) (s : Step)
    (root : Element) : ¬ Overtakes before s root := by
  rintro ⟨-, outer, ho, inner, hi, hbelow, -⟩
  have hlo := length_place_of_mem_reached h ho
  have hli := length_place_of_mem_reached h hi
  obtain ⟨k, w, hw⟩ := mem_below_iff.mp hbelow
  rw [hw.1, List.length_append, List.length_cons] at hli
  omega

/-- **A path that goes through children first and through descendants then** selects in document
order, whatever the document. -/
theorem inDocumentOrder_of_axes {p : Path} {front back : List Step} (hp : p.steps = front ++ back)
    (hfront : ∀ s ∈ front, s.axis = .child) (hback : ∀ s ∈ back, s.axis = .descendant)
    (root : Element) : InDocumentOrder root (p.select root) := by
  refine (inDocumentOrder_iff_sorted (reached_subset p.steps root)).mpr (sorted_reached [] ?_)
  intro before s after hsplit
  rw [List.append_nil, hp] at hsplit
  rcases List.append_eq_append_iff.mp hsplit with ⟨middle, rfl, hs⟩ | ⟨middle, rfl, hs⟩
  · have hs : s.axis = .descendant := hback s (hs ▸ List.mem_append_right _ List.mem_cons_self)
    exact fun ho => absurd (hs.symm.trans ho.1) (by decide)
  · exact not_overtakes_of_child (fun b hb => hfront b (List.mem_append_left _ hb)) s root

end Path
end TradeIntake
