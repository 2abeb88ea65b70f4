import TradeIntake.Proofs.Document.Traversal
import TradeIntake.Proofs.Path.Offsets

/-!
# Evaluating paths without a fault

What a path selects is given by a function, which always has a result. Here evaluation is told by
its rules instead, so that there is none where they do not lead to an end: a position is turned into
an index by taking one off, and from zero that cannot be done; a traversal visits elements until its
stack is empty; once nothing is left, no more steps are taken. A path that was read has no position
zero, so the rules lead to an end from every document, and to one only.

* **`thins_iff`**: predicates come through exactly when no position is zero.
* **`evaluates_iff`**: well-formed paths are evaluated, to what they select.
* **`faultless`**: reading a text by byte offsets and evaluating the path that it stands for.
-/

namespace TradeIntake.Path

open Located (Visits visits_walk_iff visits_below_iff)

/-! ## The rules -/

/-- From that many elements, predicates leave these. -/
inductive Thins : List Predicate → List Located → List Located → Prop
  | nil {xs : List Located} : Thins [] xs xs
  /-- There has to be one to take off. -/
  | position {n : Nat} {ps : List Predicate} {xs ys : List Located} (hpos : 0 < n)
      (h : Thins ps xs[n - 1]?.toList ys) : Thins (.position n :: ps) xs ys
  | hasValue {name value : String} {ps : List Predicate} {xs ys : List Located}
      (h : Thins ps (xs.filter fun x => x.element.attribute? name == some value) ys) :
      Thins (.hasValue name value :: ps) xs ys

/-- Of the elements that it leads to, a step keeps these. -/
def Keeps (s : Step) (xs ys : List Located) : Prop :=
  Thins s.predicates (distinct [] (xs.filter fun x => s.test.admits x.element.name)) ys

/-- From one element, a step leads to these. -/
inductive Leaves : Axis → Located → List Located → Prop
  | child {x : Located} : Leaves .child x x.children
  | descendant {x : Located} {ys : List Located} (h : Visits x.children ys) :
      Leaves .descendant x ys

/-- From the elements of a context in turn, a step leads to these. -/
inductive Reaches (axis : Axis) : List Located → List Located → Prop
  | nil : Reaches axis [] []
  | cons {x : Located} {context ys zs : List Located} (hx : Leaves axis x ys)
      (h : Reaches axis context zs) : Reaches axis (x :: context) (ys ++ zs)

/-- From above the root, the first step leads to these. -/
inductive Enters (root : Element) : Axis → List Located → Prop
  | child : Enters root .child [root.located]
  | descendant {ys : List Located} (h : Visits [root.located] ys) : Enters root .descendant ys

/-- From what a step has left, the steps behind it come to that. -/
inductive Follows : List Step → List Located → List Located → Prop
  | done {xs : List Located} : Follows [] xs xs
  | nothing {ss : List Step} : Follows ss [] []
  | step {s : Step} {ss : List Step} {context xs ys zs : List Located} (hne : context ≠ [])
      (hxs : Reaches s.axis context xs) (hys : Keeps s xs ys) (hzs : Follows ss ys zs) :
      Follows (s :: ss) context zs

/-- **A path is evaluated from a root**, step by step. -/
inductive Evaluates (root : Element) : Path → List Located → Prop
  | stepless {attribute? : Option String} : Evaluates root ⟨[], attribute?⟩ []
  | steps {s : Step} {ss : List Step} {attribute? : Option String} {xs ys zs : List Located}
      (hxs : Enters root s.axis xs) (hys : Keeps s xs ys) (hzs : Follows ss ys zs) :
      Evaluates root ⟨s :: ss, attribute?⟩ zs

/-! ## Where they lead -/

variable {xs ys zs context : List Located} {root : Element}

/-- **Predicates come through exactly when no position is zero.** -/
theorem thins_iff {ps : List Predicate} :
    Thins ps xs ys ↔ .position 0 ∉ ps ∧ ys = ps.foldl (fun xs p => p.apply xs) xs := by
  constructor
  · intro h
    induction h with
    | nil => exact ⟨List.not_mem_nil, rfl⟩
    | position hpos _ ih =>
      refine ⟨fun hmem => ?_, ?_⟩
      · rcases List.mem_cons.mp hmem with heq | hmem
        · rw [← Predicate.position.inj heq] at hpos
          cases hpos
        · exact ih.1 hmem
      · rw [ih.2, List.foldl_cons, Predicate.apply, if_neg hpos.ne']
    | hasValue _ ih =>
      refine ⟨fun hmem => ?_, ih.2⟩
      rcases List.mem_cons.mp hmem with heq | hmem
      · cases heq
      · exact ih.1 hmem
  · rintro ⟨hzero, rfl⟩
    induction ps generalizing xs with
    | nil => exact .nil
    | cons p ps ih =>
      have hrest : .position 0 ∉ ps := fun hmem => hzero (List.mem_cons_of_mem p hmem)
      cases p with
      | position n =>
        have hne : n ≠ 0 := by
          rintro rfl
          exact hzero List.mem_cons_self
        rw [List.foldl_cons, Predicate.apply, if_neg hne]
        exact .position (Nat.pos_of_ne_zero hne) (ih hrest)
      | hasValue name value => exact .hasValue (ih hrest)

theorem keeps_iff {s : Step} (hs : s.WellFormed) : Keeps s xs ys ↔ ys = keep s xs := by
  have hzero : .position 0 ∉ s.predicates := fun hmem => absurd (hs.predicates _ hmem).1 (by simp)
  rw [Keeps, thins_iff, and_iff_right hzero]
  rfl

theorem leaves_iff {axis : Axis} {x : Located} : Leaves axis x ys ↔ ys = reach axis x := by
  constructor
  · intro h
    cases h with
    | child => rfl
    | descendant h => exact visits_below_iff.mp h
  · rintro rfl
    cases axis with
    | child => exact .child
    | descendant => exact .descendant (visits_below_iff.mpr rfl)

theorem reaches_iff {axis : Axis} : Reaches axis context ys ↔ ys = context.flatMap (reach axis) := by
  constructor
  · intro h
    induction h with
    | nil => rfl
    | cons hx _ ih => rw [leaves_iff.mp hx, ih, List.flatMap_cons]
  · rintro rfl
    induction context with
    | nil => exact .nil
    | cons x context ih => exact .cons (leaves_iff.mpr rfl) ih

theorem enters_iff {axis : Axis} : Enters root axis ys ↔ ys = reachFirst axis root := by
  constructor
  · intro h
    cases h with
    | child => rfl
    | descendant h => exact visits_walk_iff.mp h
  · rintro rfl
    cases axis with
    | child => exact .child
    | descendant => exact .descendant (visits_walk_iff.mpr rfl)

/-- From nothing, steps lead to nothing. -/
theorem selectFrom_nil (ss : List Step) : selectFrom [] ss = [] := by
  induction ss with
  | nil => rfl
  | cons s ss ih =>
    have hkeep : keep s [] = [] := List.sublist_nil.mp (foldl_apply_sublist s.predicates [])
    change selectFrom (keep s []) ss = []
    rw [hkeep, ih]

theorem follows_iff {ss : List Step} (hss : ∀ s ∈ ss, s.WellFormed) :
    Follows ss context zs ↔ zs = selectFrom context ss := by
  constructor
  · intro h
    induction h with
    | done => rfl
    | nothing => rw [selectFrom_nil]
    | step hne hxs hys _ ih =>
      obtain ⟨hs, hss⟩ := List.forall_mem_cons.mp hss
      rw [ih hss, (keeps_iff hs).mp hys, reaches_iff.mp hxs]
      rfl
  · rintro rfl
    induction ss generalizing context with
    | nil => exact .done
    | cons s ss ih =>
      obtain ⟨hs, hss⟩ := List.forall_mem_cons.mp hss
      by_cases hne : context = []
      · rw [hne, selectFrom_nil]
        exact .nothing
      · exact .step hne (reaches_iff.mpr rfl) ((keeps_iff hs).mpr rfl) (ih hss)

/-- **A well-formed path is evaluated**, from every root and to what it selects. -/
theorem evaluates_iff {p : Path} (hp : p.WellFormed) :
    Evaluates root p zs ↔ zs = p.select root := by
  obtain ⟨ss, attribute?⟩ := p
  have hss := hp.steps
  cases ss with
  | nil => exact absurd rfl hp.steps_ne_nil
  | cons s ss =>
    obtain ⟨hs, hss⟩ := List.forall_mem_cons.mp hss
    constructor
    · intro h
      cases h with
      | steps hxs hys hzs =>
        rw [(follows_iff hss).mp hzs, (keeps_iff hs).mp hys, enters_iff.mp hxs]
        rfl
    · rintro rfl
      exact .steps (enters_iff.mpr rfl) ((keeps_iff hs).mpr rfl) ((follows_iff hss).mpr rfl)

/-- **Reading and evaluating are without a fault**, for every text and every document. Read by byte
offsets, the text is cut within its bounds and between characters only, and each round of a loop
takes a character at least, until the text is read or refused as it is character by character. A
path that was read is well formed, so no position of it is zero, and evaluating it comes to an end
from every root, to what it selects and nothing else. -/
theorem faultless (source : String) :
    Offsets.parse source = .ok (parse source) ∧
    ∀ p, parse source = .ok p → p.WellFormed ∧
      ∀ root xs, Evaluates root p xs ↔ xs = p.select root :=
  ⟨Offsets.parse_eq source, fun _ h =>
    have hp := wellFormed_of_parse h
    ⟨hp, fun _ _ => evaluates_iff hp⟩⟩

/-- Names and a value with characters of two bytes, and a closing bracket within the value. -/
theorem faultless_accented :
    let b : Element := ⟨"b", none, [], "", []⟩
    let e (children : List Element) : Element := ⟨"é", none, [⟨"ü", "ö]"⟩], "", children⟩
    let root : Element := ⟨"r", none, [], "", [e [], e [b]]⟩
    ∃ p, parse " //é[ @ü = 'ö]' ][2]/b " = .ok p ∧
      Offsets.parse " //é[ @ü = 'ö]' ][2]/b " = .ok (.ok p) ∧ p.WellFormed ∧
      Evaluates root p [⟨[1, 0], b⟩] := by
  intro b e root
  have hparse : parse " //é[ @ü = 'ö]' ][2]/b " = .ok ⟨[
      ⟨.descendant, .named "é", [.hasValue "ü" "ö]", .position 2]⟩,
      ⟨.child, .named "b", []⟩], none⟩ := by
    rfl
  obtain ⟨hoffsets, hread⟩ := faultless " //é[ @ü = 'ö]' ][2]/b "
  obtain ⟨hwell, hevaluates⟩ := hread _ hparse
  exact ⟨_, hparse, hparse ▸ hoffsets, hwell, (hevaluates root _).mpr rfl⟩

end TradeIntake.Path
