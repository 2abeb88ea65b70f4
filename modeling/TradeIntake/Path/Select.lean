import TradeIntake.Document
import TradeIntake.Path.Basic

/-!
# Following a path

A step goes from each element of its context, in turn, to that element's children or descendants,
keeps those whose name it admits, and drops the ones that it has reached before. Its predicates
then thin out the whole list, one after another; a position counts along that list. The first step
starts above the root.

Model of `select`, `first_value` and `apply_predicate` (`crates/ingest/src/path.rs`).

* **`step_nodup`**: no element occurs twice in what a step yields.
-/

namespace TradeIntake

/-- The test admits that name. -/
def NameTest.admits : NameTest → String → Bool
  | .any, _ => true
  | .named name, s => s == name

/-- Keep what the predicate keeps of a list. -/
def Predicate.apply (p : Predicate) (xs : List Located) : List Located :=
  match p with
  | .position n => if n = 0 then [] else xs[n - 1]?.toList
  | .hasValue name value => xs.filter fun x => x.element.attribute? name == some value

namespace Path

/-- Leave out elements that came before; `seen` are the places so far. -/
def distinct : List Place → List Located → List Located
  | _, [] => []
  | seen, x :: xs =>
    if seen.contains x.place then distinct seen xs else x :: distinct (x.place :: seen) xs

/-- Where a step leads from one element. -/
def reach : Axis → Located → List Located
  | .child, x => x.children
  | .descendant, x => x.below

/-- What a step yields when it leads to those elements. -/
def keep (s : Step) (xs : List Located) : List Located :=
  s.predicates.foldl (fun xs p => p.apply xs)
    (distinct [] (xs.filter fun x => s.test.admits x.element.name))

/-- Where the first step leads. -/
def reachFirst (axis : Axis) (root : Element) : List Located :=
  match axis with
  | .child => [root.located]
  | .descendant => root.all

/-- Follow the steps after the first. -/
def selectFrom (context : List Located) (steps : List Step) : List Located :=
  steps.foldl (fun context s => keep s (context.flatMap (reach s.axis))) context

/-- The elements that the path selects. -/
def select (p : Path) (root : Element) : List Located :=
  match p.steps with
  | [] => []
  | s :: rest => selectFrom (keep s (reachFirst s.axis root)) rest

/-- The value that the path selects: the attribute of the first element that has it, or the text of
the first element, trimmed and not blank. -/
def firstValue? (p : Path) (root : Element) : Option String :=
  match p.attribute? with
  | some name => ((p.select root).findSome? fun x => x.element.attribute? name).bind Text.nonBlank?
  | none => (p.select root).head?.bind fun x => x.element.trimmedText?

/-! ## No element twice -/

theorem distinct_places (seen : List Place) (xs : List Located) :
    ((distinct seen xs).map (·.place)).Nodup ∧ ∀ x ∈ distinct seen xs, x.place ∉ seen := by
  induction xs generalizing seen with
  | nil => simp [distinct]
  | cons x xs ih =>
    unfold distinct
    split
    · exact ih seen
    · rename_i hx
      obtain ⟨hnd, hout⟩ := ih (x.place :: seen)
      refine ⟨List.nodup_cons.mpr ⟨?_, hnd⟩, ?_⟩
      · intro hmem
        obtain ⟨y, hy, hxy⟩ := List.mem_map.mp hmem
        exact hout y hy (by simp [hxy])
      · intro y hy
        rcases List.mem_cons.mp hy with rfl | hy
        · simpa using hx
        · exact fun h => hout y hy (List.mem_cons_of_mem _ h)

theorem apply_sublist (p : Predicate) (xs : List Located) : (p.apply xs).Sublist xs := by
  cases p with
  | position n =>
    simp only [Predicate.apply]
    split
    · exact List.nil_sublist _
    · cases h : xs[n - 1]? with
      | none => exact List.nil_sublist _
      | some x => exact List.singleton_sublist.mpr (List.mem_of_getElem? h)
  | hasValue name value => exact List.filter_sublist

theorem step_nodup (s : Step) (xs : List Located) : ((keep s xs).map (·.place)).Nodup := by
  have thin : ∀ (ps : List Predicate) (ys : List Located),
      (ps.foldl (fun xs p => p.apply xs) ys).Sublist ys := by
    intro ps
    induction ps with
    | nil => exact fun ys => List.Sublist.refl ys
    | cons p ps ih => exact fun ys => (ih _).trans (apply_sublist p ys)
  exact ((thin _ _).map _).nodup (distinct_places [] _).1

end Path
end TradeIntake
