import TradeIntake.Document.Copy
import TradeIntake.Proofs.Xml.Sequence

/-!
# Tokens and the tree that is built from them

A start tag opens an element; an end tag closes one, and so does the end of an empty tag. Builders
match end tags to start tags, so the elements that tokens open and close are those of the tree that
is built from them, in document order. Then nesting that is counted on tokens is that of the tree.

* **`spells_push`**: a builder keeps the brackets of the tokens that it has taken in.
* **`brackets_ofTokens`**: a tree has the brackets of its tokens.
* **`exceedsDepth_iff`**: tokens exceed a depth exactly when their tree does.
-/

namespace TradeIntake.Xml

/-! ## Brackets -/

/-- An element is opened or closed. -/
inductive Bracket where
  | opening
  | closing
  deriving Repr, DecidableEq

/-- What a token does to elements. -/
def Token.bracket? : Token → Option Bracket
  | .startTag _ => some .opening
  | .emptyTagEnd | .endTag _ => some .closing
  | _ => none

/-- The elements that tokens open and close. -/
def brackets (ts : List Token) : List Bracket := ts.flatMap fun t => t.bracket?.toList

theorem brackets_cons (t : Token) (ts : List Token) :
    brackets (t :: ts) = t.bracket?.toList ++ brackets ts :=
  List.flatMap_cons

namespace Node

/-- The node is an element. -/
def IsElement : Node → Prop
  | .element .. => True
  | _ => False

mutual

/-- The elements from this node down, opened and closed in document order. -/
def brackets : Node → List Bracket
  | .element _ children => .opening :: (bracketsList children ++ [.closing])
  | .text _ | .comment | .instruction => []
termination_by structural n => n

/-- The elements from these nodes down, opened and closed in document order. -/
def bracketsList : List Node → List Bracket
  | [] => []
  | n :: ns => n.brackets ++ bracketsList ns
termination_by structural ns => ns

end

mutual

/-- How deep elements are nested from this node down. -/
def depth : Node → Nat
  | .element _ children => depthList children + 1
  | .text _ | .comment | .instruction => 0
termination_by structural n => n

/-- How deep elements are nested from these nodes down. -/
def depthList : List Node → Nat
  | [] => 0
  | n :: ns => max n.depth (depthList ns)
termination_by structural ns => ns

end

/-- **Induction on nodes**: an element stands before others with what is in it, and any other node
stands before others. -/
@[elab_as_elim]
theorem induction_list {motive : List Node → Prop} (nil : motive [])
    (element : ∀ head children ns, motive children → motive ns →
      motive (.element head children :: ns))
    (leaf : ∀ n ns, ¬ n.IsElement → motive ns → motive (n :: ns)) : ∀ ns, motive ns
  | [] => nil
  | .element head children :: ns =>
    element head children ns (induction_list nil element leaf children)
      (induction_list nil element leaf ns)
  | .text s :: ns => leaf (.text s) ns id (induction_list nil element leaf ns)
  | .comment :: ns => leaf .comment ns id (induction_list nil element leaf ns)
  | .instruction :: ns => leaf .instruction ns id (induction_list nil element leaf ns)
termination_by ns => sizeList ns
decreasing_by
  all_goals
    simp only [sizeList, size]
    omega

theorem brackets_of_not_isElement {n : Node} (h : ¬ n.IsElement) : n.brackets = [] := by
  cases n with
  | element head children => exact absurd trivial h
  | text | comment | instruction => rfl

theorem depth_of_not_isElement {n : Node} (h : ¬ n.IsElement) : n.depth = 0 := by
  cases n with
  | element head children => exact absurd trivial h
  | text | comment | instruction => rfl

theorem bracketsList_append (ns ms : List Node) :
    bracketsList (ns ++ ms) = bracketsList ns ++ bracketsList ms := by
  induction ns with
  | nil => rfl
  | cons n ns ih => rw [List.cons_append, bracketsList, ih, bracketsList, List.append_assoc]

end Node

/-! ## What a builder has taken in -/

/-- The elements that are open, opened, with their children so far. -/
def writtenOpened : List OpenElement → List Bracket
  | [] => []
  | e :: rest => writtenOpened rest ++ .opening :: Node.bracketsList e.children.reverse

/-- The brackets of a tree under way; a start tag under way has opened its element. -/
def Builder.written (b : Builder) : List Bracket :=
  (b.root.map Node.brackets).getD [] ++ writtenOpened b.opened ++
    if b.tag.isSome then [.opening] else []

/-- **The builder has taken in those brackets.** -/
structure Builder.Spells (b : Builder) (bs : List Bracket) : Prop where
  written : b.written = bs
  /-- The root is there when it is closed, and nothing is opened behind it. -/
  root_eq_none : b.opened ≠ [] ∨ b.tag ≠ none → b.root = none
  root_isElement : ∀ n, b.root = some n → n.IsElement

namespace Builder

variable {limit : Nat} {b after : Builder} {bs : List Bracket}

theorem count_eq_ok (h : b.count limit = .ok after) : after = { b with nodes := b.nodes + 1 } := by
  unfold count at h
  split at h
  · cases h
  · exact (Except.ok.inj h).symm

/-- Brackets do not depend on how many nodes there are. -/
theorem spells_count (hb : b.Spells bs) (h : b.count limit = .ok after) : after.Spells bs := by
  obtain rfl := count_eq_ok h
  exact ⟨hb.written, hb.root_eq_none, hb.root_isElement⟩

@[simp]
theorem tag_place (n : Node) (b : Builder) : (b.place n).tag = b.tag := by
  unfold place
  split
  · split <;> rfl
  · rfl

/-- A whole node adds its brackets. -/
theorem spells_place {n : Node} (hb : b.Spells bs) (htag : b.tag = none)
    (hroot : n.IsElement → b.root = none) : (b.place n).Spells (bs ++ n.brackets) := by
  obtain ⟨nodes, tag, opened, root⟩ := b
  obtain rfl : tag = none := htag
  obtain ⟨rfl, hnone, helement⟩ := hb
  cases opened with
  | nil =>
    cases n with
    | element head children =>
      obtain rfl : root = none := hroot trivial
      refine ⟨?_, fun h => absurd h (by simp [place]), ?_⟩
      · simp [written, writtenOpened, place]
      · rintro _ ⟨⟩
        trivial
    | text | comment | instruction =>
      rw [Node.brackets, List.append_nil]
      exact ⟨rfl, hnone, helement⟩
  | cons e rest =>
    obtain rfl : root = none := hnone (Or.inl (List.cons_ne_nil e rest))
    refine ⟨?_, fun _ => rfl, fun n hn => by cases hn⟩
    simp [written, writtenOpened, place, Node.bracketsList_append, Node.bracketsList]

/-- A node without elements adds no brackets. -/
theorem spells_countPlace {n : Node} (hb : b.Spells bs) (htag : b.tag = none)
    (hn : ¬ n.IsElement) (h : (b.count limit).map (Builder.place n) = .ok after) :
    after.Spells bs ∧ after.tag = none := by
  obtain ⟨counted, hcount, rfl⟩ := Except.map_eq_ok_iff.mp h
  have hspells := spells_count hb hcount
  obtain rfl := count_eq_ok hcount
  have := spells_place hspells htag fun he => absurd he hn
  rw [Node.brackets_of_not_isElement hn, List.append_nil] at this
  exact ⟨this, (tag_place n _).trans htag⟩

/-- The start tag under way has opened its element and nothing else. -/
theorem spells_of_tag {t : StartTag} (hb : b.Spells bs) (htag : b.tag = some t) :
    b.root = none ∧ ∃ before, bs = before ++ [.opening] ∧
      Builder.Spells { b with tag := none } before := by
  have hnone := hb.root_eq_none (Or.inr (by simp [htag]))
  refine ⟨hnone, writtenOpened b.opened, ?_, ?_, fun _ => hnone, hb.root_isElement⟩
  · rw [← hb.written, written, hnone, htag]
    simp
  · rw [written, hnone]
    simp

theorem closeTag_eq_ok {isEmpty : Bool} (h : b.closeTag limit isEmpty = .ok after) :
    ∃ t head bindings counted, b.tag = some t ∧
      Builder.count limit { b with tag := none } = .ok counted ∧
      after = if isEmpty then counted.place (.element head [])
        else { counted with opened := ⟨t.name, head, bindings, []⟩ :: counted.opened } := by
  unfold closeTag at h
  split at h
  · cases h
  · rename_i t htag
    extract_lets around bindings at h
    split at h
    · cases h
    · rename_i head _
      obtain ⟨counted, hcount, hafter⟩ := Except.map_eq_ok_iff.mp h
      exact ⟨t, head, bindings, counted, htag, hcount, hafter.symm⟩

theorem spells_closeTag {isEmpty : Bool} (hb : b.Spells bs)
    (h : b.closeTag limit isEmpty = .ok after) :
    after.Spells (bs ++ if isEmpty then [.closing] else []) ∧ after.tag = none := by
  obtain ⟨t, head, bindings, counted, htag, hcount, rfl⟩ := closeTag_eq_ok h
  obtain ⟨hnone, before, rfl, hbefore⟩ := spells_of_tag hb htag
  have hspells := spells_count hbefore hcount
  obtain rfl := count_eq_ok hcount
  cases isEmpty with
  | true =>
    have := spells_place (n := .element head []) hspells rfl fun _ => hnone
    simpa [Node.brackets, Node.bracketsList] using this
  | false =>
    refine ⟨⟨?_, fun _ => hnone, hbefore.root_isElement⟩, rfl⟩
    rw [← hspells.written]
    simp [written, writtenOpened, Node.bracketsList]

/-- The innermost open element has been opened, and its children stand behind that. -/
theorem spells_of_opened {e : OpenElement} {rest : List OpenElement} (hb : b.Spells bs)
    (htag : b.tag = none) (hopened : b.opened = e :: rest) :
    b.root = none ∧ ∃ before, bs = before ++ .opening :: Node.bracketsList e.children.reverse ∧
      Builder.Spells { b with opened := rest } before := by
  obtain ⟨nodes, tag, opened, root⟩ := b
  obtain rfl : tag = none := htag
  obtain rfl : opened = e :: rest := hopened
  obtain ⟨rfl, hnone, helement⟩ := hb
  obtain rfl : root = none := hnone (Or.inl (List.cons_ne_nil e rest))
  refine ⟨rfl, writtenOpened rest, ?_, ?_, fun _ => rfl, helement⟩
  · simp [written, writtenOpened]
  · simp [written]

theorem spells_closeElement {name : QName} (hb : b.Spells bs) (htag : b.tag = none)
    (h : b.closeElement name = .ok after) :
    after.Spells (bs ++ [.closing]) ∧ after.tag = none := by
  unfold closeElement at h
  split at h
  · cases h
  · rename_i e rest hopened
    split at h
    · obtain rfl := Except.ok.inj h
      obtain ⟨hnone, before, rfl, hbefore⟩ := spells_of_opened hb htag hopened
      have := spells_place (n := .element e.head e.children.reverse) hbefore htag fun _ => hnone
      refine ⟨?_, (tag_place _ _).trans htag⟩
      rw [Node.brackets] at this
      rwa [List.append_assoc, List.cons_append]
    · cases h

theorem spells_pushText {chars : List Char} (hb : b.Spells bs) (htag : b.tag = none)
    (h : b.pushText limit chars = .ok after) : after.Spells bs ∧ after.tag = none := by
  unfold pushText at h
  split at h
  · cases h
  · rename_i e rest hopened
    split at h
    · rename_i text children hchildren
      obtain rfl := Except.ok.inj h
      obtain ⟨nodes, tag, opened, root⟩ := b
      obtain rfl : opened = e :: rest := hopened
      refine ⟨⟨?_, fun _ => hb.root_eq_none (Or.inl (List.cons_ne_nil e rest)), hb.root_isElement⟩,
        htag⟩
      rw [← hb.written]
      simp [written, writtenOpened, hchildren, Node.bracketsList_append, Node.bracketsList,
        Node.brackets]
    · exact spells_countPlace hb htag id h

/-- A start tag opens an element, where no root has been closed. -/
theorem spells_startTag {name : QName} (hb : b.Spells bs) (htag : b.tag = none)
    (hroot : ¬ (b.opened.isEmpty && b.root.isSome) = true) :
    Builder.Spells { b with tag := some ⟨name, [], []⟩ } (bs ++ [.opening]) := by
  have hnone : b.root = none := by
    by_cases hopened : b.opened = []
    · rw [hopened] at hroot
      exact Option.not_isSome_iff_eq_none.mp hroot
    · exact hb.root_eq_none (Or.inl hopened)
  refine ⟨?_, fun _ => hnone, hb.root_isElement⟩
  rw [← hb.written, written, written, htag]
  simp

/-- Outside tags, the builder stays there. -/
theorem within_of_tag_eq_none {next : Bool} (h : after.Spells bs ∧ after.tag = none)
    (hnext : some false = some next) : after.Spells bs ∧ after.tag.isSome = next := by
  obtain rfl := Option.some.inj hnext
  exact ⟨h.1, by rw [h.2]; rfl⟩

/-- **A builder keeps the brackets of the tokens that it has taken in.** -/
theorem spells_push {t : Token} {next : Bool} (hb : b.Spells bs)
    (hseq : t.within? b.tag.isSome = some next) (h : b.push limit t = .ok after) :
    after.Spells (bs ++ t.bracket?.toList) ∧ after.tag.isSome = next := by
  have hbs : bs ++ [] = bs := List.append_nil bs
  cases htag : b.tag with
  | none =>
    rw [htag] at hseq
    cases t with
    | declaration =>
      obtain rfl := Except.ok.inj h
      exact within_of_tag_eq_none ⟨hbs.symm ▸ hb, htag⟩ hseq
    | doctype => cases h
    | comment => exact within_of_tag_eq_none (hbs.symm ▸ spells_countPlace hb htag id h) hseq
    | instruction =>
      exact within_of_tag_eq_none (hbs.symm ▸ spells_countPlace hb htag id h) hseq
    | startTag name =>
      rw [push] at h
      split at h
      · cases h
      · split at h
        · cases h
        · rename_i hroot
          obtain rfl := Except.ok.inj h
          exact ⟨spells_startTag hb htag hroot, Option.some.inj hseq⟩
    | endTag name => exact within_of_tag_eq_none (spells_closeElement hb htag h) hseq
    | text value =>
      rw [push] at h
      split at h
      · cases h
      · exact within_of_tag_eq_none (hbs.symm ▸ spells_pushText hb htag h) hseq
    | cdata value => exact within_of_tag_eq_none (hbs.symm ▸ spells_pushText hb htag h) hseq
    | _ => cases hseq
  | some tag =>
    rw [htag] at hseq
    cases t with
    | «attribute» name value =>
      rw [push, htag] at h
      obtain ⟨pushed, -, rfl⟩ := Except.map_eq_ok_iff.mp h
      refine ⟨⟨?_, fun _ => hb.root_eq_none (Or.inr (by simp [htag])), hb.root_isElement⟩,
        Option.some.inj hseq⟩
      rw [← hb.written, written, written, htag]
      simp [Token.bracket?]
    | tagEnd => exact within_of_tag_eq_none (spells_closeTag hb h) hseq
    | emptyTagEnd => exact within_of_tag_eq_none (spells_closeTag hb h) hseq
    | _ => cases hseq

/-- **What a builder has taken in** are the brackets of the tokens. -/
theorem spells_run {ts : List Token} (hb : b.Spells bs) (hseq : Sequenced b.tag.isSome ts)
    (h : b.run limit ts = .ok after) : after.Spells (bs ++ brackets ts) := by
  induction ts generalizing b bs with
  | nil =>
    obtain rfl := Except.ok.inj h
    exact (List.append_nil bs).symm ▸ hb
  | cons t ts ih =>
    obtain ⟨next, hnext, hseq⟩ := hseq
    rw [run] at h
    split at h
    · cases h
    · rename_i pushed hpush
      obtain ⟨hspells, htag⟩ := spells_push hb hnext hpush
      rw [brackets_cons, ← List.append_assoc]
      exact ih hspells (htag.symm ▸ hseq) h

end Builder

/-- **A tree has the brackets of its tokens.** -/
theorem brackets_ofTokens {limit : Nat} {ts : List Token} {root : Node}
    (hseq : Sequenced false ts) (h : Node.ofTokens limit ts = .ok root) :
    root.IsElement ∧ brackets ts = root.brackets := by
  have hempty : Builder.empty.Spells [] :=
    ⟨rfl, fun _ => rfl, fun n hn => by cases hn⟩
  unfold Node.ofTokens at h
  split at h
  · cases h
  · rename_i b hrun
    have hb := Builder.spells_run hempty hseq hrun
    unfold Builder.finish at h
    split at h
    · rename_i hclosed
      obtain ⟨hopened, htag⟩ := Bool.and_eq_true_iff.mp hclosed
      split at h
      · rename_i hroot
        obtain rfl := Except.ok.inj h
        refine ⟨hb.root_isElement _ hroot, ?_⟩
        have hwritten := hb.written
        rw [Builder.written, hroot, List.isEmpty_iff.mp hopened,
          Option.isNone_iff_eq_none.mp htag] at hwritten
        simpa [writtenOpened] using hwritten.symm
      · cases h
    · cases h

/-! ## Nesting -/

/-- Some bracket opens more than `limit` elements at once, when `depth` are open already. -/
def exceeds (limit : Nat) : Nat → List Bracket → Prop
  | _, [] => False
  | depth, .opening :: bs => limit ≤ depth ∨ exceeds limit (depth + 1) bs
  | depth, .closing :: bs => exceeds limit (depth - 1) bs

theorem exceedsDepth_iff_exceeds (limit depth : Nat) (ts : List Token) :
    exceedsDepth limit depth ts = true ↔ exceeds limit depth (brackets ts) := by
  induction ts generalizing depth with
  | nil => simp [exceedsDepth, brackets, exceeds]
  | cons t ts ih =>
    rw [brackets_cons]
    cases t <;> simp [exceedsDepth, exceeds, Token.bracket?, ih]

/-- Nodes exceed a depth where they are nested deeper; behind them as many elements are open as
before. -/
theorem exceeds_bracketsList {limit depth : Nat} (h : depth ≤ limit) (ns : List Node)
    (rest : List Bracket) :
    exceeds limit depth (Node.bracketsList ns ++ rest) ↔
      limit < depth + Node.depthList ns ∨ exceeds limit depth rest := by
  induction ns using Node.induction_list generalizing depth rest with
  | nil => simp [Node.bracketsList, Node.depthList, Nat.not_lt.mpr h]
  | element head children ns ihchildren ihns =>
    have hbrackets : Node.bracketsList (.element head children :: ns) ++ rest =
        .opening :: (Node.bracketsList children ++
          .closing :: (Node.bracketsList ns ++ rest)) := by
      simp [Node.bracketsList, Node.brackets]
    rw [hbrackets, exceeds, Node.depthList, Node.depth]
    by_cases hdepth : limit ≤ depth
    · exact iff_of_true (Or.inl hdepth) (Or.inl (by omega))
    · have hopen : depth + 1 ≤ limit := Nat.not_le.mp hdepth
      rw [ihchildren hopen, exceeds, Nat.add_sub_cancel, ihns h]
      constructor
      · rintro (hle | hchildren | hns | hrest)
        · exact absurd hle hdepth
        · exact Or.inl (by omega)
        · exact Or.inl (by omega)
        · exact Or.inr hrest
      · rintro (hnested | hrest)
        · by_cases hchildren : limit < depth + 1 + Node.depthList children
          · exact Or.inr (Or.inl hchildren)
          · exact Or.inr (Or.inr (Or.inl (by omega)))
        · exact Or.inr (Or.inr (Or.inr hrest))
  | leaf n ns hn ih =>
    rw [Node.bracketsList, Node.depthList, Node.brackets_of_not_isElement hn,
      Node.depth_of_not_isElement hn, List.nil_append, Nat.zero_max]
    exact ih h rest

/-- **Tokens exceed a depth exactly when their tree does.** -/
theorem exceedsDepth_iff {nodes limit : Nat} {ts : List Token} {root : Node}
    (hseq : Sequenced false ts) (h : Node.ofTokens nodes ts = .ok root) :
    exceedsDepth limit 0 ts = true ↔ limit < root.depth := by
  have hroot := exceeds_bracketsList (Nat.zero_le limit) [root] []
  rw [exceedsDepth_iff_exceeds, (brackets_ofTokens hseq h).2]
  simpa [Node.bracketsList, Node.depthList, exceeds] using hroot

end TradeIntake.Xml
