import TradeIntake.Proofs.Except
import TradeIntake.Proofs.Xml.Brackets

/-!
# The limit on nodes

A builder counts the document as a node and one more for every element, when its start tag ends. So
a tree has fewer elements than its limit has nodes. Nothing but the count looks at the limit, and
the count does no more than refuse: what is built within a limit is built within any larger one.

* **`grown_run`**: how the nodes grow with the elements that tokens open.
* **`count_lt_of_ofTokens`**: a tree has fewer elements than nodes are allowed.
* **`ofTokens_mono`**: a larger limit builds the same tree.
-/

namespace TradeIntake.Xml

namespace Builder

variable {limit more : Nat} {b after : Builder}

/-! ## What a token adds -/

/-- How many nodes there are, with the element whose start tag is under way. -/
def begun (b : Builder) : Nat :=
  b.nodes + if b.tag.isSome then 1 else 0

theorem count_eq_ok_iff :
    b.count limit = .ok after ↔ b.nodes < limit ∧ after = { b with nodes := b.nodes + 1 } := by
  unfold count
  split
  · rename_i h
    simp [Nat.not_lt.mpr h]
  · rename_i h
    simp [Nat.not_le.mp h, eq_comm]

@[simp]
theorem nodes_place (n : Node) (b : Builder) : (b.place n).nodes = b.nodes := by
  unfold place
  split
  · split <;> rfl
  · rfl

/-- **The nodes have grown** by `opened` elements at least, the one under way among them, and not
beyond the limit. -/
structure Grown (limit opened : Nat) (b after : Builder) : Prop where
  begun_le : b.begun + opened ≤ after.begun
  nodes_le : after.nodes ≤ max b.nodes limit

theorem Grown.of_eq (hnodes : after.nodes = b.nodes) (htag : after.tag = b.tag) :
    Grown limit 0 b after where
  begun_le := by simp [begun, hnodes, htag]
  nodes_le := by
    rw [hnodes]
    exact Nat.le_max_left ..

/-- A node that is no element is counted. -/
theorem grown_countPlace {n : Node} (h : (b.count limit).map (Builder.place n) = .ok after) :
    Grown limit 0 b after := by
  obtain ⟨counted, hcount, rfl⟩ := Except.map_eq_ok_iff.mp h
  obtain ⟨hlt, rfl⟩ := count_eq_ok_iff.mp hcount
  constructor
  · simp [begun]
  · rw [nodes_place]
    exact Nat.le_trans hlt (Nat.le_max_right ..)

theorem grown_pushText {chars : List Char} (h : b.pushText limit chars = .ok after) :
    Grown limit 0 b after := by
  unfold pushText at h
  split at h
  · cases h
  · split at h
    · obtain rfl := Except.ok.inj h
      exact .of_eq rfl rfl
    · exact grown_countPlace h

/-- The end of a start tag counts the element that was under way. -/
theorem grown_closeTag {isEmpty : Bool} (h : b.closeTag limit isEmpty = .ok after) :
    Grown limit 0 b after := by
  obtain ⟨t, head, bindings, counted, htag, hcount, rfl⟩ := closeTag_eq_ok h
  obtain ⟨hlt, rfl⟩ := count_eq_ok_iff.mp hcount
  have hle : b.nodes + 1 ≤ max b.nodes limit := Nat.le_trans hlt (Nat.le_max_right ..)
  constructor
  · cases isEmpty <;> simp [begun, htag]
  · cases isEmpty <;> simpa using hle

theorem grown_closeElement {name : QName} (h : b.closeElement name = .ok after) :
    Grown limit 0 b after := by
  unfold closeElement at h
  split at h
  · cases h
  · split at h
    · obtain rfl := Except.ok.inj h
      exact .of_eq (nodes_place ..) (tag_place ..)
    · cases h

/-- **What a token adds**: a node at least for an element that it opens. -/
theorem grown_push {t : Token} {next : Bool} (hseq : t.within? b.tag.isSome = some next)
    (h : b.push limit t = .ok after) :
    Grown limit (t.bracket?.toList.count .opening) b after := by
  cases t with
  | declaration =>
    obtain rfl := Except.ok.inj h
    exact .of_eq rfl rfl
  | doctype => cases h
  | comment => exact grown_countPlace h
  | instruction => exact grown_countPlace h
  | startTag name =>
    have htag : b.tag = none := by
      cases hb : b.tag with
      | none => rfl
      | some tag =>
        rw [hb] at hseq
        cases hseq
    rw [push] at h
    split at h
    · cases h
    · split at h
      · cases h
      · obtain rfl := Except.ok.inj h
        exact ⟨by simp [begun, htag, Token.bracket?], Nat.le_max_left ..⟩
  | «attribute» name value =>
    rw [push] at h
    split at h
    · cases h
    · rename_i tag htag
      obtain ⟨pushed, -, rfl⟩ := Except.map_eq_ok_iff.mp h
      exact ⟨by simp [begun, htag, Token.bracket?], Nat.le_max_left ..⟩
  | tagEnd => exact grown_closeTag h
  | emptyTagEnd => exact grown_closeTag h
  | endTag name => exact grown_closeElement h
  | text value =>
    rw [push] at h
    split at h
    · cases h
    · exact grown_pushText h
  | cdata value => exact grown_pushText h

/-! ## What a run adds -/

/-- **The nodes grow with the elements** that tokens open, within the limit. -/
theorem grown_run {bs : List Bracket} {ts : List Token} (hb : b.Spells bs)
    (hseq : Sequenced b.tag.isSome ts) (h : b.run limit ts = .ok after) :
    Grown limit ((brackets ts).count .opening) b after := by
  induction ts generalizing b bs with
  | nil =>
    obtain rfl := Except.ok.inj h
    exact .of_eq rfl rfl
  | cons t ts ih =>
    obtain ⟨next, hnext, hseq⟩ := hseq
    rw [run] at h
    split at h
    · cases h
    · rename_i pushed hpush
      obtain ⟨hspells, htag⟩ := spells_push hb hnext hpush
      have hpushed := grown_push hnext hpush
      have hrun := ih hspells (htag.symm ▸ hseq) h
      have hbegun := hpushed.begun_le
      have hrest := hrun.begun_le
      have hnodes := hpushed.nodes_le
      have hlast := hrun.nodes_le
      rw [brackets_cons, List.count_append]
      exact ⟨by omega, by omega⟩

/-! ## A larger limit -/

theorem map_count_mono {f : Builder → Builder} (hle : limit ≤ more)
    (h : (b.count limit).map f = .ok after) : (b.count more).map f = .ok after := by
  obtain ⟨counted, hcount, rfl⟩ := Except.map_eq_ok_iff.mp h
  obtain ⟨hlt, rfl⟩ := count_eq_ok_iff.mp hcount
  exact Except.map_eq_ok_iff.mpr
    ⟨_, count_eq_ok_iff.mpr ⟨Nat.lt_of_lt_of_le hlt hle, rfl⟩, rfl⟩

theorem pushText_mono {chars : List Char} (hle : limit ≤ more)
    (h : b.pushText limit chars = .ok after) : b.pushText more chars = .ok after := by
  unfold pushText at h ⊢
  split at h
  · cases h
  · dsimp only
    split at h
    · exact h
    · exact map_count_mono hle h

theorem closeTag_mono {isEmpty : Bool} (hle : limit ≤ more)
    (h : b.closeTag limit isEmpty = .ok after) : b.closeTag more isEmpty = .ok after := by
  unfold closeTag at h ⊢
  split at h
  · cases h
  · extract_lets at h ⊢
    split at h
    · cases h
    · exact map_count_mono hle h

/-- **A token that is taken in within a limit** is taken in the same way within a larger one. -/
theorem push_mono {t : Token} (hle : limit ≤ more) (h : b.push limit t = .ok after) :
    b.push more t = .ok after := by
  cases t with
  | comment => exact map_count_mono hle h
  | instruction => exact map_count_mono hle h
  | tagEnd => exact closeTag_mono hle h
  | emptyTagEnd => exact closeTag_mono hle h
  | text value =>
    rw [push] at h ⊢
    split at h
    · cases h
    · exact pushText_mono hle h
  | cdata value => exact pushText_mono hle h
  | declaration | doctype | startTag | «attribute» | endTag => exact h

theorem run_mono {ts : List Token} (hle : limit ≤ more) (h : b.run limit ts = .ok after) :
    b.run more ts = .ok after := by
  induction ts generalizing b with
  | nil => exact h
  | cons t ts ih =>
    rw [run] at h ⊢
    split at h
    · cases h
    · rename_i pushed hpush
      rw [push_mono hle hpush]
      exact ih h

end Builder

/-! ## Trees -/

/-- **A larger limit builds the same tree.** -/
theorem ofTokens_mono {limit more : Nat} {ts : List Token} {root : Node} (hle : limit ≤ more)
    (h : Node.ofTokens limit ts = .ok root) : Node.ofTokens more ts = .ok root := by
  unfold Node.ofTokens at h ⊢
  split at h
  · cases h
  · rename_i b hrun
    rw [Builder.run_mono hle hrun]
    exact h

/-- The elements that nodes become are those that their brackets open. -/
theorem count_opening_bracketsList (ns : List Node) :
    (Node.bracketsList ns).count .opening = Element.countList (Node.elementsOf ns) := by
  induction ns using Node.induction_list with
  | nil => rfl
  | element head children ns ihchildren ihns =>
    have helements : Node.elementsOf (.element head children :: ns) =
        ⟨head.name, head.namespaceUri?, head.attributes, Node.textOf children,
          Node.elementsOf children⟩ :: Node.elementsOf ns := rfl
    rw [helements, Element.countList, Element.count, ← ihchildren, ← ihns]
    simp [Node.bracketsList, Node.brackets, List.count_append]
    omega
  | leaf n ns hn ih =>
    rw [Node.bracketsList, Node.brackets_of_not_isElement hn, List.nil_append, ih]
    cases n with
    | element head children => exact absurd trivial hn
    | text | comment | instruction => rfl

theorem count_eq_count_opening {root : Node} {e : Element} (h : root.element? = some e) :
    e.count = root.brackets.count .opening := by
  have hroot := count_opening_bracketsList [root]
  simpa [Node.bracketsList, Node.elementsOf, h, Element.countList] using hroot.symm

/-- **A tree has fewer elements than nodes are allowed**, since the document is a node as well. -/
theorem count_lt_of_ofTokens {limit : Nat} {ts : List Token} {root : Node} {e : Element}
    (hseq : Sequenced false ts) (h : Node.ofTokens limit ts = .ok root)
    (he : root.element? = some e) : e.count < limit := by
  have hempty : Builder.empty.Spells [] :=
    ⟨rfl, fun _ => rfl, fun n hn => by cases hn⟩
  have hbrackets := (brackets_ofTokens hseq h).2
  have hpos := e.count_pos
  unfold Node.ofTokens at h
  split at h
  · cases h
  · rename_i b hrun
    have hgrown := Builder.grown_run hempty hseq hrun
    have htag : b.tag = none := by
      unfold Builder.finish at h
      split at h
      · rename_i hclosed
        exact Option.isNone_iff_eq_none.mp (Bool.and_eq_true_iff.mp hclosed).2
      · cases h
    have hbegun := hgrown.begun_le
    have hnodes := hgrown.nodes_le
    rw [hbrackets, ← count_eq_count_opening he] at hbegun
    simp only [Builder.begun, Builder.empty, htag] at hbegun hnodes
    simp at hbegun
    omega

end TradeIntake.Xml
