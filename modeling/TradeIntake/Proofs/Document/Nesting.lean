import TradeIntake.Document
import TradeIntake.Proofs.Document.Copy

/-!
# The limit on nesting

Nesting is counted on the tokens, before a tree is built, and once more while the tree is copied. The
first count starts at no element and refuses the one that would be too many; the second starts at
the root and refuses one more when as many are open as may be. Both come to the nesting of the tree,
so the second one never refuses what the first one lets pass, whatever the limit.

* **`parse_of_holds`**: what becomes of bytes that hold a tree.
* **`nestingGuarded`**: documents are refused for their nesting exactly when it exceeds the limit,
  and no document that is accepted exceeds it.
* `nestingGuarded_pair`: two elements, with a limit of one and of two.
-/

namespace TradeIntake

namespace Document

variable {settings : IngestSettings} {bytes : List UInt8} {root : Xml.Node}

/-- The bytes hold a tree, however deep it is nested: they are text, which is scanned without fault,
and the tree is built from its tokens. -/
def Holds (settings : IngestSettings) (bytes : List UInt8) (root : Xml.Node) : Prop :=
  ∃ text, Text.Utf8.decode (withoutMark bytes) = .ok text ∧ (Xml.scan text).fault = none ∧
    Xml.Node.ofTokens settings.maxNodes (Xml.scan text).tokens = .ok root

theorem exists_element? {n : Xml.Node} (h : n.IsElement) : ∃ e, n.element? = some e := by
  cases n with
  | element head children => exact ⟨_, rfl⟩
  | text | comment | instruction => exact h.elim

/-- **What becomes of bytes that hold a tree**: they are refused when it is nested too deep, and a
document with the elements of the tree otherwise. -/
theorem parse_of_holds (h : Holds settings bytes root) :
    ∃ e, root.element? = some e ∧ parse settings bytes =
      if depthLimit settings < root.depth then .error (.tooDeep (depthLimit settings))
      else .ok ⟨e, (withoutMark bytes).length, e.count⟩ := by
  obtain ⟨text, hdecode, hfault, hbuilt⟩ := h
  have hseq := Xml.sequenced_scan text
  obtain ⟨e, he⟩ := exists_element? (Xml.brackets_ofTokens hseq hbuilt).1
  have hdepth : Xml.exceedsDepth (depthLimit settings) 0 (Xml.scan text).tokens = true ↔
      depthLimit settings < root.depth := Xml.exceedsDepth_iff hseq hbuilt
  refine ⟨e, he, ?_⟩
  rw [parse, hdecode]
  change ofText settings _ text = _
  rw [ofText, checkTokens]
  by_cases hdeep : depthLimit settings < root.depth
  · rw [if_pos (hdepth.mpr hdeep), if_pos hdeep]
  · rw [if_neg fun h => hdeep (hdepth.mp h), if_neg hdeep, hfault]
    dsimp only
    rw [hbuilt]
    dsimp only
    rw [ofNode, copy_eq _ he, if_neg hdeep]

/-- A document comes from bytes that hold a tree. -/
theorem holds_of_parse {d : Document} (h : parse settings bytes = .ok d) :
    ∃ root, Holds settings bytes root := by
  unfold parse at h
  dsimp only at h
  split at h
  · cases h
  · rename_i text hdecode
    unfold ofText at h
    dsimp only at h
    split at h
    · cases h
    · rename_i hcheck
      split at h
      · cases h
      · rename_i root hbuilt
        refine ⟨root, text, hdecode, ?_, hbuilt⟩
        unfold checkTokens at hcheck
        split at hcheck
        · cases hcheck
        · split at hcheck
          · cases hcheck
          · assumption

/-- **The limit on nesting holds**, with a limit of the settings that may be any number. -/
structure NestingGuarded (settings : IngestSettings) : Prop where
  /-- A tree is refused for its nesting exactly when it exceeds the limit. -/
  tooDeep_iff : ∀ bytes root, Holds settings bytes root →
    (parse settings bytes = .error (.tooDeep (min settings.maxDepth 1024)) ↔
      min settings.maxDepth 1024 < root.depth)
  /-- Any other tree becomes a document. -/
  accepted : ∀ bytes root, Holds settings bytes root → root.depth ≤ min settings.maxDepth 1024 →
    ∃ d, parse settings bytes = .ok d
  /-- A document is nested within the limit and knows how many elements it has; it is what the copy
  of its tree came to. -/
  document : ∀ bytes d, parse settings bytes = .ok d →
    d.root.depth ≤ min settings.maxDepth 1024 ∧ d.elementCount = d.root.count ∧
      ∃ root, Holds settings bytes root ∧
        copy (min settings.maxDepth 1024) root = .ok (d.root, d.elementCount)
  /-- The copy refuses nothing that came through the check of the tokens. -/
  copied : ∀ text root, checkTokens (min settings.maxDepth 1024) (Xml.scan text) = .ok () →
    Xml.Node.ofTokens settings.maxNodes (Xml.scan text).tokens = .ok root →
    ∃ e, copy (min settings.maxDepth 1024) root = .ok (e, e.count)

/-- **The limit on nesting holds for all settings.** -/
theorem nestingGuarded (settings : IngestSettings) : NestingGuarded settings where
  tooDeep_iff bytes root h := by
    obtain ⟨e, -, hparse⟩ := parse_of_holds h
    rw [hparse]
    by_cases hdeep : depthLimit settings < root.depth
    · rw [if_pos hdeep]
      exact iff_of_true rfl hdeep
    · rw [if_neg hdeep]
      exact iff_of_false (by rintro ⟨⟩) hdeep
  accepted bytes root h hdepth := by
    obtain ⟨e, -, hparse⟩ := parse_of_holds h
    refine ⟨⟨e, (withoutMark bytes).length, e.count⟩, ?_⟩
    rw [hparse]
    exact if_neg (Nat.not_lt.mpr hdepth)
  document bytes d h := by
    obtain ⟨root, hholds⟩ := holds_of_parse h
    obtain ⟨e, he, hparse⟩ := parse_of_holds hholds
    rw [hparse] at h
    split at h
    · cases h
    · rename_i hdepth
      obtain rfl := Except.ok.inj h
      refine ⟨?_, rfl, root, hholds, ?_⟩
      · rw [Xml.Node.depth_of_element? he]
        exact Nat.not_lt.mp hdepth
      · rw [copy_eq _ he]
        exact if_neg hdepth
  copied text root hcheck hbuilt := by
    have hseq := Xml.sequenced_scan text
    obtain ⟨e, he⟩ := exists_element? (Xml.brackets_ofTokens hseq hbuilt).1
    refine ⟨e, ?_⟩
    rw [copy_eq _ he, if_neg]
    intro hdeep
    rw [checkTokens, if_pos ((Xml.exceedsDepth_iff hseq hbuilt).mpr hdeep)] at hcheck
    cases hcheck

/-- An element in another. -/
def pair : List UInt8 :=
  Text.Utf8.encode "<a><b/></a>"

/-- Its tree. -/
def pairTree : Xml.Node :=
  .element ⟨"a", none, []⟩ [.element ⟨"b", none, []⟩ []]

/-- Two elements are nested too deep for a limit of one, and not for a limit of two. -/
theorem nestingGuarded_pair :
    Holds { maxDepth := 1 } pair pairTree ∧
      parse { maxDepth := 1 } pair = .error (.tooDeep 1) ∧
    Holds { maxDepth := 2 } pair pairTree ∧
      ∃ d, parse { maxDepth := 2 } pair = .ok d ∧ d.elementCount = d.root.count := by
  have hone : Holds { maxDepth := 1 } pair pairTree := ⟨"<a><b/></a>".toList, rfl, rfl, rfl⟩
  have htwo : Holds { maxDepth := 2 } pair pairTree := ⟨"<a><b/></a>".toList, rfl, rfl, rfl⟩
  obtain ⟨d, hd⟩ := (nestingGuarded { maxDepth := 2 }).accepted pair pairTree htwo (by decide)
  exact ⟨hone, ((nestingGuarded { maxDepth := 1 }).tooDeep_iff pair pairTree hone).mpr (by decide),
    htwo, d, hd, ((nestingGuarded { maxDepth := 2 }).document pair d hd).2.1⟩

end Document

end TradeIntake
