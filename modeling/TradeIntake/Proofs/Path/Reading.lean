import Mathlib.Algebra.Group.Nat.Defs
import Mathlib.Data.List.TakeDrop
import Mathlib.Data.List.TakeWhile
import TradeIntake.Path.Reader

/-!
# How paths are read

A name is a run of name characters, none of which is a mark or a blank, so names end where marks
begin. A predicate ends at the first bracket outside quotation marks; `quoteAfter` says which
quotation is under way after a text, and whether the bracket came before its end. What is read is
well formed.

* **`closeBracket_of_quoteAfter`**: a predicate goes on behind a text without its bracket.
* **`readAttributeTest_eq`**, **`readBody_numeral`**: what stands between brackets, with blanks around
  its parts.
* **`readSteps_step`**: one step is read, up to its predicates.
* **`wellFormed_of_parse`**: what a path that was read is made of.
-/

namespace TradeIntake

/-! ## Blanks around a text -/

namespace Text

/-- The text is `core` with blanks around it, if any. -/
def Around (core cs : List Char) : Prop :=
  ∃ before after, (∀ c ∈ before ++ after, isBlank c = true) ∧ cs = before ++ (core ++ after)

theorem around_self (cs : List Char) : Around cs cs :=
  ⟨[], [], nofun, (List.append_nil cs).symm⟩

theorem around_trimList (cs : List Char) : Around (trimList cs) cs := by
  refine ⟨cs.takeWhile isBlank, ((trimStart cs).reverse.takeWhile isBlank).reverse, ?_, ?_⟩
  · intro c hc
    rcases List.mem_append.mp hc with hc | hc
    · exact List.mem_takeWhile_imp hc
    · exact List.mem_takeWhile_imp (List.mem_reverse.mp hc)
  · rw [trimList, trimEnd, trimStart, ← List.reverse_append, List.takeWhile_append_dropWhile,
      List.reverse_reverse, trimStart, List.takeWhile_append_dropWhile]

theorem Around.concat {core cs blanks : List Char} (h : Around core cs)
    (hblanks : ∀ c ∈ blanks, isBlank c = true) : Around core (cs ++ blanks) := by
  obtain ⟨before, after, hblank, rfl⟩ := h
  refine ⟨before, after ++ blanks, ?_, by simp⟩
  intro c hc
  rw [← List.append_assoc, List.mem_append] at hc
  exact hc.elim (hblank c) (hblanks c)

/-- Trimming takes off the blanks around a text that has none at its ends. -/
theorem Around.trimList_eq {core cs : List Char} (h : Around core cs)
    (hs : ∀ c ∈ core.head?, isBlank c = false) (he : ∀ c ∈ core.getLast?, isBlank c = false) :
    trimList cs = core := by
  obtain ⟨before, after, hblank, rfl⟩ := h
  have hbefore : ∀ c ∈ before, isBlank c = true := fun c hc =>
    hblank c (List.mem_append_left _ hc)
  have hafter : ∀ c ∈ after.reverse, isBlank c = true := fun c hc =>
    hblank c (List.mem_append_right _ (List.mem_reverse.mp hc))
  cases core with
  | nil =>
    have hnil : after.dropWhile isBlank = [] :=
      List.dropWhile_eq_nil_iff.mpr fun c hc => hafter c (List.mem_reverse.mpr hc)
    rw [trimList, trimStart, List.dropWhile_append_of_pos hbefore, List.nil_append, hnil]
    rfl
  | cons c core =>
    have hstart : trimStart (before ++ (c :: core ++ after)) = c :: core ++ after := by
      rw [trimStart, List.dropWhile_append_of_pos hbefore, List.cons_append,
        List.dropWhile_cons_of_neg (by simp [hs c rfl])]
    have hend : (c :: core).reverse.dropWhile isBlank = (c :: core).reverse := by
      rw [← List.head?_reverse] at he
      cases hrev : (c :: core).reverse with
      | nil => rfl
      | cons d rest => simp [he d (by rw [hrev]; rfl)]
    rw [trimList, hstart, trimEnd, trimStart, List.reverse_append,
      List.dropWhile_append_of_pos hafter, hend, List.reverse_reverse]

end Text

/-! ## Names -/

namespace Path

open Text

/-- A run of name characters. -/
def IsName (name : String) : Prop :=
  name.toList ≠ [] ∧ ∀ c ∈ name.toList, isNameChar c = true

instance (name : String) : Decidable (IsName name) :=
  decidable_of_iff (name.toList ≠ [] ∧ name.toList.all isNameChar = true) (by
    rw [IsName, List.all_eq_true])

/-- Marks are no name characters, so no name character is one of them. -/
theorem ne_of_isNameChar {c mark : Char} (h : isNameChar c = true) (hm : isNameChar mark = false) :
    c ≠ mark := by
  rintro rfl
  rw [h] at hm
  cases hm

theorem isNameChar_of_isDigit {c : Char} (h : c.isDigit = true) : isNameChar c = true := by
  have hlt : c.toNat < 0x80 := by
    simp only [Char.isDigit, Bool.and_eq_true, decide_eq_true_eq, UInt32.le_iff_toNat_le] at h
    have hc : c.val.toNat ≤ 57 := h.2
    have : c.toNat = c.val.toNat := rfl
    omega
  have := isAlphanumeric_of_core hlt (by simp [Char.isAlphanum, h])
  simp [isNameChar, this]

/-- No blank is a name character. -/
theorem isNameChar_of_isBlank {c : Char} (h : isBlank c = true) : isNameChar c = false := by
  have key : ∀ n ∈ [9, 10, 11, 12, 13, 0x20, 0x85, 0xA0, 0x1680, 0x2000, 0x2001, 0x2002, 0x2003,
      0x2004, 0x2005, 0x2006, 0x2007, 0x2008, 0x2009, 0x200A, 0x2028, 0x2029, 0x202F, 0x205F,
      0x3000], isNameChar (Char.ofNat n) = false := by
    decide +kernel
  rw [← Char.ofNat_toNat c]
  refine key c.toNat ?_
  simp only [isBlank, Bool.or_eq_true, Bool.and_eq_true, decide_eq_true_eq, beq_iff_eq] at h
  simp only [List.mem_cons, List.not_mem_nil, or_false]
  omega

theorem isBlank_of_isNameChar {c : Char} (h : isNameChar c = true) : isBlank c = false := by
  by_cases hb : isBlank c = true
  · rw [isNameChar_of_isBlank hb] at h
    cases h
  · exact eq_false_of_ne_true hb

/-- A name is read up to a character that is no name character and no colon. -/
theorem readName_append {name : String} (h : IsName name) {rest : List Char}
    (hr : ∀ c ∈ rest.head?, isNameChar c = false ∧ c ≠ ':') :
    readName (name.toList ++ rest) = .ok (name.toList, rest) := by
  obtain ⟨hne, hname⟩ := h
  have hspan : (name.toList ++ rest).span isNameChar = (name.toList, rest) := by
    have hrest : rest.takeWhile isNameChar = [] ∧ rest.dropWhile isNameChar = rest := by
      cases rest with
      | nil => exact ⟨rfl, rfl⟩
      | cons c rest => simp [(hr c rfl).1]
    rw [List.span_eq_takeWhile_dropWhile, List.takeWhile_append_of_pos hname,
      List.dropWhile_append_of_pos hname, hrest.1, hrest.2, List.append_nil]
  cases hcs : name.toList with
  | nil => exact absurd hcs hne
  | cons c cs =>
    rw [hcs] at hspan hname
    have hstar : c ≠ '*' := ne_of_isNameChar (hname c List.mem_cons_self) rfl
    unfold readName
    split
    · rename_i heq
      exact absurd (List.cons.inj heq).1 hstar
    · rw [hspan]
      split
      · rename_i heq
        cases (Prod.mk.inj heq).1
      · rename_i heq
        obtain ⟨-, rfl⟩ := Prod.mk.inj heq
        exact absurd rfl (hr ':' rfl).2
      · rename_i heq
        obtain ⟨rfl, rfl⟩ := Prod.mk.inj heq
        rfl

theorem isName_of_readName {cs name rest : List Char} (h : readName cs = .ok (name, rest)) :
    name = ['*'] ∨ IsName (String.ofList name) := by
  unfold readName at h
  split at h
  · obtain ⟨rfl, -⟩ := Prod.mk.inj (Except.ok.inj h)
    exact Or.inl rfl
  · rename_i cs _
    split at h
    · cases h
    · cases h
    · rename_i name' rest' hne _ hspan
      obtain ⟨rfl, rfl⟩ := Prod.mk.inj (Except.ok.inj h)
      rw [List.span_eq_takeWhile_dropWhile] at hspan
      obtain ⟨rfl, -⟩ := Prod.mk.inj hspan
      refine Or.inr ⟨?_, ?_⟩
      · rw [String.toList_ofList]
        exact hne
      · rw [String.toList_ofList]
        intro c hc
        exact List.mem_takeWhile_imp hc

/-! ## Quotations -/

/-- The quotation under way after a character: outside quotations a mark of either kind opens one,
and only the mark that opened it closes it. -/
def turn (quote : Option Char) (c : Char) : Option Char :=
  match quote with
  | some mark => if c = mark then none else some mark
  | none => if c = '\'' ∨ c = '"' then some c else none

/-- The quotation under way after a text, where `quote` was under way before it; none when a bracket
outside quotations comes before its end. -/
def quoteAfter (quote : Option Char) : List Char → Option (Option Char)
  | [] => some quote
  | c :: cs => if quote = none ∧ c = ']' then none else quoteAfter (turn quote c) cs

theorem quoteAfter_append (quote : Option Char) (cs ds : List Char) :
    quoteAfter quote (cs ++ ds) = (quoteAfter quote cs).bind fun after => quoteAfter after ds := by
  induction cs generalizing quote with
  | nil => rfl
  | cons c cs ih =>
    rw [List.cons_append, quoteAfter, quoteAfter, ih]
    split <;> rfl

/-- A quotation goes on to its mark. -/
theorem quoteAfter_of_notMem {mark : Char} {cs : List Char} (h : mark ∉ cs) :
    quoteAfter (some mark) cs = some (some mark) := by
  induction cs with
  | nil => rfl
  | cons c cs ih =>
    rw [List.mem_cons, not_or] at h
    rw [quoteAfter, if_neg (by simp), turn, if_neg (Ne.symm h.1)]
    exact ih h.2

/-- Quotations are opened by apostrophes and by quotation marks only. -/
theorem isMark_of_quoteAfter {quote after : Option Char} {cs : List Char}
    (hquote : ∀ mark ∈ quote, mark = '\'' ∨ mark = '"') (h : quoteAfter quote cs = some after) :
    ∀ mark ∈ after, mark = '\'' ∨ mark = '"' := by
  induction cs generalizing quote with
  | nil =>
    obtain rfl := Option.some.inj h
    exact hquote
  | cons c cs ih =>
    rw [quoteAfter] at h
    split at h
    · cases h
    · refine ih ?_ h
      intro mark hmark
      unfold turn at hmark
      split at hmark
      · split at hmark
        · cases hmark
        · exact hquote mark hmark
      · split at hmark
        · rename_i hc
          obtain rfl := Option.some.inj hmark
          exact hc
        · cases hmark

theorem quoteAfter_of_isNameChar {cs : List Char} (h : ∀ c ∈ cs, isNameChar c = true) :
    quoteAfter none cs = some none := by
  induction cs with
  | nil => rfl
  | cons c cs ih =>
    have hc := h c List.mem_cons_self
    have hbracket : c ≠ ']' := ne_of_isNameChar hc rfl
    have hapostrophe : c ≠ '\'' := ne_of_isNameChar hc rfl
    have hquote : c ≠ '"' := ne_of_isNameChar hc rfl
    rw [quoteAfter, if_neg (by simp [hbracket]), turn, if_neg (by simp [hapostrophe, hquote])]
    exact ih fun d hd => h d (List.mem_cons_of_mem c hd)

theorem closeBracket_cons (quote : Option Char) (c : Char) (cs acc : List Char) :
    closeBracket quote (c :: cs) acc =
      if quote = none ∧ c = ']' then some (acc.reverse, cs)
      else closeBracket (turn quote c) cs (c :: acc) := by
  rw [closeBracket.eq_def]
  cases quote with
  | some mark => simp [turn]
  | none =>
    by_cases hc : c = ']'
    · simp [hc]
    · simp only [hc, and_false, if_false, turn]
      split <;> rfl

/-- The search for the bracket goes on behind a text without it. -/
theorem closeBracket_of_quoteAfter {quote after : Option Char} {cs : List Char}
    (h : quoteAfter quote cs = some after) (rest acc : List Char) :
    closeBracket quote (cs ++ rest) acc = closeBracket after rest (cs.reverse ++ acc) := by
  induction cs generalizing quote acc with
  | nil =>
    obtain rfl := Option.some.inj h
    rfl
  | cons c cs ih =>
    rw [quoteAfter] at h
    split at h
    · cases h
    · rename_i hc
      rw [List.cons_append, closeBracket_cons, if_neg hc, ih h, List.reverse_cons, List.append_assoc]
      rfl

/-- The search ends in a text with the bracket. -/
theorem closeBracket_of_quoteAfter_eq_none {quote : Option Char} {cs : List Char}
    (h : quoteAfter quote cs = none) (rest acc : List Char) :
    ∃ before after, cs = before ++ ']' :: after ∧
      closeBracket quote (cs ++ rest) acc = some (acc.reverse ++ before, after ++ rest) := by
  induction cs generalizing quote acc with
  | nil => cases h
  | cons c cs ih =>
    rw [quoteAfter] at h
    split at h
    · rename_i hc
      refine ⟨[], cs, by rw [hc.2]; rfl, ?_⟩
      rw [List.cons_append, closeBracket_cons, if_pos hc, List.append_nil]
    · rename_i hc
      obtain ⟨before, after, rfl, hclose⟩ := ih h (c :: acc)
      refine ⟨c :: before, after, rfl, ?_⟩
      rw [List.cons_append, closeBracket_cons, if_neg hc, hclose, List.reverse_cons,
        List.append_assoc]
      rfl

/-! ## Predicates -/

/-- The body of an attribute test, with marks of one kind around the value. -/
def testBody (name : String) (mark : Char) (value : List Char) : List Char :=
  '@' :: (name.toList ++ '=' :: mark :: (value ++ [mark]))

theorem testBody_eq (name : String) (mark : Char) (value : List Char) :
    testBody name mark value = '@' :: (name.toList ++ ['=', mark]) ++ value ++ [mark] := by
  simp [testBody]

/-- The name of an attribute test ends at the equals sign. -/
theorem span_name {name : String} (h : IsName name) (after : List Char) :
    (name.toList ++ '=' :: after).span (· != '=') = (name.toList, '=' :: after) := by
  have hne : ∀ c ∈ name.toList, (c != '=') = true := fun c hc =>
    bne_iff_ne.mpr (ne_of_isNameChar (h.2 c hc) rfl)
  rw [List.span_eq_takeWhile_dropWhile, List.takeWhile_append_of_pos hne,
    List.dropWhile_append_of_pos hne]
  simp

/-- What stands between two marks of a kind is left when they are taken off. -/
theorem unquote?_eq_some_iff {cs value : List Char} :
    unquote? cs = some value ↔
      ∃ mark, (mark = '\'' ∨ mark = '"') ∧ cs = mark :: (value ++ [mark]) := by
  have strip (mark : Char) : stripMarks? mark cs = some value ↔ cs = mark :: (value ++ [mark]) := by
    cases cs with
    | nil => simp [stripMarks?]
    | cons c cs =>
      rw [stripMarks?]
      constructor
      · intro h
        split at h
        · rename_i hc
          obtain ⟨rfl, hlast⟩ := hc
          obtain ⟨ds, rfl⟩ := List.getLast?_eq_some_iff.mp hlast
          simpa using h
        · cases h
      · rintro h
        obtain ⟨rfl, rfl⟩ := List.cons.inj h
        simp
  unfold unquote?
  rw [Option.or_eq_some_iff, strip, strip]
  constructor
  · rintro (h | ⟨-, h⟩)
    · exact ⟨_, Or.inl rfl, h⟩
    · exact ⟨_, Or.inr rfl, h⟩
  · rintro ⟨mark, rfl | rfl, h⟩
    · exact Or.inl h
    · refine Or.inr ⟨?_, h⟩
      rw [h]
      rfl

/-- An attribute test is read with blanks around its name. -/
theorem readAttributeTest_eq {name : String} (hname : IsName name) {before : List Char}
    (hbefore : Around name.toList before) (after : List Char) :
    readAttributeTest (before ++ '=' :: after) = match unquote? (trimList after) with
      | some value => .ok (.hasValue name (String.ofList value))
      | none => .error .unquotedValue := by
  have hne : ∀ c ∈ before, (c != '=') = true := by
    obtain ⟨lead, trail, hblank, rfl⟩ := hbefore
    intro c hc
    rw [bne_iff_ne]
    rintro rfl
    simp only [List.mem_append] at hc hblank
    rcases hc with hc | hc | hc
    · exact absurd (hblank _ (Or.inl hc)) (by decide)
    · exact ne_of_isNameChar (hname.2 _ hc) rfl rfl
    · exact absurd (hblank _ (Or.inr hc)) (by decide)
  have hspan : (before ++ '=' :: after).span (· != '=') = (before, '=' :: after) := by
    rw [List.span_eq_takeWhile_dropWhile, List.takeWhile_append_of_pos hne,
      List.dropWhile_append_of_pos hne]
    simp
  have htrim : trimList before = name.toList :=
    hbefore.trimList_eq (fun c hc => isBlank_of_isNameChar (hname.2 c (List.mem_of_mem_head? hc)))
      fun c hc => isBlank_of_isNameChar (hname.2 c (List.mem_of_mem_getLast? hc))
  have hempty : name.toList.isEmpty = false := List.isEmpty_eq_false_iff.mpr hname.1
  have hall : name.toList.all isNameChar = true := List.all_eq_true.mpr hname.2
  rw [readAttributeTest, hspan]
  dsimp only
  rw [htrim, hempty, hall, if_neg (by decide)]
  cases unquote? (trimList after) with
  | none => rfl
  | some value =>
    dsimp only
    rw [String.ofList_toList]

section AttributeTest

variable {name : String} (hname : IsName name) {mark : Char} (hmark : mark = '\'' ∨ mark = '"')
include hname hmark

theorem quoteAfter_opening :
    quoteAfter none ('@' :: (name.toList ++ ['=', mark])) = some (some mark) := by
  have hat : quoteAfter none ('@' :: (name.toList ++ ['=', mark])) =
      quoteAfter none (name.toList ++ ['=', mark]) := rfl
  rw [hat, quoteAfter_append, quoteAfter_of_isNameChar hname.2]
  rcases hmark with rfl | rfl <;> rfl

end AttributeTest

/-- The numeral, perhaps with a plus sign. -/
def IsNumeral (n : Nat) (cs : List Char) : Prop :=
  Decimal.ofDigits? cs = some n ∨ ∃ ds, cs = '+' :: ds ∧ Decimal.ofDigits? ds = some n

theorem isDigit_of_ofDigits? {n : Nat} {cs : List Char} (h : Decimal.ofDigits? cs = some n) :
    cs ≠ [] ∧ ∀ c ∈ cs, c.isDigit = true := by
  unfold Decimal.ofDigits? at h
  split at h
  · rename_i hcs
    rw [Bool.and_eq_true, Bool.not_eq_true', List.isEmpty_eq_false_iff, List.all_eq_true] at hcs
    exact hcs
  · cases h

/-- The characters of a numeral are neither blanks nor marks. -/
theorem mem_isNumeral {n : Nat} {cs : List Char} (h : IsNumeral n cs) :
    ∀ c ∈ cs, isBlank c = false ∧ c ≠ '@' ∧ c ≠ '\'' ∧ c ≠ '"' ∧ c ≠ ']' := by
  have hdigits {ds : List Char} (h : Decimal.ofDigits? ds = some n) :
      ∀ c ∈ ds, isBlank c = false ∧ c ≠ '@' ∧ c ≠ '\'' ∧ c ≠ '"' ∧ c ≠ ']' := by
    intro c hc
    have hname := isNameChar_of_isDigit ((isDigit_of_ofDigits? h).2 c hc)
    exact ⟨isBlank_of_isNameChar hname, ne_of_isNameChar hname rfl, ne_of_isNameChar hname rfl,
      ne_of_isNameChar hname rfl, ne_of_isNameChar hname rfl⟩
  rcases h with h | ⟨ds, rfl, h⟩
  · exact hdigits h
  · exact List.forall_mem_cons.mpr ⟨by decide, hdigits h⟩

/-- A numeral within sixty-four bits is read as a position. -/
theorem readBody_numeral {n : Nat} (hpos : 0 < n) (hn : n < 2 ^ 64) {numeral body : List Char}
    (hnumeral : IsNumeral n numeral) (hbody : Around numeral body) :
    readBody body = .ok (.position n) := by
  have hmem := mem_isNumeral hnumeral
  have htrim : trimList body = numeral :=
    hbody.trimList_eq (fun c hc => (hmem c (List.mem_of_mem_head? hc)).1)
      fun c hc => (hmem c (List.mem_of_mem_getLast? hc)).1
  have hword : Decimal.word? 64 numeral = some n :=
    Decimal.word?_eq_some_iff.mpr ⟨by rwa [Nat.one_shiftLeft], hnumeral⟩
  rw [readBody, htrim]
  split
  · exact absurd rfl (hmem '@' List.mem_cons_self).2.1
  · rw [hword]
    split
    · rename_i hzero
      obtain rfl := Option.some.inj hzero
      cases hpos
    · rename_i hsome
      obtain rfl := Option.some.inj hsome
      rfl
    · rename_i hnone
      cases hnone

theorem length_unquote? {cs value : List Char} (h : unquote? cs = some value) :
    value.length + 2 = cs.length := by
  obtain ⟨mark, -, rfl⟩ := unquote?_eq_some_iff.mp h
  simp

/-- The value of an attribute test has two characters fewer than what stands behind the equals sign
without blanks around it. -/
theorem length_of_readBody {body after : List Char} {name name' value : String} (hname : IsName name)
    (hbody : trimList body = '@' :: (name.toList ++ '=' :: after))
    (h : readBody body = .ok (.hasValue name' value)) :
    value.toList.length + 2 = (trimList after).length := by
  rw [readBody, hbody] at h
  change readAttributeTest (name.toList ++ '=' :: after) = _ at h
  rw [readAttributeTest, span_name hname] at h
  dsimp only at h
  split at h
  · cases h
  · split at h
    · rename_i hunquote
      obtain ⟨-, rfl⟩ := Predicate.hasValue.inj (Except.ok.inj h)
      rw [String.toList_ofList]
      exact length_unquote? hunquote
    · cases h

end Path

/-! ## What is read is well formed -/

/-- A name test holds a name. -/
def NameTest.WellFormed : NameTest → Prop
  | .any => True
  | .named name => Path.IsName name

/-- Positions count from one and fit in sixty-four bits; attributes have names. -/
def Predicate.WellFormed : Predicate → Prop
  | .position n => 0 < n ∧ n < 2 ^ 64
  | .hasValue name _ => Path.IsName name

structure Step.WellFormed (s : Step) : Prop where
  test : s.test.WellFormed
  predicates : ∀ p ∈ s.predicates, p.WellFormed

/-- A path has a step; the attribute at its end may be a star. -/
structure Path.WellFormed (p : Path) : Prop where
  steps_ne_nil : p.steps ≠ []
  steps : ∀ s ∈ p.steps, s.WellFormed
  attributeName : ∀ name, p.attribute? = some name → name = "*" ∨ Path.IsName name

namespace Path

open Text

/-! ### What is written is read -/

/-- A predicate whose bracket is found and whose body is read. -/
theorem readPredicates_cons {body rest : List Char} {p : Predicate}
    (hclose : closeBracket none (body ++ ']' :: rest) [] = some (body, rest))
    (hread : readBody body = .ok p) (fuel : Nat) (acc : List Predicate) :
    readPredicates (fuel + 1) ('[' :: (body ++ ']' :: rest)) acc =
      readPredicates fuel rest (p :: acc) := by
  rw [readPredicates, hclose]
  dsimp only
  rw [hread]

theorem readPredicates_of_head {rest : List Char} (h : ∀ c ∈ rest.head?, c ≠ '[') (fuel : Nat)
    (acc : List Predicate) : readPredicates fuel rest acc = .ok (acc.reverse, rest) := by
  cases rest with
  | nil => cases fuel <;> rfl
  | cons c rest =>
    have hc := h c rfl
    cases fuel with
    | zero => rfl
    | succ fuel => simp [readPredicates, hc]

theorem readAxis_renderAxis (axis : Axis) {rest : List Char} (h : ∀ c ∈ rest.head?, c ≠ '/') :
    readAxis (renderAxis axis ++ rest) = .ok (axis, rest) := by
  cases axis with
  | descendant => rfl
  | child =>
    cases rest with
    | nil => rfl
    | cons c rest =>
      have hc := h c rfl
      simp [readAxis, renderAxis, hc]

/-- A test starts with a star or a name character. -/
theorem renderTest_cons {t : NameTest} (ht : t.WellFormed) :
    ∃ c cs, renderTest t = c :: cs ∧ (c = '*' ∨ isNameChar c = true) := by
  cases t with
  | any => exact ⟨'*', [], rfl, Or.inl rfl⟩
  | named name =>
    obtain ⟨hne, hname⟩ := ht
    obtain ⟨c, cs, hcs⟩ := List.exists_cons_of_ne_nil hne
    exact ⟨c, cs, hcs, Or.inr (hname c (by rw [hcs]; exact List.mem_cons_self))⟩

theorem readName_renderTest {t : NameTest} (ht : t.WellFormed) {rest : List Char}
    (hr : ∀ c ∈ rest.head?, isNameChar c = false ∧ c ≠ ':') :
    readName (renderTest t ++ rest) = .ok (renderTest t, rest) := by
  cases t with
  | any => rfl
  | named name => exact readName_append ht hr

theorem nameTest_renderTest {t : NameTest} (ht : t.WellFormed) : nameTest (renderTest t) = t := by
  cases t with
  | any => rfl
  | named name =>
    have hstar : name.toList ≠ ['*'] := by
      intro h
      have := ht.2 '*' (by rw [h]; exact List.mem_cons_self)
      cases this
    rw [renderTest, nameTest, if_neg hstar, String.ofList_toList]

/-- **A step is read** up to its predicates. -/
theorem readSteps_step {t : NameTest} (ht : t.WellFormed) {rest : List Char}
    (hr : ∀ c ∈ rest.head?, isNameChar c = false ∧ c ≠ ':') (axis : Axis) (fuel : Nat)
    (acc : List Step) :
    readSteps (fuel + 1) (renderAxis axis ++ (renderTest t ++ rest)) acc =
      readPredicates rest.length rest [] >>= fun r => readSteps fuel r.2 (⟨axis, t, r.1⟩ :: acc) := by
  obtain ⟨c, cs, htest, hc⟩ := renderTest_cons ht
  have hmark {mark : Char} (hstar : '*' ≠ mark) (hm : isNameChar mark = false) : c ≠ mark := by
    rcases hc with rfl | hc
    · exact hstar
    · exact ne_of_isNameChar hc hm
  have hslash : c ≠ '/' := hmark (by decide) rfl
  have hat : c ≠ '@' := hmark (by decide) rfl
  have haxis : readAxis (renderAxis axis ++ (renderTest t ++ rest)) =
      .ok (axis, renderTest t ++ rest) := by
    refine readAxis_renderAxis axis ?_
    rw [htest]
    rintro c ⟨⟩
    exact hslash
  rw [readSteps, haxis]
  · have hname := readName_renderTest ht hr
    have htest' := nameTest_renderTest ht
    rw [htest] at hname htest' ⊢
    split
    · rename_i h
      cases h
    · rename_i h
      exact absurd (List.cons.inj (Prod.mk.inj (Except.ok.inj h)).2).1 hat
    · rename_i h
      obtain ⟨rfl, rfl⟩ := Prod.mk.inj (Except.ok.inj h)
      rw [hname]
      dsimp only
      rw [htest']
      cases readPredicates rest.length rest [] <;> rfl
  · intro h
    cases axis <;> cases h

/-- The attribute at the end of a path is read behind a step. -/
theorem readSteps_renderAttribute {a : Option String} {acc : List Step} (hacc : acc ≠ [])
    (ha : ∀ name, a = some name → name = "*" ∨ IsName name) {fuel : Nat}
    (hfuel : (renderAttribute a).length ≤ fuel) :
    readSteps fuel (renderAttribute a) acc = .ok ⟨acc.reverse, a⟩ := by
  cases a with
  | none => cases fuel <;> rfl
  | some name =>
    cases fuel with
    | zero => cases hfuel
    | succ fuel =>
      have hname : readName name.toList = .ok (name.toList, []) := by
        rcases ha name rfl with rfl | h
        · rfl
        · have happend : readName (name.toList ++ []) = .ok (name.toList, []) :=
            readName_append h (by rintro c ⟨⟩)
          rwa [List.append_nil] at happend
      change (if Axis.child = .descendant ∨ acc = [] then .error Reason.attributeWithoutElement
        else readAttribute acc name.toList) = _
      rw [if_neg (by simp [hacc]), readAttribute, hname]
      dsimp only
      rw [String.ofList_toList]

theorem parse_eq_ok_iff {source : String} {p : Path} :
    parse source = .ok p ↔ readList (trimList source.toList) = .ok p := by
  unfold parse
  cases readList (trimList source.toList) <;> simp

/-! ### What is read -/

theorem wellFormed_of_readBody {body : List Char} {p : Predicate} (h : readBody body = .ok p) :
    p.WellFormed := by
  unfold readBody at h
  split at h
  · unfold readAttributeTest at h
    split at h
    · cases h
    rename_i before _ _ _
    dsimp only at h
    by_cases hname : ((trimList before).isEmpty || !(trimList before).all isNameChar) = true
    · rw [if_pos hname] at h
      cases h
    · rw [if_neg hname] at h
      rw [Bool.or_eq_true, not_or, Bool.not_eq_true, Bool.not_eq_true', Bool.not_eq_false,
        List.isEmpty_eq_false_iff, List.all_eq_true] at hname
      split at h
      · obtain rfl := Except.ok.inj h
        rw [Predicate.WellFormed, IsName, String.toList_ofList]
        exact hname
      · cases h
  · split at h
    · cases h
    · rename_i n hzero hword
      obtain rfl := Except.ok.inj h
      have hlt := (Decimal.word?_eq_some_iff.mp hword).1
      rw [Nat.one_shiftLeft] at hlt
      exact ⟨Nat.pos_of_ne_zero fun h0 => hzero (by rw [h0]), hlt⟩
    · cases h

theorem wellFormed_of_readPredicates {fuel : Nat} {cs rest : List Char} {acc ps : List Predicate}
    (hacc : ∀ p ∈ acc, p.WellFormed) (h : readPredicates fuel cs acc = .ok (ps, rest)) :
    ∀ p ∈ ps, p.WellFormed := by
  fun_induction readPredicates fuel cs acc with
  | case1 => cases h
  | case2 fuel cs acc body rest' _ p hp ih =>
    exact ih (List.forall_mem_cons.mpr ⟨wellFormed_of_readBody hp, hacc⟩) h
  | case3 => cases h
  | case4 fuel cs acc =>
    obtain ⟨rfl, -⟩ := Prod.mk.inj (Except.ok.inj h)
    exact fun p hp => hacc p (List.mem_reverse.mp hp)

theorem wellFormed_nameTest {cs name rest : List Char} (h : readName cs = .ok (name, rest)) :
    (nameTest name).WellFormed := by
  unfold nameTest
  split
  · trivial
  · rename_i hstar
    exact (isName_of_readName h).resolve_left hstar

theorem wellFormed_of_readSteps {fuel : Nat} {cs : List Char} {steps : List Step} {p : Path}
    (hne : steps ≠ [] ∨ cs ≠ []) (hsteps : ∀ s ∈ steps, s.WellFormed)
    (h : readSteps fuel cs steps = .ok p) : p.WellFormed := by
  fun_induction readSteps fuel cs steps with
  | case1 fuel steps =>
    obtain rfl := Except.ok.inj h
    refine ⟨?_, fun s hs => hsteps s (List.mem_reverse.mp hs), fun name hname => by cases hname⟩
    exact fun hnil => hne.elim (fun hs => hs (List.reverse_eq_nil_iff.mp hnil)) fun hcs => hcs rfl
  | case5 fuel cs steps hcs axis rest _ hstart =>
    unfold readAttribute at h
    split at h
    · cases h
    · rename_i name hname
      obtain rfl := Except.ok.inj h
      refine ⟨?_, fun s hs => hsteps s (List.mem_reverse.mp hs), ?_⟩
      · exact fun hnil => hstart (Or.inr (List.reverse_eq_nil_iff.mp hnil))
      · rintro _ ⟨⟩
        refine (isName_of_readName hname).imp_left ?_
        rintro rfl
        rfl
    · cases h
  | case8 fuel cs steps hcs axis rest _ _ name afterName hname predicates rest' hpredicates ih =>
    refine ih (Or.inl (List.cons_ne_nil _ _)) (List.forall_mem_cons.mpr ⟨⟨?_, ?_⟩, hsteps⟩) h
    · exact wellFormed_nameTest hname
    · exact wellFormed_of_readPredicates (fun p hp => absurd hp List.not_mem_nil) hpredicates
  | case2 | case3 | case4 | case6 | case7 => cases h

/-- **What is read is well formed.** -/
theorem wellFormed_of_parse {source : String} {p : Path} (h : parse source = .ok p) :
    p.WellFormed := by
  rw [parse_eq_ok_iff] at h
  unfold readList at h
  split at h
  · cases h
  rename_i c cs hcs
  split at h
  · exact wellFormed_of_readSteps (Or.inr (by rw [hcs]; exact List.cons_ne_nil c cs))
      (fun s hs => absurd hs List.not_mem_nil) h
  · cases h

end Path

end TradeIntake
