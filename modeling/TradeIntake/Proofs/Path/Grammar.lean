import TradeIntake.Proofs.Path.Reading

/-!
# The language of paths

A path is one or more steps and perhaps the attribute that is meant. A step is one mark or two, a
star or a name, and predicates in brackets: a position, or the value that an attribute is to have,
with blanks around the parts. `Grammar` says so, and leaves open which values may stand between
quotation marks and what may stand for the attribute at the end. The reader reads one such language
(`Grammar.accepted`): a value may go on behind its own mark, if a quotation is taken up again with
it, and a star may stand for the attribute.

* **`Grammar.Steps.readSteps_eq`**: steps that are spelled by a grammar that asks for no less than
  the reader are read.
* **`Grammar.steps_of_readSteps`**: steps that are read are spelled.
* **`parse_eq_ok_iff_spells`**: the reader reads the accepted language, and nothing else.
-/

namespace TradeIntake

namespace Path

open Text

/-! ## The grammar -/

/-- What a grammar of paths is free to choose. -/
structure Grammar where
  /-- The value may stand between marks of that kind. -/
  value : Char → String → Prop
  /-- The text may stand for the attribute at the end. -/
  attributeName : String → Prop

namespace Grammar

variable (g : Grammar)

/-- What may stand between the brackets of a predicate. -/
inductive Body : Predicate → List Char → Prop
  | position {n : Nat} {numeral cs : List Char} (hpos : 0 < n) (hn : n < 2 ^ 64)
      (hnumeral : IsNumeral n numeral) (hcs : Around numeral cs) : Body (.position n) cs
  | hasValue {name value : String} {mark : Char} {blanks before after : List Char}
      (hblanks : ∀ c ∈ blanks, isBlank c = true) (hname : IsName name)
      (hbefore : Around name.toList before) (hmark : mark = '\'' ∨ mark = '"')
      (hvalue : g.value mark value) (hafter : Around (mark :: (value.toList ++ [mark])) after) :
      Body (.hasValue name value) (blanks ++ '@' :: (before ++ '=' :: after))

/-- Predicates, one after another. -/
inductive Predicates : List Predicate → List Char → Prop
  | nil : Predicates [] []
  | cons {p : Predicate} {ps : List Predicate} {body cs : List Char} (hbody : g.Body p body)
      (hps : Predicates ps cs) : Predicates (p :: ps) ('[' :: (body ++ ']' :: cs))

/-- Steps, one after another. -/
inductive Steps : List Step → List Char → Prop
  | nil : Steps [] []
  | cons {axis : Axis} {test : NameTest} {ps : List Predicate} {ss : List Step}
      {predicates cs : List Char} (htest : test.WellFormed) (hps : g.Predicates ps predicates)
      (hss : Steps ss cs) :
      Steps (⟨axis, test, ps⟩ :: ss) (renderAxis axis ++ (renderTest test ++ (predicates ++ cs)))

/-- The text spells the path: its steps, of which there is one at least, and then its attribute. -/
structure Spells (p : Path) (cs : List Char) : Prop where
  steps_ne_nil : p.steps ≠ []
  attributeName : ∀ name, p.attribute? = some name → g.attributeName name
  steps : ∃ steps, g.Steps p.steps steps ∧ cs = steps ++ renderAttribute p.attribute?

/-- The language that the reader reads. Between marks of a kind it takes what leaves the quotation
as it is, whatever comes in between, and for the attribute it takes a star. -/
def accepted : Grammar where
  value mark value := quoteAfter (some mark) value.toList = some (some mark)
  attributeName name := name = "*" ∨ IsName name

/-- The grammar asks for no less than the reader. -/
structure Readable : Prop where
  value : ∀ mark value, g.value mark value → accepted.value mark value
  attributeName : ∀ name, g.attributeName name → accepted.attributeName name

theorem readable_accepted : accepted.Readable :=
  ⟨fun _ _ h => h, fun _ h => h⟩

end Grammar

/-! ## Texts without marks and brackets -/

/-- The text neither opens a quotation nor closes a predicate. -/
def Plain (cs : List Char) : Prop :=
  ∀ c ∈ cs, c ≠ '\'' ∧ c ≠ '"' ∧ c ≠ ']'

instance (cs : List Char) : Decidable (Plain cs) :=
  List.decidableBAll (fun c => c ≠ '\'' ∧ c ≠ '"' ∧ c ≠ ']') cs

theorem Plain.append {cs ds : List Char} (hcs : Plain cs) (hds : Plain ds) : Plain (cs ++ ds) :=
  fun c hc => (List.mem_append.mp hc).elim (hcs c) (hds c)

theorem Plain.cons {c : Char} {cs : List Char} (hc : c ≠ '\'' ∧ c ≠ '"' ∧ c ≠ ']')
    (hcs : Plain cs) : Plain (c :: cs) :=
  List.forall_mem_cons.mpr ⟨hc, hcs⟩

theorem plain_of_isNameChar {cs : List Char} (h : ∀ c ∈ cs, isNameChar c = true) : Plain cs :=
  fun c hc => ⟨ne_of_isNameChar (h c hc) rfl, ne_of_isNameChar (h c hc) rfl,
    ne_of_isNameChar (h c hc) rfl⟩

theorem plain_of_isBlank {cs : List Char} (h : ∀ c ∈ cs, isBlank c = true) : Plain cs := by
  intro c hc
  have hblank := h c hc
  refine ⟨?_, ?_, ?_⟩ <;>
  · rintro rfl
    cases hblank

theorem plain_of_around {core cs : List Char} (h : Around core cs) (hcore : Plain core) :
    Plain cs := by
  obtain ⟨before, after, hblank, rfl⟩ := h
  have hplain := plain_of_isBlank hblank
  exact Plain.append (fun c hc => hplain c (List.mem_append_left _ hc))
    (hcore.append fun c hc => hplain c (List.mem_append_right _ hc))

theorem Plain.quoteAfter_eq {cs : List Char} (h : Plain cs) : quoteAfter none cs = some none := by
  induction cs with
  | nil => rfl
  | cons c cs ih =>
    obtain ⟨hc, hcs⟩ := List.forall_mem_cons.mp h
    rw [quoteAfter, if_neg (by simp [hc.2.2]), turn, if_neg (by simp [hc.1, hc.2.1])]
    exact ih hcs

theorem Plain.notMem {cs : List Char} (h : Plain cs) {mark : Char}
    (hmark : mark = '\'' ∨ mark = '"') : mark ∉ cs := by
  intro hmem
  rcases hmark with rfl | rfl
  · exact (h _ hmem).1 rfl
  · exact (h _ hmem).2.1 rfl

/-- A value between its marks leaves no quotation open exactly when it leaves the one that it stands
in as it is. -/
theorem quoteAfter_value_iff {mark : Char} (hmark : mark = '\'' ∨ mark = '"')
    {before value after : List Char} (hbefore : Plain before) (hafter : Plain after) :
    quoteAfter none (before ++ mark :: (value ++ mark :: after)) = some none ↔
      quoteAfter (some mark) value = some (some mark) := by
  have hopen (cs : List Char) : quoteAfter none (mark :: cs) = quoteAfter (some mark) cs := by
    rcases hmark with rfl | rfl <;> rfl
  have hstays {m : Char} (hm : m = '\'' ∨ m = '"') :
      quoteAfter (some m) after = some (some m) := quoteAfter_of_notMem (hafter.notMem hm)
  rw [quoteAfter_append, hbefore.quoteAfter_eq, Option.bind_some, hopen, quoteAfter_append]
  cases h : quoteAfter (some mark) value with
  | none => simp
  | some quote =>
    rw [Option.bind_some]
    cases quote with
    | none => simp [hopen, hstays hmark]
    | some m =>
      have hm : m = '\'' ∨ m = '"' := by
        refine isMark_of_quoteAfter ?_ h m rfl
        rintro _ ⟨⟩
        exact hmark
      rw [quoteAfter, if_neg (by simp), turn]
      by_cases heq : mark = m
      · simp [heq, hafter.quoteAfter_eq]
      · simp [heq, hstays hm, Ne.symm heq]

/-! ## One predicate -/

namespace Grammar

variable {g : Grammar}

/-- Around the value and its marks, an attribute test opens no quotation. -/
theorem exists_plain {name : String} {mark : Char} {blanks before value after : List Char}
    (hblanks : ∀ c ∈ blanks, isBlank c = true) (hname : IsName name)
    (hbefore : Around name.toList before) (hafter : Around (mark :: (value ++ [mark])) after) :
    ∃ front back, Plain front ∧ Plain back ∧
      blanks ++ '@' :: (before ++ '=' :: after) = front ++ mark :: (value ++ mark :: back) := by
  obtain ⟨lead, trail, hblank, rfl⟩ := hafter
  have hplain := plain_of_isBlank hblank
  refine ⟨blanks ++ '@' :: (before ++ '=' :: lead), trail, ?_,
    fun c hc => hplain c (List.mem_append_right _ hc), by simp⟩
  refine (plain_of_isBlank hblanks).append (.cons (by decide) (Plain.append ?_ (.cons (by decide) ?_)))
  · exact plain_of_around hbefore (plain_of_isNameChar hname.2)
  · exact fun c hc => hplain c (List.mem_append_left _ hc)

/-- The body of an attribute test, with the value between its marks. -/
theorem Body.hasValue_eq {name value : String} {body : List Char}
    (h : g.Body (.hasValue name value) body) :
    ∃ mark front back, (mark = '\'' ∨ mark = '"') ∧ g.value mark value ∧ Plain front ∧
      Plain back ∧ body = front ++ mark :: (value.toList ++ mark :: back) := by
  obtain _ | ⟨hblanks, hname, hbefore, hmark, hvalue, hafter⟩ := h
  obtain ⟨front, back, hfront, hback, heq⟩ := exists_plain hblanks hname hbefore hafter
  exact ⟨_, front, back, hmark, hvalue, hfront, hback, heq⟩

/-- A body that is spelled has no bracket outside quotations. -/
theorem Body.quoteAfter_eq (hg : g.Readable) {p : Predicate} {body : List Char} (h : g.Body p body) :
    quoteAfter none body = some none := by
  cases p with
  | position n =>
    obtain ⟨-, -, hnumeral, hcs⟩ := h
    exact (plain_of_around hcs fun c hc => (mem_isNumeral hnumeral c hc).2.2).quoteAfter_eq
  | hasValue name value =>
    obtain ⟨mark, before, after, hmark, hvalue, hbefore, hafter, rfl⟩ := h.hasValue_eq
    exact (quoteAfter_value_iff hmark hbefore hafter).mpr (hg.value mark value hvalue)

theorem Body.closeBracket_eq (hg : g.Readable) {p : Predicate} {body : List Char} (h : g.Body p body)
    (rest : List Char) : closeBracket none (body ++ ']' :: rest) [] = some (body, rest) := by
  rw [closeBracket_of_quoteAfter (h.quoteAfter_eq hg), closeBracket_cons, if_pos ⟨rfl, rfl⟩,
    List.append_nil, List.reverse_reverse]

/-- **A body that is spelled is read.** -/
theorem Body.readBody_eq {p : Predicate} {body : List Char} (h : g.Body p body) :
    readBody body = .ok p := by
  cases h with
  | position hpos hn hnumeral hcs => exact readBody_numeral hpos hn hnumeral hcs
  | @hasValue name value mark blanks before after hblanks hname hbefore hmark hvalue hafter =>
    have hmarkBlank : isBlank mark = false := by
      rcases hmark with rfl | rfl <;> rfl
    obtain ⟨lead, trail, hblank, rfl⟩ := hafter
    have hlead : ∀ c ∈ lead, isBlank c = true := fun c hc => hblank c (List.mem_append_left _ hc)
    have hlast (cs : List Char) : ∀ c ∈ (cs ++ [mark]).getLast?, isBlank c = false := by
      rw [List.getLast?_concat]
      rintro c ⟨⟩
      exact hmarkBlank
    have hbody : trimList (blanks ++ '@' :: (before ++ '=' :: (lead ++
        (mark :: (value.toList ++ [mark]) ++ trail)))) =
        '@' :: (before ++ '=' :: (lead ++ mark :: (value.toList ++ [mark]))) := by
      refine Around.trimList_eq ⟨blanks, trail, ?_, by simp⟩ ?_ ?_
      · exact fun c hc => (List.mem_append.mp hc).elim (hblanks c)
          fun hc => hblank c (List.mem_append_right _ hc)
      · rintro c ⟨⟩
        rfl
      · have := hlast ('@' :: (before ++ '=' :: (lead ++ mark :: value.toList)))
        simpa using this
    have hquoted : trimList (lead ++ mark :: (value.toList ++ [mark])) =
        mark :: (value.toList ++ [mark]) := by
      refine Around.trimList_eq ⟨lead, [], by simpa using hlead, by simp⟩ ?_ (hlast (mark :: _))
      rintro c ⟨⟩
      exact hmarkBlank
    rw [readBody, hbody]
    change readAttributeTest (before ++ '=' :: (lead ++ mark :: (value.toList ++ [mark]))) = _
    rw [readAttributeTest_eq hname hbefore, hquoted,
      unquote?_eq_some_iff.mpr ⟨mark, hmark, rfl⟩]
    dsimp only
    rw [String.ofList_toList]

/-! ## What is spelled is read -/

/-- Predicates start with a bracket, if there are any. -/
theorem Predicates.head_eq_or {ps : List Predicate} {cs : List Char} (h : g.Predicates ps cs)
    {rest : List Char} : ∀ c ∈ (cs ++ rest).head?, c = '[' ∨ c ∈ rest.head? := by
  cases h with
  | nil => exact fun c hc => Or.inr hc
  | cons hbody hps =>
    rintro c ⟨⟩
    exact Or.inl rfl

theorem Predicates.length_le {ps : List Predicate} {cs : List Char} (h : g.Predicates ps cs) :
    ps.length ≤ cs.length := by
  induction h with
  | nil => exact Nat.le_refl _
  | cons hbody hps ih =>
    simp only [List.length_cons, List.length_append]
    omega

theorem Predicates.readPredicates_eq (hg : g.Readable) {ps : List Predicate} {cs rest : List Char}
    (h : g.Predicates ps cs) (hrest : ∀ c ∈ rest.head?, c ≠ '[') {fuel : Nat}
    (hfuel : ps.length ≤ fuel) (acc : List Predicate) :
    readPredicates fuel (cs ++ rest) acc = .ok (acc.reverse ++ ps, rest) := by
  induction h generalizing fuel acc with
  | nil =>
    rw [List.nil_append, List.append_nil]
    exact readPredicates_of_head hrest fuel acc
  | @cons p ps body cs hbody hps ih =>
    cases fuel with
    | zero => cases hfuel
    | succ fuel =>
      have hclose := hbody.closeBracket_eq hg (cs ++ rest)
      rw [List.cons_append, List.append_assoc, List.cons_append,
        readPredicates_cons hclose hbody.readBody_eq, ih (Nat.le_of_succ_le_succ hfuel)]
      simp

/-- What comes after a step starts with a slash, if there is anything. -/
theorem Steps.head_eq {ss : List Step} {cs : List Char} (h : g.Steps ss cs) (a : Option String) :
    ∀ c ∈ (cs ++ renderAttribute a).head?, c = '/' := by
  cases h with
  | nil =>
    cases a with
    | none => rintro c ⟨⟩
    | some name =>
      rintro c ⟨⟩
      rfl
  | @cons axis =>
    cases axis <;>
    · rintro c ⟨⟩
      rfl

/-- **Steps that are spelled are read**, and so is the attribute behind them. -/
theorem Steps.readSteps_eq (hg : g.Readable) {ss : List Step} {cs : List Char} (h : g.Steps ss cs)
    {a : Option String} (ha : ∀ name, a = some name → name = "*" ∨ IsName name) {fuel : Nat}
    {acc : List Step} (hne : acc ≠ [] ∨ ss ≠ []) (hfuel : (cs ++ renderAttribute a).length ≤ fuel) :
    readSteps fuel (cs ++ renderAttribute a) acc = .ok ⟨acc.reverse ++ ss, a⟩ := by
  induction h generalizing fuel acc with
  | nil =>
    rw [List.append_nil]
    exact readSteps_renderAttribute (hne.resolve_right fun h => h rfl) ha hfuel
  | @cons axis test ps ss predicates cs htest hps hss ih =>
    have hhead := hss.head_eq a
    cases fuel with
    | zero => cases axis <;> cases hfuel
    | succ fuel =>
      have hmark : ∀ c ∈ (predicates ++ (cs ++ renderAttribute a)).head?,
          isNameChar c = false ∧ c ≠ ':' := by
        intro c hc
        rcases hps.head_eq_or c hc with rfl | hc
        · decide
        · rw [hhead c hc]
          decide
      have hslash : ∀ c ∈ (cs ++ renderAttribute a).head?, c ≠ '[' := by
        intro c hc
        rw [hhead c hc]
        decide
      have hlength : ps.length ≤ (predicates ++ (cs ++ renderAttribute a)).length := by
        rw [List.length_append]
        exact Nat.le_trans hps.length_le (Nat.le_add_right _ _)
      have haxis : 0 < (renderAxis axis).length := by
        cases axis <;> decide
      have hrest : (cs ++ renderAttribute a).length ≤ fuel := by
        simp only [List.length_append] at hfuel ⊢
        omega
      simp only [List.append_assoc]
      rw [readSteps_step htest hmark, hps.readPredicates_eq hg hslash hlength]
      change readSteps fuel (cs ++ renderAttribute a) (⟨axis, test, [].reverse ++ ps⟩ :: acc) = _
      rw [ih (Or.inl (List.cons_ne_nil _ _)) hrest]
      simp

theorem Spells.readList_eq (hg : g.Readable) {p : Path} {cs : List Char} (h : g.Spells p cs) :
    readList cs = .ok p := by
  obtain ⟨steps, hsteps, rfl⟩ := h.steps
  have hname : ∀ name, p.attribute? = some name → accepted.attributeName name :=
    fun name hname => hg.attributeName name (h.attributeName name hname)
  have hread : readSteps _ (steps ++ renderAttribute p.attribute?) [] = .ok p :=
    hsteps.readSteps_eq hg hname (Or.inr h.steps_ne_nil) (Nat.le_refl _)
  cases hcs : steps ++ renderAttribute p.attribute? with
  | nil =>
    rw [hcs] at hread
    exact absurd (congrArg Path.steps (Except.ok.inj hread)).symm h.steps_ne_nil
  | cons c cs =>
    have hslash := hsteps.head_eq p.attribute? c (by rw [hcs]; rfl)
    rw [hcs] at hread
    rw [readList, if_pos hslash, hread]

/-! ## What is read is spelled -/

/-- An attribute test that is read, and ends outside quotations, is spelled. -/
theorem body_of_readAttributeTest {p : Predicate} {lead cs trail : List Char}
    (hblank : ∀ c ∈ lead ++ trail, isBlank c = true)
    (hclosed : quoteAfter none (lead ++ '@' :: (cs ++ trail)) = some none)
    (h : readAttributeTest cs = .ok p) : accepted.Body p (lead ++ '@' :: (cs ++ trail)) := by
  unfold readAttributeTest at h
  split at h
  · cases h
  rename_i before c after hspan
  dsimp only at h
  split at h
  · cases h
  rename_i hname
  rw [Bool.or_eq_true, not_or, Bool.not_eq_true, Bool.not_eq_true', Bool.not_eq_false,
    List.isEmpty_eq_false_iff, List.all_eq_true] at hname
  split at h
  · rename_i value hvalue
    obtain rfl := Except.ok.inj h
    obtain ⟨mark, hmark, hquoted⟩ := unquote?_eq_some_iff.mp hvalue
    rw [List.span_eq_takeWhile_dropWhile] at hspan
    obtain ⟨hbefore, hafter⟩ := Prod.mk.inj hspan
    have hcs : cs = before ++ c :: after := by
      rw [← hbefore, ← hafter, List.takeWhile_append_dropWhile]
    obtain rfl : c = '=' := by
      have := List.head?_dropWhile_not (· != '=') cs
      rw [hafter] at this
      simpa using this
    have hlead : ∀ c ∈ lead, isBlank c = true := fun c hc => hblank c (List.mem_append_left _ hc)
    have htrail : ∀ c ∈ trail, isBlank c = true := fun c hc => hblank c (List.mem_append_right _ hc)
    have hisName : IsName (String.ofList (trimList before)) := by
      rw [IsName, String.toList_ofList]
      exact hname
    have hname' : Around (String.ofList (trimList before)).toList before := by
      rw [String.toList_ofList]
      exact around_trimList before
    have hafter' : Around (mark :: ((String.ofList value).toList ++ [mark])) (after ++ trail) := by
      rw [String.toList_ofList, ← hquoted]
      exact (around_trimList after).concat htrail
    have hbody : lead ++ '@' :: (cs ++ trail) = lead ++ '@' :: (before ++ '=' :: (after ++ trail)) := by
      rw [hcs, List.append_assoc, List.cons_append]
    rw [hbody] at hclosed ⊢
    obtain ⟨front, back, hfront, hback, heq⟩ := exists_plain hlead hisName hname' hafter'
    rw [heq] at hclosed
    exact .hasValue hlead hisName hname' hmark ((quoteAfter_value_iff hmark hfront hback).mp hclosed)
      hafter'
  · cases h

/-- A body that is read, and ends outside quotations, is spelled. -/
theorem body_of_readBody {p : Predicate} {body : List Char}
    (hclosed : quoteAfter none body = some none) (h : readBody body = .ok p) :
    accepted.Body p body := by
  obtain ⟨lead, trail, hblank, hbody⟩ := around_trimList body
  unfold readBody at h
  split at h
  · rename_i cs hcs
    rw [hcs, List.cons_append] at hbody
    rw [hbody] at hclosed ⊢
    exact body_of_readAttributeTest hblank hclosed h
  · split at h
    · cases h
    · rename_i n hzero hword
      obtain rfl := Except.ok.inj h
      obtain ⟨hlt, hnumeral⟩ := Decimal.word?_eq_some_iff.mp hword
      rw [Nat.one_shiftLeft] at hlt
      exact .position (Nat.pos_of_ne_zero fun h0 => hzero (by rw [h0])) hlt hnumeral
        ⟨lead, trail, hblank, hbody⟩
    · cases h

/-- What comes before the bracket ends outside quotations. -/
theorem quoteAfter_of_closeBracket {quote : Option Char} {cs acc body rest : List Char}
    (h : closeBracket quote cs acc = some (body, rest)) :
    ∃ passed, body = acc.reverse ++ passed ∧ cs = passed ++ ']' :: rest ∧
      quoteAfter quote passed = some none := by
  induction cs generalizing quote acc with
  | nil => cases h
  | cons c cs ih =>
    rw [closeBracket_cons] at h
    split at h
    · rename_i hc
      obtain ⟨rfl, rfl⟩ := Prod.mk.inj (Option.some.inj h)
      obtain ⟨rfl, rfl⟩ := hc
      exact ⟨[], by simp, rfl, rfl⟩
    · rename_i hc
      obtain ⟨passed, rfl, rfl, hquote⟩ := ih h
      refine ⟨c :: passed, by simp, rfl, ?_⟩
      rw [quoteAfter, if_neg hc]
      exact hquote

theorem predicates_of_readPredicates {fuel : Nat} {cs rest : List Char} {acc ps : List Predicate}
    (h : readPredicates fuel cs acc = .ok (ps, rest)) :
    ∃ qs text, ps = acc.reverse ++ qs ∧ cs = text ++ rest ∧ accepted.Predicates qs text := by
  fun_induction readPredicates fuel cs acc with
  | case1 => cases h
  | case2 fuel cs acc body rest' hclose p hp ih =>
    obtain ⟨qs, text, rfl, rfl, hqs⟩ := ih h
    obtain ⟨passed, rfl, rfl, hquote⟩ := quoteAfter_of_closeBracket hclose
    exact ⟨p :: qs, _, by simp, by simp, .cons (body_of_readBody hquote hp) hqs⟩
  | case3 => cases h
  | case4 fuel cs acc =>
    obtain ⟨rfl, rfl⟩ := Prod.mk.inj (Except.ok.inj h)
    exact ⟨[], [], by simp, rfl, .nil⟩

theorem eq_of_readAxis {cs rest : List Char} {axis : Axis} (h : readAxis cs = .ok (axis, rest)) :
    cs = renderAxis axis ++ rest := by
  unfold readAxis at h
  split at h
  · obtain ⟨rfl, rfl⟩ := Prod.mk.inj (Except.ok.inj h)
    rfl
  · obtain ⟨rfl, rfl⟩ := Prod.mk.inj (Except.ok.inj h)
    rfl
  · cases h

theorem eq_of_readName {cs name rest : List Char} (h : readName cs = .ok (name, rest)) :
    cs = name ++ rest := by
  unfold readName at h
  split at h
  · obtain ⟨rfl, rfl⟩ := Prod.mk.inj (Except.ok.inj h)
    rfl
  · split at h
    · cases h
    · cases h
    · rename_i hspan
      obtain ⟨rfl, rfl⟩ := Prod.mk.inj (Except.ok.inj h)
      rw [List.span_eq_takeWhile_dropWhile] at hspan
      obtain ⟨hname, hrest⟩ := Prod.mk.inj hspan
      rw [← hname, ← hrest, List.takeWhile_append_dropWhile]

theorem renderTest_nameTest (name : List Char) : renderTest (nameTest name) = name := by
  unfold nameTest
  split
  · rename_i h
    exact h.symm
  · exact String.toList_ofList

/-- **Steps that are read are spelled**, and so is the attribute behind them. -/
theorem steps_of_readSteps {fuel : Nat} {cs : List Char} {acc : List Step} {p : Path}
    (h : readSteps fuel cs acc = .ok p) :
    ∃ ss text, p.steps = acc.reverse ++ ss ∧ accepted.Steps ss text ∧
      cs = text ++ renderAttribute p.attribute? := by
  fun_induction readSteps fuel cs acc with
  | case1 fuel acc =>
    obtain rfl := Except.ok.inj h
    exact ⟨[], [], by simp, .nil, rfl⟩
  | case5 fuel cs acc hcs axis rest hrest hstart =>
    unfold readAttribute at h
    split at h
    · cases h
    · rename_i name hname
      obtain rfl := Except.ok.inj h
      have haxis := eq_of_readAxis hrest
      rw [eq_of_readName hname, List.append_nil] at haxis
      refine ⟨[], [], by simp, .nil, ?_⟩
      rw [not_or] at hstart
      cases axis with
      | child => rw [haxis, renderAttribute, String.toList_ofList]; rfl
      | descendant => exact absurd rfl hstart.1
    · cases h
  | case8 fuel cs acc hcs axis rest _ hrest name afterName hname predicates rest' hpredicates ih =>
    obtain ⟨ss, text, hsteps, hss, rfl⟩ := ih h
    obtain ⟨qs, predicatesText, rfl, rfl, hqs⟩ := predicates_of_readPredicates hpredicates
    have htest := wellFormed_nameTest hname
    refine ⟨⟨axis, nameTest name, predicates⟩ :: ss, _, ?_, .cons htest hqs hss, ?_⟩
    · rw [hsteps]
      simp
    · rw [eq_of_readAxis hrest, eq_of_readName hname, renderTest_nameTest]
      simp
  | case2 | case3 | case4 | case6 | case7 => cases h

end Grammar

theorem readList_eq_ok_iff {p : Path} {cs : List Char} :
    readList cs = .ok p ↔ Grammar.accepted.Spells p cs := by
  constructor
  · intro h
    unfold readList at h
    split at h
    · cases h
    rename_i c cs
    split at h
    · have hp := wellFormed_of_readSteps (Or.inr (List.cons_ne_nil c cs))
        (fun s hs => absurd hs List.not_mem_nil) h
      obtain ⟨ss, text, hsteps, hss, htext⟩ := Grammar.steps_of_readSteps h
      rw [List.reverse_nil, List.nil_append] at hsteps
      exact ⟨hp.steps_ne_nil, hp.attributeName, text, hsteps ▸ hss, htext⟩
    · cases h
  · exact fun h => h.readList_eq Grammar.readable_accepted

/-- **The reader reads the accepted language, and nothing else.** -/
theorem parse_eq_ok_iff_spells {source : String} {p : Path} :
    parse source = .ok p ↔ Grammar.accepted.Spells p (trimList source.toList) :=
  parse_eq_ok_iff.trans readList_eq_ok_iff

end Path
end TradeIntake
