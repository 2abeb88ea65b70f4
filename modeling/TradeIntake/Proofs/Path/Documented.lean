import TradeIntake.Proofs.Path.Grammar

/-!
# The documented language of paths

As documented, a value goes on to the first mark of its kind, and the attribute at the end of a path
has a name. The reader takes more: a star for the attribute, which no attribute is named, and values
with their own marks in them, when those come in pairs. A condition on two attributes is read as one
on the first of them, with the rest of the text in the value.

A value without its own mark makes for one quotation. So a path that was read is documented exactly
when its text opens as many quotations as it has attribute tests, and its attribute is no star.

* **`spells_documented_iff`**: the documented paths among those that are read.
* **`documented_iff_parse`**: what is read, what is refused, and what of it is documented.
* `not_documented_compound`: a star for the attribute, and a condition on two attributes.
-/

namespace TradeIntake

/-- The predicate tests an attribute. -/
def Predicate.isTest : Predicate → Bool
  | .position _ => false
  | .hasValue _ _ => true

/-- How many attribute tests there are in a path. -/
def Path.tests (p : Path) : Nat :=
  (p.steps.flatMap (·.predicates)).countP Predicate.isTest

namespace Path

open Text

/-- The documented language: a value does not contain its mark, and the attribute has a name. -/
def Grammar.documented : Grammar where
  value mark value := mark ∉ value.toList
  attributeName := IsName

theorem Grammar.readable_documented : Grammar.documented.Readable where
  value _ _ := quoteAfter_of_notMem
  attributeName _ := Or.inr

/-! ## Quotations that a text opens -/

/-- How many quotations a text opens, where `quote` was under way before it. -/
def openings (quote : Option Char) : List Char → Nat
  | [] => 0
  | c :: cs => (if quote = none ∧ turn quote c ≠ none then 1 else 0) + openings (turn quote c) cs

theorem openings_append (quote : Option Char) (cs ds : List Char) :
    openings quote (cs ++ ds) = openings quote cs + openings (cs.foldl turn quote) ds := by
  induction cs generalizing quote with
  | nil => exact (Nat.zero_add _).symm
  | cons c cs ih => rw [List.cons_append, openings, openings, ih, List.foldl_cons, Nat.add_assoc]

theorem foldl_turn_of_quoteAfter {quote after : Option Char} {cs : List Char}
    (h : quoteAfter quote cs = some after) : cs.foldl turn quote = after := by
  induction cs generalizing quote with
  | nil => exact Option.some.inj h
  | cons c cs ih =>
    rw [quoteAfter] at h
    split at h
    · cases h
    · exact ih h

/-- Where no quotation is opened, none is under way at the end. -/
theorem foldl_turn_of_openings {cs : List Char} (h : openings none cs = 0) :
    cs.foldl turn none = none := by
  induction cs with
  | nil => rfl
  | cons c cs ih =>
    rw [openings] at h
    obtain ⟨hopen, hrest⟩ := Nat.add_eq_zero_iff.mp h
    have hturn : turn none c = none := by
      by_contra hne
      rw [if_pos ⟨rfl, hne⟩] at hopen
      cases hopen
    rw [hturn] at hrest
    rw [List.foldl_cons, hturn]
    exact ih hrest

/-- **A value without its own mark opens no quotation**, and one that leaves its quotation as it is
has its mark in it otherwise. -/
theorem openings_value_iff {mark : Char} {value : List Char}
    (h : quoteAfter (some mark) value = some (some mark)) :
    openings (some mark) value = 0 ↔ mark ∉ value := by
  have hinside {cs : List Char} (hcs : mark ∉ cs) : openings (some mark) cs = 0 := by
    induction cs with
    | nil => rfl
    | cons c cs ih =>
      rw [List.mem_cons, not_or] at hcs
      rw [openings, if_neg (by simp), turn, if_neg (Ne.symm hcs.1), ih hcs.2]
  constructor
  · intro hzero hmem
    obtain ⟨before, after, rfl, hbefore⟩ := List.eq_append_cons_of_mem hmem
    have hstays := foldl_turn_of_quoteAfter (quoteAfter_of_notMem hbefore)
    have hcloses : turn (some mark) mark = none := if_pos rfl
    -- the first mark closes the quotation, and nothing opens it again
    rw [openings_append, hstays, openings, hcloses] at hzero
    have hnone : after.foldl turn none = none := foldl_turn_of_openings (by omega)
    have hsome := foldl_turn_of_quoteAfter h
    rw [List.foldl_append, hstays, List.foldl_cons, hcloses, hnone] at hsome
    cases hsome
  · exact hinside

/-- Read outside quotations, the text opens `n` of them and closes them again. -/
structure Quotes (cs : List Char) (n : Nat) : Prop where
  openings_eq : openings none cs = n
  closed : cs.foldl turn none = none

theorem Quotes.append {cs ds : List Char} {n k : Nat} (hcs : Quotes cs n) (hds : Quotes ds k) :
    Quotes (cs ++ ds) (n + k) where
  openings_eq := by rw [openings_append, hcs.openings_eq, hcs.closed, hds.openings_eq]
  closed := by rw [List.foldl_append, hcs.closed, hds.closed]

theorem Plain.quotes {cs : List Char} (h : Plain cs) : Quotes cs 0 := by
  refine ⟨?_, foldl_turn_of_quoteAfter h.quoteAfter_eq⟩
  induction cs with
  | nil => rfl
  | cons c cs ih =>
    obtain ⟨hc, hcs⟩ := List.forall_mem_cons.mp h
    have hturn : turn none c = none := if_neg (by simp [hc.1, hc.2.1])
    rw [openings, hturn, if_neg (by simp), ih hcs]

/-- Brackets around a text are in no quotation. -/
theorem Quotes.bracketed {body cs : List Char} {n k : Nat} (hbody : Quotes body n)
    (hcs : Quotes cs k) : Quotes ('[' :: (body ++ ']' :: cs)) (n + k) := by
  have hopen : Quotes ['['] 0 := ⟨rfl, rfl⟩
  have hclose : Quotes [']'] 0 := ⟨rfl, rfl⟩
  have := hopen.append (hbody.append (hclose.append hcs))
  rwa [Nat.zero_add, Nat.zero_add] at this

theorem quotes_value {mark : Char} (hmark : mark = '\'' ∨ mark = '"')
    {front value back : List Char} (hfront : Plain front) (hback : Plain back)
    (hvalue : quoteAfter (some mark) value = some (some mark)) :
    Quotes (front ++ mark :: (value ++ mark :: back)) (1 + openings (some mark) value) := by
  have hquoted : Quotes (mark :: (value ++ [mark])) (1 + openings (some mark) value) := by
    have hopens : turn none mark = some mark := if_pos hmark
    have hcloses : turn (some mark) mark = none := if_pos rfl
    have hstays := foldl_turn_of_quoteAfter hvalue
    constructor
    · rw [openings, hopens, openings_append, hstays]
      simp [openings]
    · rw [List.foldl_cons, hopens, List.foldl_append, hstays, List.foldl_cons, hcloses]
      rfl
  have := hfront.quotes.append (hquoted.append hback.quotes)
  simpa using this

/-! ## One quotation for each attribute test -/

namespace Grammar

/-- A documented predicate opens one quotation if it tests an attribute. -/
theorem Body.quotes {p : Predicate} {body : List Char} (h : documented.Body p body) :
    Quotes body ([p].countP Predicate.isTest) := by
  cases p with
  | position n =>
    obtain ⟨-, -, hnumeral, hcs⟩ := h
    exact (plain_of_around hcs fun c hc => (mem_isNumeral hnumeral c hc).2.2).quotes
  | hasValue name value =>
    obtain ⟨mark, front, back, hmark, hvalue, hfront, hback, rfl⟩ := h.hasValue_eq
    have hinside := quoteAfter_of_notMem hvalue
    have := quotes_value hmark hfront hback hinside
    rwa [(openings_value_iff hinside).mpr hvalue] at this

theorem Predicates.quotes {ps : List Predicate} {cs : List Char} (h : documented.Predicates ps cs) :
    Quotes cs (ps.countP Predicate.isTest) := by
  induction h with
  | nil => exact ⟨rfl, rfl⟩
  | @cons p ps body cs hbody hps ih =>
    change Quotes _ (([p] ++ ps).countP Predicate.isTest)
    rw [List.countP_append]
    exact hbody.quotes.bracketed ih

theorem plain_step (axis : Axis) {test : NameTest} (htest : test.WellFormed) :
    Plain (renderAxis axis ++ renderTest test) := by
  have haxis : Plain (renderAxis axis) := by
    cases axis <;> decide
  have htest : Plain (renderTest test) := by
    cases test with
    | any => decide
    | named name => exact plain_of_isNameChar htest.2
  exact haxis.append htest

/-- A step opens the quotations that its predicates open. -/
theorem quotes_step (axis : Axis) {test : NameTest} (htest : test.WellFormed)
    {predicates cs : List Char} {n k : Nat} (hpredicates : Quotes predicates n) (hcs : Quotes cs k) :
    Quotes (renderAxis axis ++ (renderTest test ++ (predicates ++ cs))) (n + k) := by
  have := (plain_step axis htest).quotes.append (hpredicates.append hcs)
  rwa [List.append_assoc, Nat.zero_add] at this

theorem Steps.quotes {ss : List Step} {cs : List Char} (h : documented.Steps ss cs) :
    Quotes cs ((ss.flatMap (·.predicates)).countP Predicate.isTest) := by
  induction h with
  | nil => exact ⟨rfl, rfl⟩
  | cons htest hps hss ih =>
    rw [List.flatMap_cons, List.countP_append]
    exact quotes_step _ htest hps.quotes ih

/-! ## Paths that are read -/

/-- A predicate that was read opens a quotation if it tests an attribute, and is documented if it
opens no more. -/
theorem Body.exists_quotes {p : Predicate} {body : List Char} (h : accepted.Body p body) :
    ∃ n, Quotes body n ∧ [p].countP Predicate.isTest ≤ n ∧
      (n = [p].countP Predicate.isTest → documented.Body p body) := by
  cases h with
  | position hpos hn hnumeral hcs =>
    have hbody : documented.Body _ body := .position hpos hn hnumeral hcs
    exact ⟨_, hbody.quotes, Nat.le_refl _, fun _ => hbody⟩
  | hasValue hblanks hname hbefore hmark hvalue hafter =>
    obtain ⟨front, back, hfront, hback, heq⟩ := exists_plain hblanks hname hbefore hafter
    refine ⟨_, heq ▸ quotes_value hmark hfront hback hvalue, Nat.le_add_right 1 _, fun hn => ?_⟩
    have hzero : openings _ _ = 0 := Nat.add_left_cancel hn
    exact .hasValue hblanks hname hbefore hmark ((openings_value_iff hvalue).mp hzero) hafter

theorem Predicates.exists_quotes {ps : List Predicate} {cs : List Char}
    (h : accepted.Predicates ps cs) :
    ∃ n, Quotes cs n ∧ ps.countP Predicate.isTest ≤ n ∧
      (n = ps.countP Predicate.isTest → documented.Predicates ps cs) := by
  induction h with
  | nil => exact ⟨0, ⟨rfl, rfl⟩, Nat.le_refl _, fun _ => .nil⟩
  | @cons p ps body cs hbody hps ih =>
    obtain ⟨n, hn, hle, hdocumented⟩ := hbody.exists_quotes
    obtain ⟨k, hk, hle', hdocumented'⟩ := ih
    have hcount : (p :: ps).countP Predicate.isTest =
        [p].countP Predicate.isTest + ps.countP Predicate.isTest := by
      rw [← List.countP_append]
      rfl
    refine ⟨n + k, hn.bracketed hk, by omega, fun heq => ?_⟩
    exact .cons (hdocumented (by omega)) (hdocumented' (by omega))

theorem Steps.exists_quotes {ss : List Step} {cs : List Char} (h : accepted.Steps ss cs) :
    ∃ n, Quotes cs n ∧ (ss.flatMap (·.predicates)).countP Predicate.isTest ≤ n ∧
      (n = (ss.flatMap (·.predicates)).countP Predicate.isTest → documented.Steps ss cs) := by
  induction h with
  | nil => exact ⟨0, ⟨rfl, rfl⟩, Nat.le_refl _, fun _ => .nil⟩
  | cons htest hps hss ih =>
    obtain ⟨n, hn, hle, hdocumented⟩ := hps.exists_quotes
    obtain ⟨k, hk, hle', hdocumented'⟩ := ih
    rw [List.flatMap_cons, List.countP_append]
    dsimp only
    refine ⟨n + k, quotes_step _ htest hn hk, by omega, fun heq => ?_⟩
    exact .cons htest (hdocumented (by omega)) (hdocumented' (by omega))

theorem plain_renderAttribute {a : Option String} (ha : ∀ name, a = some name →
    name = "*" ∨ IsName name) : Plain (renderAttribute a) := by
  cases a with
  | none => exact fun c hc => absurd hc List.not_mem_nil
  | some name =>
    refine .cons (by decide) (.cons (by decide) ?_)
    rcases ha name rfl with rfl | hname
    · decide
    · exact plain_of_isNameChar hname.2

/-- **The documented paths among those that are read** have no star for the attribute and open one
quotation for each attribute test. -/
theorem spells_documented_iff {p : Path} {cs : List Char} :
    documented.Spells p cs ↔
      accepted.Spells p cs ∧ p.attribute? ≠ some "*" ∧ openings none cs = p.tests := by
  constructor
  · intro h
    have hread := readList_eq_ok_iff.mp (h.readList_eq readable_documented)
    obtain ⟨steps, hsteps, rfl⟩ := h.steps
    refine ⟨hread, ?_, (hsteps.quotes.append (plain_renderAttribute hread.attributeName).quotes).1⟩
    intro hstar
    exact absurd (h.attributeName "*" hstar) (show ¬IsName "*" by decide)
  · rintro ⟨h, hstar, hopenings⟩
    obtain ⟨steps, hsteps, rfl⟩ := h.steps
    obtain ⟨n, hn, -, hdocumented⟩ := hsteps.exists_quotes
    have hall := (hn.append (plain_renderAttribute h.attributeName).quotes).openings_eq
    refine ⟨h.steps_ne_nil, fun name hname => ?_, steps, hdocumented (hall.symm.trans hopenings), rfl⟩
    refine (h.attributeName name hname).resolve_left ?_
    rintro rfl
    exact hstar hname

end Grammar

open Grammar

/-- **What is read, what is refused, and what of it is documented**, of any text. The reader reads
the accepted language, each text as the path that it spells, and refuses all else. The documented
language is part of it, spelling the same paths: those whose attribute is no star and whose text
opens one quotation for each attribute test. -/
theorem documented_iff_parse (source : String) :
    (∀ p, parse source = .ok p ↔ accepted.Spells p (trimList source.toList)) ∧
    ((∃ reason, parse source = .error ⟨source, reason⟩) ↔
      ∀ p, ¬accepted.Spells p (trimList source.toList)) ∧
    ∀ p, documented.Spells p (trimList source.toList) ↔
      parse source = .ok p ∧ p.attribute? ≠ some "*" ∧
        openings none (trimList source.toList) = p.tests := by
  refine ⟨fun p => parse_eq_ok_iff_spells, ?_, fun p => ?_⟩
  · simp only [← parse_eq_ok_iff_spells]
    constructor
    · rintro ⟨reason, h⟩ p hp
      cases h.symm.trans hp
    · intro h
      unfold parse at h ⊢
      cases hread : readList (trimList source.toList) with
      | ok p => exact absurd (by rw [hread]) (h p)
      | error reason => exact ⟨reason, rfl⟩
  · rw [parse_eq_ok_iff_spells]
    exact spells_documented_iff

theorem not_documented_of_parse {source : String} {p : Path} (h : parse source = .ok p)
    (hp : p.attribute? = some "*" ∨ openings none (trimList source.toList) ≠ p.tests) :
    ¬∃ q, documented.Spells q (trimList source.toList) := by
  rintro ⟨q, hq⟩
  obtain ⟨hread, hstar, hopenings⟩ := spells_documented_iff.mp hq
  obtain rfl := Except.ok.inj (h.symm.trans (parse_eq_ok_iff_spells.mpr hread))
  exact hp.elim hstar fun hne => hne hopenings

/-- A star for the attribute and a condition on two attributes are read, and not documented. -/
theorem not_documented_compound :
    ((∃ p, parse "/a/@*" = .ok p) ∧ ¬∃ q, documented.Spells q (trimList "/a/@*".toList)) ∧
    (∃ p, parse "//a[@x='1' and @y='2']" = .ok p) ∧
      ¬∃ q, documented.Spells q (trimList "//a[@x='1' and @y='2']".toList) := by
  have hstar : parse "/a/@*" = .ok ⟨[⟨.child, .named "a", []⟩], some "*"⟩ := rfl
  have hcompound : parse "//a[@x='1' and @y='2']" =
      .ok ⟨[⟨.descendant, .named "a", [.hasValue "x" "1' and @y='2"]⟩], none⟩ := rfl
  exact ⟨⟨⟨_, hstar⟩, not_documented_of_parse hstar (Or.inl rfl)⟩,
    ⟨_, hcompound⟩, not_documented_of_parse hcompound (Or.inr (by decide))⟩

end Path
end TradeIntake
