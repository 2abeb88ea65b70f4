import TradeIntake.Proofs.Except
import TradeIntake.Proofs.Path.Grammar

/-!
# Written paths read again

A path is written with apostrophes around the values of its attribute tests, whichever marks were
around them when it was read. Read again, a test ends where it ended before exactly when its value,
taken up inside that quotation, meets no bracket outside quotations and leaves the quotation as it
found it. Otherwise the test ends early, or goes on behind its own bracket, and its value comes out
shorter or longer, if it comes out at all.

* **`safe_of_read`**: a test that comes out the same has a safe value.
* **`safe_of_readSteps`**: so do all tests of the steps that come out the same.
* **`parse_render_iff`**: a path that was read comes out the same exactly when its values are safe.
-/

namespace TradeIntake

/-! ## Trimming -/

namespace Text

theorem length_trimList_le (cs : List Char) : (trimList cs).length ≤ cs.length := by
  have start (ds : List Char) : (trimStart ds).length ≤ ds.length :=
    (List.dropWhile_suffix isBlank).length_le
  have hend := start (trimStart cs).reverse
  rw [List.length_reverse] at hend
  rw [trimList, trimEnd, List.length_reverse]
  exact hend.trans (start cs)

/-- A text without blanks at its ends stays when something is trimmed behind it. -/
theorem trimList_append (cs : List Char) (hne : cs ≠ []) (hs : ∀ c ∈ cs.head?, isBlank c = false)
    (he : ∀ c ∈ cs.getLast?, isBlank c = false) (ds : List Char) :
    ∃ ds', trimList (cs ++ ds) = cs ++ ds' := by
  have hstart : trimStart (cs ++ ds) = cs ++ ds := by
    cases cs with
    | nil => exact absurd rfl hne
    | cons c cs => simp [trimStart, hs c rfl]
  have hback : cs.reverse.dropWhile isBlank = cs.reverse := by
    rw [← List.head?_reverse] at he
    cases hrev : cs.reverse with
    | nil => rfl
    | cons c rest => simp [he c (by rw [hrev]; rfl)]
  rw [trimList, hstart, trimEnd, trimStart, List.reverse_append, List.dropWhile_append]
  split
  · refine ⟨[], ?_⟩
    rw [hback, List.reverse_reverse, List.append_nil]
  · refine ⟨(ds.reverse.dropWhile isBlank).reverse, ?_⟩
    rw [List.reverse_append, List.reverse_reverse]

theorem getLast?_concat_blank_free {cs : List Char} {c : Char} (hc : isBlank c = false) :
    ∀ d ∈ (cs ++ [c]).getLast?, isBlank d = false := by
  rw [List.getLast?_concat]
  rintro d ⟨⟩
  exact hc

end Text

/-! ## Safe values -/

namespace Path

open Text

/-- The value can stand between apostrophes: taken up inside the quotation, it meets no bracket
outside quotations and ends inside that quotation. -/
def Safe (value : String) : Prop :=
  quoteAfter (some '\'') value.toList = some (some '\'')

instance (value : String) : Decidable (Safe value) :=
  inferInstanceAs (Decidable (_ = _))

theorem safe_of_notMem {value : String} (h : '\'' ∉ value.toList) : Safe value :=
  quoteAfter_of_notMem h

end Path

/-- All values in the tests of the path are safe. -/
def Path.SafeValues (p : Path) : Prop :=
  ∀ s ∈ p.steps, ∀ name value, .hasValue name value ∈ s.predicates → Path.Safe value

/-- The value of an attribute test is safe. -/
def Predicate.Safe : Predicate → Prop
  | .position _ => True
  | .hasValue _ value => Path.Safe value

instance : DecidablePred Predicate.Safe
  | .position _ => inferInstanceAs (Decidable True)
  | .hasValue _ value => inferInstanceAs (Decidable (Path.Safe value))

namespace Path

open Text

theorem safeValues_iff {p : Path} :
    p.SafeValues ↔ ∀ s ∈ p.steps, ∀ q ∈ s.predicates, q.Safe := by
  constructor
  · intro h s hs q hq
    cases q with
    | position n => trivial
    | hasValue name value => exact h s hs name value hq
  · exact fun h s hs name value hq => h s hs _ hq

instance (p : Path) : Decidable p.SafeValues :=
  decidable_of_iff _ safeValues_iff.symm

/-! ## One predicate -/

/-- A predicate without its brackets. -/
def renderBody : Predicate → List Char
  | .position n => Decimal.toDigits n
  | .hasValue name value => testBody name '\'' value.toList

theorem renderPredicate_append (p : Predicate) (rest : List Char) :
    renderPredicate p ++ rest = '[' :: (renderBody p ++ ']' :: rest) := by
  cases p <;> simp [renderPredicate, renderBody, testBody]

/-- A safe predicate is spelled by what is written of it. -/
theorem body_renderBody {p : Predicate} (hp : p.WellFormed) (hs : p.Safe) :
    Grammar.accepted.Body p (renderBody p) := by
  cases p with
  | position n => exact .position hp.1 hp.2 (Or.inl (Decimal.ofDigits?_toDigits n)) (around_self _)
  | hasValue name value =>
    exact @Grammar.Body.hasValue _ _ _ _ [] _ _ nofun hp (around_self _) (Or.inl rfl) hs
      (around_self _)

/-- What starts with a longer list starts with the shorter one. -/
theorem isPrefix_of_reverse_cons {α : Type} {x : α} {xs ys : List α}
    (h : (x :: xs).reverse <+: ys) : xs.reverse <+: ys := by
  rw [List.reverse_cons] at h
  exact (List.prefix_append _ _).trans h

/-- The body goes on from what has been passed. -/
theorem prefix_of_closeBracket {quote : Option Char} {cs acc body rest : List Char}
    (h : closeBracket quote cs acc = some (body, rest)) : acc.reverse <+: body := by
  induction cs generalizing quote acc with
  | nil => cases h
  | cons c cs ih =>
    rw [closeBracket_cons] at h
    split at h
    · obtain ⟨rfl, -⟩ := Prod.mk.inj (Option.some.inj h)
      exact List.prefix_rfl
    · exact isPrefix_of_reverse_cons (ih h)

section AttributeTest

variable {name : String} (hname : IsName name) {value : List Char}
include hname

/-- With a bracket outside quotations in its value, a test ends before the value does. -/
theorem body_of_quoteAfter_eq_none (h : quoteAfter (some '\'') value = none)
    {rest body rest' : List Char}
    (hclose : closeBracket none (testBody name '\'' value ++ ']' :: rest) [] = some (body, rest')) :
    ∃ before, before.length < value.length ∧ body = '@' :: (name.toList ++ '=' :: '\'' :: before) := by
  have hopening := quoteAfter_opening hname (Or.inl rfl : '\'' = '\'' ∨ '\'' = '"')
  obtain ⟨before, after, hvalue, hread⟩ :=
    closeBracket_of_quoteAfter_eq_none h ('\'' :: ']' :: rest)
      ('@' :: (name.toList ++ ['=', '\''])).reverse
  refine ⟨before, ?_, ?_⟩
  · rw [hvalue, List.length_append, List.length_cons]
    omega
  · rw [testBody_eq, List.append_assoc, List.append_assoc, closeBracket_of_quoteAfter hopening,
      List.append_nil] at hclose
    rw [List.singleton_append, hread] at hclose
    obtain ⟨rfl, -⟩ := Prod.mk.inj (Option.some.inj hclose)
    simp

/-- With a value that leaves its quotation, a test goes on behind its own bracket. -/
theorem body_of_quoteAfter_ne {after : Option Char} (h : quoteAfter (some '\'') value = some after)
    (hne : after ≠ some '\'') {rest body rest' : List Char}
    (hclose : closeBracket none (testBody name '\'' value ++ ']' :: rest) [] = some (body, rest')) :
    ∃ more, body = testBody name '\'' value ++ ']' :: more := by
  have hopening := quoteAfter_opening hname (Or.inl rfl : '\'' = '\'' ∨ '\'' = '"')
  have hinside : ∃ mark, quoteAfter none (testBody name '\'' value ++ [']']) = some (some mark) := by
    rw [testBody_eq, List.append_assoc, List.append_assoc, quoteAfter_append, hopening,
      Option.bind_some, quoteAfter_append, h, Option.bind_some]
    cases after with
    | none => exact ⟨'\'', rfl⟩
    | some mark =>
      have hmark : mark = '"' := by
        refine (isMark_of_quoteAfter ?_ h mark rfl).resolve_left fun heq => hne (by rw [heq])
        rintro _ ⟨⟩
        exact Or.inl rfl
      rw [hmark]
      exact ⟨'"', rfl⟩
  obtain ⟨mark, hinside⟩ := hinside
  have hclose' : closeBracket none ((testBody name '\'' value ++ [']']) ++ rest) [] =
      some (body, rest') := by
    rw [List.append_assoc]
    exact hclose
  rw [closeBracket_of_quoteAfter hinside] at hclose'
  obtain ⟨more, rfl⟩ := prefix_of_closeBracket hclose'
  exact ⟨more, by simp⟩

/-- From a quotation that is not closed, a value comes out shorter. -/
theorem length_lt_of_unclosed {before : List Char} {name' read : String}
    (h : readBody ('@' :: (name.toList ++ '=' :: '\'' :: before)) = .ok (.hasValue name' read)) :
    read.toList.length < before.length := by
  have hbody (cs : List Char) : '@' :: (name.toList ++ ['=']) ++ ['\''] ++ cs =
      '@' :: (name.toList ++ '=' :: '\'' :: cs) := by
    simp
  rw [← hbody] at h
  obtain ⟨after, hafter⟩ := trimList_append ('@' :: (name.toList ++ ['=']) ++ ['\''])
    (List.cons_ne_nil _ _) (by rintro c ⟨⟩; rfl) (getLast?_concat_blank_free rfl) before
  have hshort := length_trimList_le ('@' :: (name.toList ++ ['=']) ++ ['\''] ++ before)
  rw [hafter] at hshort
  simp only [List.length_append] at hshort
  rw [hbody after] at hafter
  have hread := length_of_readBody hname hafter h
  have htrim := length_trimList_le ('\'' :: after)
  rw [List.length_cons] at htrim
  omega

/-- From a test that goes on behind its own bracket, a value comes out longer. -/
theorem length_lt_of_more {more : List Char} {name' read : String}
    (h : readBody (testBody name '\'' value ++ ']' :: more) = .ok (.hasValue name' read)) :
    value.length < read.toList.length := by
  have hbody : testBody name '\'' value ++ ']' :: more =
      testBody name '\'' value ++ [']'] ++ more := by
    simp
  rw [hbody] at h
  obtain ⟨more, htrim⟩ := trimList_append (testBody name '\'' value ++ [']'])
    (List.cons_ne_nil _ _) (by rintro c ⟨⟩; rfl) (getLast?_concat_blank_free rfl) more
  obtain ⟨more', htrim'⟩ := trimList_append ('\'' :: (value ++ ['\'']) ++ [']'])
    (List.cons_ne_nil _ _) (by rintro c ⟨⟩; rfl) (getLast?_concat_blank_free rfl) more
  have hread : read.toList.length + 2 =
      (trimList ('\'' :: (value ++ ['\'']) ++ [']'] ++ more)).length :=
    length_of_readBody hname (by simpa [testBody] using htrim) h
  rw [htrim'] at hread
  simp only [List.length_append, List.length_cons, List.length_nil] at hread
  omega

end AttributeTest

/-- **A test that comes out the same has a safe value.** -/
theorem safe_of_read {p : Predicate} (hp : p.WellFormed) {rest body rest' : List Char}
    (hclose : closeBracket none (renderBody p ++ ']' :: rest) [] = some (body, rest'))
    (hread : readBody body = .ok p) : p.Safe := by
  cases p with
  | position n => trivial
  | hasValue name value =>
    change quoteAfter (some '\'') value.toList = some (some '\'')
    by_contra hne
    cases hquote : quoteAfter (some '\'') value.toList with
    | none =>
      obtain ⟨before, hlt, rfl⟩ := body_of_quoteAfter_eq_none hp hquote hclose
      exact absurd (length_lt_of_unclosed hp hread) (Nat.lt_asymm hlt)
    | some after =>
      obtain ⟨more, rfl⟩ := body_of_quoteAfter_ne hp hquote
        (fun h => hne (by rw [hquote, h])) hclose
      exact absurd (length_lt_of_more hp hread) (Nat.lt_irrefl _)

/-! ## Predicates -/

/-- What came next in a longer list is what comes next in it. -/
theorem eq_of_isPrefix_reverse_cons {α : Type} {x y : α} {xs ys : List α}
    (h : (x :: xs).reverse <+: xs.reverse ++ y :: ys) : x = y := by
  rw [List.reverse_cons, List.prefix_append_right_inj, List.cons_prefix_cons] at h
  exact h.1

theorem head?_flatMap_renderPredicate (ps : List Predicate) {rest : List Char}
    (hr : ∀ c ∈ rest.head?, c = '/') :
    ∀ c ∈ (ps.flatMap renderPredicate ++ rest).head?, c = '[' ∨ c = '/' := by
  cases ps with
  | nil => exact fun c hc => Or.inr (hr c hc)
  | cons p ps =>
    rw [List.flatMap_cons, List.append_assoc, renderPredicate_append]
    rintro c ⟨⟩
    exact Or.inl rfl

theorem length_le_predicates (ps : List Predicate) (rest : List Char) :
    ps.length ≤ (ps.flatMap renderPredicate ++ rest).length := by
  induction ps with
  | nil => exact Nat.zero_le _
  | cons p ps ih =>
    rw [List.flatMap_cons, List.append_assoc, renderPredicate_append, List.length_cons,
      List.length_cons, List.length_append, List.length_cons]
    omega

theorem predicates_render {ps : List Predicate} (hp : ∀ p ∈ ps, p.WellFormed)
    (hs : ∀ p ∈ ps, p.Safe) : Grammar.accepted.Predicates ps (ps.flatMap renderPredicate) := by
  induction ps with
  | nil => exact .nil
  | cons p ps ih =>
    rw [List.forall_mem_cons] at hp hs
    rw [List.flatMap_cons, renderPredicate_append]
    exact .cons (body_renderBody hp.1 hs.1) (ih hp.2 hs.2)

/-- Safe predicates are read. -/
theorem readPredicates_render {ps : List Predicate} (hp : ∀ p ∈ ps, p.WellFormed)
    (hs : ∀ p ∈ ps, p.Safe) {rest : List Char} (hr : ∀ c ∈ rest.head?, c = '/') {fuel : Nat}
    (hfuel : ps.length ≤ fuel) (acc : List Predicate) :
    readPredicates fuel (ps.flatMap renderPredicate ++ rest) acc = .ok (acc.reverse ++ ps, rest) := by
  refine (predicates_render hp hs).readPredicates_eq Grammar.readable_accepted ?_ hfuel acc
  intro c hc
  rw [hr c hc]
  decide

/-- What has been read stays. -/
theorem prefix_of_readPredicates {fuel : Nat} {cs rest : List Char} {acc ps : List Predicate}
    (h : readPredicates fuel cs acc = .ok (ps, rest)) : acc.reverse <+: ps := by
  fun_induction readPredicates fuel cs acc with
  | case1 => cases h
  | case2 fuel cs acc body rest' _ p hp ih => exact isPrefix_of_reverse_cons (ih h)
  | case3 => cases h
  | case4 fuel cs acc =>
    obtain ⟨rfl, -⟩ := Prod.mk.inj (Except.ok.inj h)
    exact List.prefix_rfl

/-- Predicates that come out the same are safe. -/
theorem safe_of_readPredicates {ps : List Predicate} (hp : ∀ p ∈ ps, p.WellFormed)
    {rest rest' : List Char} {fuel : Nat} (hfuel : ps.length ≤ fuel) {acc : List Predicate}
    (h : readPredicates fuel (ps.flatMap renderPredicate ++ rest) acc =
      .ok (acc.reverse ++ ps, rest')) : ∀ p ∈ ps, p.Safe := by
  induction ps generalizing fuel acc with
  | nil => exact fun p hp => absurd hp List.not_mem_nil
  | cons p ps ih =>
    rw [List.forall_mem_cons] at hp
    cases fuel with
    | zero => cases hfuel
    | succ fuel =>
      rw [List.flatMap_cons, List.append_assoc, renderPredicate_append] at h
      have hsafe : p.Safe := by
        rw [readPredicates] at h
        split at h
        · cases h
        rename_i body rest'' hclose
        split at h
        · rename_i q hread
          rw [eq_of_isPrefix_reverse_cons (prefix_of_readPredicates h)] at hread
          exact safe_of_read hp.1 hclose hread
        · cases h
      have hbody := body_renderBody hp.1 hsafe
      rw [readPredicates_cons (hbody.closeBracket_eq Grammar.readable_accepted _) hbody.readBody_eq] at h
      have hrest : readPredicates fuel (ps.flatMap renderPredicate ++ rest) (p :: acc) =
          .ok ((p :: acc).reverse ++ ps, rest') := by
        rw [h, List.reverse_cons, List.append_assoc]
        rfl
      exact List.forall_mem_cons.mpr ⟨hsafe, ih hp.2 (Nat.le_of_succ_le_succ hfuel) hrest⟩

/-! ## Steps -/

theorem renderAxis_cons (axis : Axis) : ∃ cs, renderAxis axis = '/' :: cs := by
  cases axis with
  | child => exact ⟨[], rfl⟩
  | descendant => exact ⟨['/'], rfl⟩

theorem renderStep_append (s : Step) (rest : List Char) :
    renderStep s ++ rest =
      renderAxis s.axis ++ (renderTest s.test ++ (s.predicates.flatMap renderPredicate ++ rest)) := by
  simp [renderStep]

theorem renderStep_cons (s : Step) : ∃ cs, renderStep s = '/' :: cs := by
  obtain ⟨cs, hcs⟩ := renderAxis_cons s.axis
  exact ⟨_, by rw [renderStep, hcs]; rfl⟩

theorem head?_renderSteps (ss : List Step) (a : Option String) :
    ∀ c ∈ (ss.flatMap renderStep ++ renderAttribute a).head?, c = '/' := by
  intro c hc
  cases ss with
  | nil =>
    cases a with
    | none => cases hc
    | some name =>
      obtain rfl := Option.some.inj hc
      rfl
  | cons s ss =>
    obtain ⟨cs, hcs⟩ := renderStep_cons s
    rw [List.flatMap_cons, hcs] at hc
    obtain rfl := Option.some.inj hc
    rfl

/-- A written step is read, up to its predicates. -/
theorem readSteps_renderStep {s : Step} (hs : s.WellFormed) (ss : List Step) (a : Option String)
    (fuel : Nat) (acc : List Step) :
    readSteps (fuel + 1) (renderStep s ++ (ss.flatMap renderStep ++ renderAttribute a)) acc =
      readPredicates
        (s.predicates.flatMap renderPredicate ++ (ss.flatMap renderStep ++ renderAttribute a)).length
        (s.predicates.flatMap renderPredicate ++ (ss.flatMap renderStep ++ renderAttribute a)) [] >>=
      fun r => readSteps fuel r.2 (⟨s.axis, s.test, r.1⟩ :: acc) := by
  rw [renderStep_append]
  refine readSteps_step hs.test ?_ s.axis fuel acc
  intro c hc
  rcases head?_flatMap_renderPredicate s.predicates (head?_renderSteps ss a) c hc with rfl | rfl <;>
  · exact ⟨rfl, by decide⟩

/-- Steps with safe predicates are spelled by what is written of them. -/
theorem steps_render {ss : List Step} (hw : ∀ s ∈ ss, s.WellFormed)
    (hs : ∀ s ∈ ss, ∀ p ∈ s.predicates, p.Safe) :
    Grammar.accepted.Steps ss (ss.flatMap renderStep) := by
  induction ss with
  | nil => exact .nil
  | cons s ss ih =>
    rw [List.forall_mem_cons] at hw hs
    rw [List.flatMap_cons, renderStep_append]
    exact .cons hw.1.test (predicates_render hw.1.predicates hs.1) (ih hw.2 hs.2)

/-- Steps with safe predicates are read, and the attribute behind them. -/
theorem readSteps_render {ss : List Step} {a : Option String} (hw : ∀ s ∈ ss, s.WellFormed)
    (hs : ∀ s ∈ ss, ∀ p ∈ s.predicates, p.Safe)
    (ha : ∀ name, a = some name → name = "*" ∨ IsName name) {acc : List Step}
    (hne : acc ≠ [] ∨ ss ≠ []) {fuel : Nat}
    (hfuel : (ss.flatMap renderStep ++ renderAttribute a).length ≤ fuel) :
    readSteps fuel (ss.flatMap renderStep ++ renderAttribute a) acc = .ok ⟨acc.reverse ++ ss, a⟩ :=
  (steps_render hw hs).readSteps_eq Grammar.readable_accepted ha hne hfuel

/-- What has been read stays. -/
theorem prefix_of_readSteps {fuel : Nat} {cs : List Char} {acc : List Step} {p : Path}
    (h : readSteps fuel cs acc = .ok p) : acc.reverse <+: p.steps := by
  fun_induction readSteps fuel cs acc with
  | case1 fuel acc =>
    obtain rfl := Except.ok.inj h
    exact List.prefix_rfl
  | case5 fuel cs acc hcs axis rest _ hstart =>
    unfold readAttribute at h
    split at h
    · cases h
    · obtain rfl := Except.ok.inj h
      exact List.prefix_rfl
    · cases h
  | case8 fuel cs acc hcs axis rest _ _ name afterName hname predicates rest' hpredicates ih =>
    exact isPrefix_of_reverse_cons (ih h)
  | case2 | case3 | case4 | case6 | case7 => cases h

/-- **Steps that come out the same have safe predicates.** -/
theorem safe_of_readSteps {ss : List Step} {a : Option String} (hw : ∀ s ∈ ss, s.WellFormed)
    {fuel : Nat} {acc : List Step}
    (h : readSteps fuel (ss.flatMap renderStep ++ renderAttribute a) acc =
      .ok ⟨acc.reverse ++ ss, a⟩) : ∀ s ∈ ss, ∀ p ∈ s.predicates, p.Safe := by
  induction ss generalizing fuel acc with
  | nil => exact fun s hs => absurd hs List.not_mem_nil
  | cons s ss ih =>
    rw [List.forall_mem_cons] at hw
    rw [List.flatMap_cons, List.append_assoc] at h
    cases fuel with
    | zero =>
      obtain ⟨cs, hcs⟩ := renderStep_cons s
      rw [hcs] at h
      cases h
    | succ fuel =>
      rw [readSteps_renderStep hw.1] at h
      have hsafe : ∀ p ∈ s.predicates, p.Safe := by
        obtain ⟨⟨ps, after⟩, hps, h⟩ := Except.bind_eq_ok_iff.mp h
        have hread : (⟨s.axis, s.test, ps⟩ : Step) = s :=
          eq_of_isPrefix_reverse_cons (prefix_of_readSteps h)
        have hps' : ps = s.predicates := congrArg Step.predicates hread
        rw [hps'] at hps
        exact safe_of_readPredicates hw.1.predicates (length_le_predicates _ _) hps
      rw [readPredicates_render hw.1.predicates hsafe (head?_renderSteps ss a)
        (length_le_predicates _ _)] at h
      have hrest : readSteps fuel (ss.flatMap renderStep ++ renderAttribute a) (s :: acc) =
          .ok ⟨(s :: acc).reverse ++ ss, a⟩ := by
        rw [List.reverse_cons, List.append_assoc]
        exact h
      exact List.forall_mem_cons.mpr ⟨hsafe, ih hw.2 hrest⟩

/-! ## Paths -/

theorem getLast?_append_blank_free {cs ds : List Char} (hc : ∀ c ∈ cs.getLast?, isBlank c = false)
    (hd : ∀ c ∈ ds.getLast?, isBlank c = false) :
    ∀ c ∈ (cs ++ ds).getLast?, isBlank c = false := by
  intro c h
  rw [List.getLast?_append, Option.mem_def, Option.or_eq_some_iff] at h
  rcases h with h | ⟨-, h⟩
  · exact hd c h
  · exact hc c h

theorem getLast?_flatMap_blank_free {α : Type} {f : α → List Char} {xs : List α}
    (h : ∀ x ∈ xs, ∀ c ∈ (f x).getLast?, isBlank c = false) :
    ∀ c ∈ (xs.flatMap f).getLast?, isBlank c = false := by
  induction xs with
  | nil => rintro c ⟨⟩
  | cons x xs ih =>
    rw [List.forall_mem_cons] at h
    rw [List.flatMap_cons]
    exact getLast?_append_blank_free h.1 (ih h.2)

theorem blank_free_of_isName {name : String} (h : name = "*" ∨ IsName name) :
    ∀ c ∈ name.toList.getLast?, isBlank c = false := by
  rcases h with rfl | h
  · rintro c ⟨⟩
    rfl
  · exact fun c hc => isBlank_of_isNameChar (h.2 c (List.mem_of_mem_getLast? hc))

/-- A written path has no blank at its ends. -/
theorem trimList_renderList {p : Path} (hp : p.WellFormed) :
    trimList p.renderList = p.renderList := by
  have htest : ∀ t : NameTest, t.WellFormed → ∀ c ∈ (renderTest t).getLast?, isBlank c = false := by
    intro t ht
    cases t with
    | any => rintro c ⟨⟩; rfl
    | named name => exact blank_free_of_isName (Or.inr ht)
  have hpredicate : ∀ q : Predicate, ∀ c ∈ (renderPredicate q).getLast?, isBlank c = false := by
    intro q
    rw [← List.append_nil (renderPredicate q), renderPredicate_append, ← List.cons_append,
      List.getLast?_concat]
    rintro c ⟨⟩
    rfl
  refine trim_blank_free ?_ (getLast?_append_blank_free (getLast?_flatMap_blank_free ?_) ?_)
  · intro c hc
    rw [head?_renderSteps p.steps p.attribute? c hc]
    rfl
  · intro s hs
    refine getLast?_append_blank_free (getLast?_append_blank_free ?_ ?_)
      (getLast?_flatMap_blank_free fun q _ => hpredicate q)
    · cases s.axis <;>
      · rintro c ⟨⟩
        rfl
    · exact htest s.test (hp.steps s hs).test
  · cases hname : p.attribute? with
    | none => rintro c ⟨⟩
    | some name =>
      have hmarks : ∀ c ∈ ['/', '@'].getLast?, isBlank c = false := by
        rintro c ⟨⟩
        rfl
      exact getLast?_append_blank_free hmarks (blank_free_of_isName (hp.attributeName name hname))

/-- **A path that was read comes out the same** when it is written and read again exactly when the
values in its tests are safe, as values without apostrophes are. -/
theorem parse_render_iff :
    (∀ source p, parse source = .ok p → (parse p.render = .ok p ↔ p.SafeValues)) ∧
      ∀ value : String, '\'' ∉ value.toList → Safe value := by
  refine ⟨?_, fun value => safe_of_notMem⟩
  intro source p h
  have hp := wellFormed_of_parse h
  obtain ⟨s, ss, hsteps⟩ := List.exists_cons_of_ne_nil hp.steps_ne_nil
  have hread : readList p.renderList = readSteps p.renderList.length p.renderList [] := by
    obtain ⟨cs, hcs⟩ := renderStep_cons s
    have hlist : ∃ rest, p.renderList = '/' :: rest := by
      rw [renderList, hsteps, List.flatMap_cons, hcs]
      exact ⟨_, rfl⟩
    obtain ⟨rest, hrest⟩ := hlist
    rw [hrest, readList, if_pos rfl]
  rw [parse_eq_ok_iff, render, String.toList_ofList, trimList_renderList hp, hread, safeValues_iff]
  constructor
  · exact fun h => @safe_of_readSteps _ _ hp.steps _ [] h
  · exact fun hs => readSteps_render hp.steps hs hp.attributeName
      (Or.inr hp.steps_ne_nil) (Nat.le_refl _)

/-- One apostrophe in a value is in the way; two need not be. -/
theorem parse_render_apostrophes :
    ∃ p q, parse "/a[ @b = \"I'm, you're\" ][+02]/@*" = .ok p ∧ parse p.render = .ok p ∧
      parse "//a[@b=\"it's\"]" = .ok q ∧ parse q.render ≠ .ok q := by
  have hp : parse "/a[ @b = \"I'm, you're\" ][+02]/@*" =
      .ok ⟨[⟨.child, .named "a", [.hasValue "b" "I'm, you're", .position 2]⟩], some "*"⟩ := rfl
  have hq : parse "//a[@b=\"it's\"]" =
      .ok ⟨[⟨.descendant, .named "a", [.hasValue "b" "it's"]⟩], none⟩ := rfl
  refine ⟨_, _, hp, ?_, hq, ?_⟩
  · exact (parse_render_iff.1 _ _ hp).mpr (by decide)
  · exact mt (parse_render_iff.1 _ _ hq).mp (by decide)

end Path

end TradeIntake
