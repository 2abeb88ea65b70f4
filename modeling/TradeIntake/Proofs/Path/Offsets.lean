import Mathlib.Data.String.Basic
import TradeIntake.Proofs.Path.Grammar

/-!
# Reading paths by byte offsets

In memory a text is a run of bytes. A reader that looks for the end of a name or for a closing
bracket comes to know the number of a byte there, and a text can be cut at a byte only if that is
within the text and no character is going on. The reader of this module works that way: it counts
the bytes of the characters that it passes, and cuts the text by their number. A loop goes on as
long as there is text for it, and each of its rounds has to take some. What fails of this is a
fault, which is no refusal: the text might have been a path.

* **`splitAt_eq_ok_iff`**, `exists_splitAt_iff`: where a text can be cut.
* **`Offsets.name_eq`**, **`Offsets.predicate_eq`**: names and predicates are cut off as they are read
  character by character.
* **`Offsets.parse_eq`**: no text brings about a fault, and what is read is the same.
-/

namespace TradeIntake

namespace Text

open String (utf8Len)

/-- What must not happen to a reader that goes by byte offsets. -/
inductive Fault where
  /-- An offset behind the end of the text, or a part that would end before it starts. -/
  | outside
  /-- An offset inside a character. -/
  | insideCharacter
  /-- A round of a loop that took nothing from the text. -/
  | idle
  deriving Repr, DecidableEq

/-! ## Cutting a text -/

/-- The first `n` bytes of a text, and what comes after them. -/
def splitAt : Nat → List Char → Except Fault (List Char × List Char)
  | 0, cs => .ok ([], cs)
  | _ + 1, [] => .error .outside
  | n + 1, c :: cs =>
    if n + 1 < c.utf8Size then .error .insideCharacter
    else match splitAt (n + 1 - c.utf8Size) cs with
      | .ok (before, after) => .ok (c :: before, after)
      | .error fault => .error fault
termination_by structural _ cs => cs

/-- The part of a text from byte `start` up to byte `stop`. -/
def slice (start stop : Nat) (cs : List Char) : Except Fault (List Char) :=
  if stop < start then .error .outside
  else do
    let (before, _) ← splitAt stop cs
    let (_, part) ← splitAt start before
    return part

/-- The part of a text from byte `start` on. -/
def sliceFrom (start : Nat) (cs : List Char) : Except Fault (List Char) := do
  let (_, part) ← splitAt start cs
  return part

theorem splitAt_append (before after : List Char) :
    splitAt (utf8Len before) (before ++ after) = .ok (before, after) := by
  induction before with
  | nil => cases after <;> rfl
  | cons c before ih =>
    have hpos : 0 < c.utf8Size := c.utf8Size_pos
    obtain ⟨n, hn⟩ : ∃ n, utf8Len (c :: before) = n + 1 :=
      ⟨utf8Len before + c.utf8Size - 1, by rw [String.utf8Len_cons]; omega⟩
    have hlen : n + 1 = utf8Len before + c.utf8Size := hn.symm
    have hrest : n + 1 - c.utf8Size = utf8Len before := by omega
    rw [hn, List.cons_append, splitAt, if_neg (by omega), hrest, ih]

/-- **A text is cut after the bytes of one of its beginnings**, and nowhere else. -/
theorem splitAt_eq_ok_iff {n : Nat} {cs before after : List Char} :
    splitAt n cs = .ok (before, after) ↔ cs = before ++ after ∧ utf8Len before = n := by
  constructor
  · intro h
    fun_induction splitAt n cs generalizing before with
    | case1 cs =>
      obtain ⟨rfl, rfl⟩ := Prod.mk.inj (Except.ok.inj h)
      exact ⟨rfl, rfl⟩
    | case2 | case3 | case5 => cases h
    | case4 n c cs hsize before' after' hsplit ih =>
      obtain ⟨rfl, rfl⟩ := Prod.mk.inj (Except.ok.inj h)
      obtain ⟨rfl, hlen⟩ := ih hsplit
      refine ⟨rfl, ?_⟩
      rw [String.utf8Len_cons, hlen]
      omega
  · rintro ⟨rfl, rfl⟩
    exact splitAt_append before after

/-- That is where the bytes of a character start or the text ends. -/
theorem exists_splitAt_iff {n : Nat} {cs : List Char} :
    (∃ halves, splitAt n cs = .ok halves) ↔ String.Pos.Raw.IsValid (String.ofList cs) ⟨n⟩ := by
  rw [String.Pos.Raw.isValid_ofList]
  constructor
  · rintro ⟨⟨before, after⟩, h⟩
    obtain ⟨rfl, rfl⟩ := splitAt_eq_ok_iff.mp h
    exact ⟨before.length, by rw [List.take_left, String.utf8ByteSize_ofList]⟩
  · rintro ⟨i, hi⟩
    rw [String.utf8ByteSize_ofList] at hi
    exact ⟨(cs.take i, cs.drop i),
      splitAt_eq_ok_iff.mpr ⟨(List.take_append_drop i cs).symm, hi.symm⟩⟩

theorem slice_append (before part after : List Char) :
    slice (utf8Len before) (utf8Len (before ++ part)) (before ++ (part ++ after)) = .ok part := by
  have hle : ¬ utf8Len (before ++ part) < utf8Len before := by
    rw [String.utf8Len_append]
    omega
  rw [slice, if_neg hle, ← List.append_assoc, splitAt_append]
  change (do let (_, part) ← splitAt (utf8Len before) (before ++ part); return part) = _
  rw [splitAt_append]
  rfl

theorem sliceFrom_append (before after : List Char) :
    sliceFrom (utf8Len before) (before ++ after) = .ok after := by
  rw [sliceFrom, splitAt_append]
  rfl

/-- The offset of the first character that passes a test, where the text itself starts at
`offset`. -/
def offsetOf? (test : Char → Bool) (offset : Nat) : List Char → Option Nat
  | [] => none
  | c :: cs => if test c then some offset else offsetOf? test (offset + c.utf8Size) cs

/-- Up to the first character that passes a test, or to the end. -/
theorem getD_offsetOf? (test : Char → Bool) (offset : Nat) (cs : List Char) :
    (offsetOf? test offset cs).getD (offset + utf8Len cs) =
      offset + utf8Len (cs.takeWhile fun c => !test c) := by
  induction cs generalizing offset with
  | nil => rfl
  | cons c cs ih =>
    rw [offsetOf?]
    by_cases hc : test c = true
    · simp [hc]
    · have hsum : offset + (utf8Len cs + c.utf8Size) = offset + c.utf8Size + utf8Len cs := by omega
      rw [if_neg hc, List.takeWhile_cons_of_pos (by simpa using hc), String.utf8Len_cons,
        String.utf8Len_cons, hsum, ih]
      omega

end Text

namespace Path.Offsets

open Text
open String (utf8Len)

/-! ## The reader -/

/-- A reading comes to a result or refuses the text, unless there is a fault. -/
abbrev Reading := ExceptT Reason (Except Fault)

/-- A reading that comes to that without a fault. -/
def settled {α : Type} (r : Except Reason α) : Reading α :=
  ExceptT.mk (.ok r)

@[simp]
theorem liftM_ok_bind {α β : Type} (a : α) (f : α → Reading β) :
    (liftM (.ok a : Except Fault α) : Reading α) >>= f = f a := rfl

@[simp]
theorem settled_ok_bind {α β : Type} (a : α) (f : α → Reading β) :
    settled (.ok a) >>= f = f a := rfl

/-- Rounds of a loop, as long as there is more to do in the text. -/
def rounds {α : Type} (more : List Char → Bool) (round : α → List Char → Reading (α × List Char))
    (a : α) (rest : List Char) : Reading (α × List Char) :=
  if more rest then do
    let (b, rest') ← round a rest
    if rest'.length < rest.length then rounds more round b rest' else ExceptT.mk (.error .idle)
  else pure (a, rest)
termination_by rest.length

/-- The offset behind a name. -/
def nameEnd (rest : List Char) : Nat :=
  (offsetOf? (fun c => !isNameChar c) 0 rest).getD (utf8Len rest)

/-- A name, cut off at the offset behind it. -/
def name : List Char → Reading (List Char × List Char)
  | '*' :: rest => pure (['*'], rest)
  | rest => do
    match ← splitAt (nameEnd rest) rest with
    | ([], _) => throw .missingName
    | (_, ':' :: _) => throw .prefixedName
    | (name, rest) => pure (name, rest)

/-- The offset of the first bracket outside quotations, where the text starts at `offset` with the
quotation `quote` under way. -/
def bracket? (quote : Option Char) (offset : Nat) : List Char → Option Nat
  | [] => none
  | c :: cs =>
    if quote = none ∧ c = ']' then some offset
    else bracket? (turn quote c) (offset + c.utf8Size) cs

/-- The offset of the bracket that closes a predicate, whose own first character does not count. -/
def close? : List Char → Option Nat
  | [] => none
  | c :: cs => bracket? none c.utf8Size cs

/-- A predicate, cut out between the offsets of its brackets. -/
def predicate (rest : List Char) : Reading (Predicate × List Char) := do
  match close? rest with
  | none => throw .openPredicate
  | some close =>
    let body ← slice 1 close rest
    let after ← sliceFrom (close + 1) rest
    let p ← settled (readBody body)
    pure (p, after)

/-- One more predicate of a step. -/
def onePredicate (ps : List Predicate) (rest : List Char) :
    Reading (List Predicate × List Char) := do
  let (p, rest) ← predicate rest
  pure (ps ++ [p], rest)

/-- Predicates, as long as there is a bracket. -/
def predicates : List Predicate → List Char → Reading (List Predicate × List Char) :=
  rounds (fun rest => rest.head? == some '[') onePredicate

/-- One more step of a path, or its attribute. -/
def oneStep (p : Path) (rest : List Char) : Reading (Path × List Char) :=
  if p.attribute?.isSome then throw .attributeNotLast
  else do
    match ← settled (readAxis rest) with
    | (axis, '@' :: rest) =>
      if axis = .descendant ∨ p.steps = [] then throw .attributeWithoutElement
      else do
        let (name, rest) ← name rest
        pure ({ p with attribute? := some (String.ofList name) }, rest)
    | (axis, rest) =>
      let (name, rest) ← name rest
      let (predicates, rest) ← predicates [] rest
      pure ({ p with steps := p.steps ++ [⟨axis, nameTest name, predicates⟩] }, rest)

/-- Steps, as long as there is any text. -/
def steps : Path → List Char → Reading (Path × List Char) :=
  rounds (fun rest => !rest.isEmpty) oneStep

/-- The path that trimmed characters stand for. -/
def read (cs : List Char) : Reading Path :=
  match cs with
  | [] => throw .empty
  | c :: _ => if c = '/' then Prod.fst <$> steps ⟨[], none⟩ cs else throw .noSlash

/-- The path that a text stands for. -/
def parse (source : String) : Except Fault (Except Malformed Path) := do
  match ← (read (trimList source.toList)).run with
  | .ok p => pure (.ok p)
  | .error reason => pure (.error ⟨source, reason⟩)

/-! ## What is cut off -/

theorem nameEnd_eq (rest : List Char) : nameEnd rest = utf8Len (rest.takeWhile isNameChar) := by
  have h := getD_offsetOf? (fun c => !isNameChar c) 0 rest
  simpa [nameEnd] using h

theorem splitAt_nameEnd (rest : List Char) :
    splitAt (nameEnd rest) rest = .ok (rest.span isNameChar) := by
  rw [List.span_eq_takeWhile_dropWhile, splitAt_eq_ok_iff, nameEnd_eq]
  exact ⟨(List.takeWhile_append_dropWhile ..).symm, rfl⟩

/-- **A name is cut off between characters**, and is the one that is read. -/
theorem name_eq (rest : List Char) : name rest = settled (readName rest) := by
  by_cases hstar : ∃ cs, rest = '*' :: cs
  · obtain ⟨cs, rfl⟩ := hstar
    rfl
  · have hne : ∀ cs, rest = '*' :: cs → False := fun cs h => hstar ⟨cs, h⟩
    rw [name, readName, splitAt_nameEnd, liftM_ok_bind]
    · rcases rest.span isNameChar with ⟨_ | ⟨c, before⟩, after⟩
      · rfl
      · cases after with
        | nil => rfl
        | cons d after =>
          by_cases hcolon : d = ':'
          · rw [hcolon]
            rfl
          · simp only [List.cons.injEq, hcolon, false_and, imp_self, implies_true]
            rfl
    · exact hne
    · exact hne

/-- The bracket stands behind the body of the predicate. -/
theorem bracket?_eq (quote : Option Char) (k : Nat) (cs acc : List Char) :
    bracket? quote (k + utf8Len acc) cs =
      (closeBracket quote cs acc).map fun r => k + utf8Len r.1 := by
  induction cs generalizing quote acc with
  | nil => cases quote <;> rfl
  | cons c cs ih =>
    rw [bracket?, closeBracket_cons]
    split
    · rw [Option.map_some, String.utf8Len_reverse]
    · rw [Nat.add_assoc, ← String.utf8Len_cons, ih]

theorem close?_eq (cs : List Char) :
    close? ('[' :: cs) = (closeBracket none cs []).map fun r => 1 + utf8Len r.1 :=
  bracket?_eq none 1 cs []

/-- **A predicate is cut out between characters**, and is the one that is read. -/
theorem predicate_eq {cs body rest : List Char} (h : closeBracket none cs [] = some (body, rest)) :
    predicate ('[' :: cs) = settled ((readBody body).map (·, rest)) := by
  have hclose : close? ('[' :: cs) = some (1 + utf8Len body) := by
    rw [close?_eq, h, Option.map_some]
  obtain rfl : cs = body ++ ']' :: rest := closeBracket_append h
  have hbody : slice 1 (1 + utf8Len body) ('[' :: (body ++ ']' :: rest)) = .ok body := by
    have := slice_append ['['] body (']' :: rest)
    rwa [String.utf8Len_append] at this
  have hrest : sliceFrom (1 + utf8Len body + 1) ('[' :: (body ++ ']' :: rest)) = .ok rest := by
    have := sliceFrom_append (['['] ++ (body ++ [']'])) rest
    rwa [String.utf8Len_append, String.utf8Len_append, ← Nat.add_assoc, List.append_assoc,
      List.append_assoc] at this
  rw [predicate, hclose]
  simp only [hbody, hrest, liftM_ok_bind]
  cases readBody body <;> rfl

theorem predicate_of_none {cs : List Char} (h : closeBracket none cs [] = none) :
    predicate ('[' :: cs) = settled (.error .openPredicate) := by
  have hclose : close? ('[' :: cs) = none := by
    rw [close?_eq, h, Option.map_none]
  rw [predicate, hclose]
  rfl

/-! ## Loops -/

section Rounds

variable {α : Type} {more : List Char → Bool} {round : α → List Char → Reading (α × List Char)}
  {a b : α} {rest rest' : List Char}

theorem rounds_of_not (h : more rest = false) : rounds more round a rest = pure (a, rest) := by
  rw [rounds, if_neg (by simp [h])]

theorem rounds_of_error {reason : Reason} (h : more rest = true)
    (hround : round a rest = settled (.error reason)) :
    rounds more round a rest = settled (.error reason) := by
  rw [rounds, if_pos h, hround]
  rfl

/-- A round that takes something from the text is followed by the next one. -/
theorem rounds_of_ok (h : more rest = true) (hround : round a rest = settled (.ok (b, rest')))
    (hlt : rest'.length < rest.length) : rounds more round a rest = rounds more round b rest' := by
  rw [rounds, if_pos h, hround]
  exact if_pos hlt

end Rounds

/-- A predicate takes its bracket at least. -/
theorem length_of_closeBracket {cs body rest : List Char}
    (h : closeBracket none cs [] = some (body, rest)) : rest.length < cs.length := by
  obtain rfl : cs = body ++ ']' :: rest := closeBracket_append h
  simp only [List.length_append, List.length_cons]
  omega

/-- **Predicates are read round by round**, each of which takes something from the text. -/
theorem predicates_eq {fuel : Nat} {rest : List Char} (hfuel : rest.length ≤ fuel)
    (acc : List Predicate) :
    predicates acc.reverse rest = settled (readPredicates fuel rest acc) := by
  fun_induction readPredicates fuel rest acc with
  | case1 fuel cs acc hclose =>
    refine rounds_of_error rfl ?_
    rw [onePredicate, predicate_of_none hclose]
    rfl
  | case2 fuel cs acc body rest hclose p hread ih =>
    have hlt := length_of_closeBracket hclose
    have hround : onePredicate acc.reverse ('[' :: cs) =
        settled (.ok ((p :: acc).reverse, rest)) := by
      rw [onePredicate, predicate_eq hclose, hread, List.reverse_cons]
      rfl
    rw [predicates, rounds_of_ok rfl hround (Nat.lt_succ_of_lt hlt)]
    exact ih (by rw [List.length_cons] at hfuel; omega)
  | case3 fuel cs acc body rest hclose reason hread =>
    refine rounds_of_error rfl ?_
    rw [onePredicate, predicate_eq hclose, hread]
    rfl
  | case4 fuel cs acc hmore =>
    have hhead : (cs.head? == some '[') = false := by
      cases cs with
      | nil => rfl
      | cons c cs =>
        cases fuel with
        | zero => cases hfuel
        | succ fuel =>
          rw [List.head?_cons, beq_eq_false_iff_ne]
          rintro ⟨⟩
          exact hmore _ _ rfl rfl
    rw [predicates, rounds_of_not hhead]
    rfl

theorem predicates_nil (rest : List Char) :
    predicates [] rest = settled (readPredicates rest.length rest []) :=
  predicates_eq (Nat.le_refl _) []

theorem length_of_readPredicates {fuel : Nat} {cs rest : List Char} {acc ps : List Predicate}
    (h : readPredicates fuel cs acc = .ok (ps, rest)) : rest.length ≤ cs.length := by
  obtain ⟨qs, text, -, rfl, -⟩ := Grammar.predicates_of_readPredicates h
  simp

/-- The marks of a step take something from the text. -/
theorem length_of_readAxis {cs rest : List Char} {axis : Axis}
    (h : readAxis cs = .ok (axis, rest)) : rest.length < cs.length := by
  obtain rfl := Grammar.eq_of_readAxis h
  cases axis with
  | child => exact Nat.lt_succ_self _
  | descendant => exact Nat.lt_succ_of_lt (Nat.lt_succ_self _)

theorem length_of_readName {cs name rest : List Char} (h : readName cs = .ok (name, rest)) :
    rest.length ≤ cs.length := by
  obtain rfl := Grammar.eq_of_readName h
  simp

section OneStep

variable {ss : List Step} {axis : Axis} {cs rest : List Char}

theorem oneStep_refused (haxis : readAxis cs = .ok (axis, '@' :: rest))
    (hstart : axis = .descendant ∨ ss = []) :
    oneStep ⟨ss, none⟩ cs = settled (.error .attributeWithoutElement) := by
  rw [oneStep, haxis]
  simp only [Option.isSome_none, Bool.false_eq_true, if_false, settled_ok_bind, if_pos hstart]
  rfl

/-- An attribute is the name behind the at sign. -/
theorem oneStep_attribute (haxis : readAxis cs = .ok (axis, '@' :: rest))
    (hstart : ¬(axis = .descendant ∨ ss = [])) :
    oneStep ⟨ss, none⟩ cs =
      name rest >>= fun r => pure (⟨ss, some (String.ofList r.1)⟩, r.2) := by
  rw [oneStep, haxis]
  simp only [Option.isSome_none, Bool.false_eq_true, if_false, settled_ok_bind, if_neg hstart]

/-- A step is a name with the predicates behind it. -/
theorem oneStep_named (haxis : readAxis cs = .ok (axis, rest)) (hat : ∀ r, rest ≠ '@' :: r) :
    oneStep ⟨ss, none⟩ cs =
      name rest >>= fun r => predicates [] r.2 >>= fun s =>
        pure (⟨ss ++ [⟨axis, nameTest r.1, s.1⟩], none⟩, s.2) := by
  rw [oneStep, haxis]
  simp only [Option.isSome_none, Bool.false_eq_true, if_false, settled_ok_bind]

end OneStep

theorem steps_of_error {p : Path} {rest : List Char} {reason : Reason} (hne : rest ≠ [])
    (h : oneStep p rest = settled (.error reason)) :
    Prod.fst <$> steps p rest = settled (.error reason) := by
  rw [steps, rounds_of_error (by simpa using hne) h]
  rfl

theorem steps_of_ok {p q : Path} {rest rest' : List Char} (hne : rest ≠ [])
    (h : oneStep p rest = settled (.ok (q, rest'))) (hlt : rest'.length < rest.length) :
    steps p rest = steps q rest' :=
  rounds_of_ok (by simpa using hne) h hlt

/-- **Steps are read round by round**, each of which takes something from the text. -/
theorem steps_eq {fuel : Nat} {rest : List Char} (hfuel : rest.length ≤ fuel) (acc : List Step) :
    Prod.fst <$> steps ⟨acc.reverse, none⟩ rest = settled (readSteps fuel rest acc) := by
  fun_induction readSteps fuel rest acc with
  | case1 fuel acc =>
    rw [steps, rounds_of_not rfl]
    rfl
  | case2 acc c cs => cases hfuel
  | case3 fuel cs acc hne reason haxis =>
    refine steps_of_error hne ?_
    rw [oneStep, haxis]
    rfl
  | case4 fuel cs acc hne axis rest haxis hstart =>
    exact steps_of_error hne (oneStep_refused haxis (by simpa using hstart))
  | case5 fuel cs acc hne axis rest haxis hstart =>
    have hround : oneStep ⟨acc.reverse, none⟩ cs = _ :=
      oneStep_attribute haxis (by simpa using hstart)
    rw [name_eq] at hround
    rw [readAttribute]
    cases hname : readName rest with
    | error reason =>
      rw [hname] at hround
      exact steps_of_error hne hround
    | ok r =>
      obtain ⟨name, after⟩ := r
      rw [hname] at hround
      have hlt : after.length < cs.length := by
        have haxis := length_of_readAxis haxis
        have hname := length_of_readName hname
        rw [List.length_cons] at haxis
        omega
      rw [steps_of_ok hne hround hlt]
      cases after with
      | nil =>
        rw [steps, rounds_of_not rfl]
        rfl
      | cons c after => exact steps_of_error (List.cons_ne_nil _ _) rfl
  | case6 fuel cs acc hne axis rest hat haxis reason hname =>
    refine steps_of_error hne ?_
    rw [oneStep_named haxis hat, name_eq, hname]
    rfl
  | case7 fuel cs acc hne axis rest hat haxis name after hname reason hpredicates =>
    refine steps_of_error hne ?_
    rw [oneStep_named haxis hat, name_eq, hname, settled_ok_bind, predicates_nil, hpredicates]
    rfl
  | case8 fuel cs acc hne axis rest hat haxis name after hname ps rest' hpredicates ih =>
    have hround : oneStep ⟨acc.reverse, none⟩ cs =
        settled (.ok (⟨acc.reverse ++ [⟨axis, nameTest name, ps⟩], none⟩, rest')) := by
      rw [oneStep_named haxis hat, name_eq, hname, settled_ok_bind, predicates_nil, hpredicates]
      rfl
    have hlt : rest'.length < cs.length := by
      have haxis := length_of_readAxis haxis
      have hname := length_of_readName hname
      have hpredicates := length_of_readPredicates hpredicates
      omega
    rw [steps_of_ok hne hround hlt, ← List.reverse_cons]
    exact ih (by omega)

theorem read_eq (cs : List Char) : read cs = settled (readList cs) := by
  cases cs with
  | nil => rfl
  | cons c cs =>
    rw [read, readList]
    split
    · exact steps_eq (Nat.le_refl _) []
    · rfl

/-- **No text brings about a fault**: every cut is within the text and between characters, every
round of a loop takes something, and what is read or refused is the same. -/
theorem parse_eq (source : String) : parse source = .ok (Path.parse source) := by
  rw [parse, read_eq, Path.parse]
  cases readList (trimList source.toList) <;> rfl

end Path.Offsets
end TradeIntake
