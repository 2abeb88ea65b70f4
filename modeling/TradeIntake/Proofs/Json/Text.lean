import Mathlib.Data.List.TakeDrop
import Mathlib.Data.List.TakeWhile
import TradeIntake.Json.Value

/-!
# JSON text read back

What is written of a value is read in two passes. The lexer takes the text of the tokens apart: a
token with an end of its own is read whatever follows, a bare word or a number as far as a delimiter
(`Lexes`). The reader puts the tokens together again: the tokens of a value leave it where the value
has been supplied to the containers around it (`Reads`). Both are said of any continuation, so that
they can be put together along the value.

* **`lexFrom_escapeChar`**: a character of a string literal reads back, however it is escaped.
* **`lexFrom_render`**: a token reads back.
* **`parse?_write`**: a value whose numbers are number literals reads back.
-/

namespace TradeIntake.Json

/-! ## Number literals -/

theorem inNumber_of_isDigit {c : Char} (h : c.isDigit = true) : inNumber c = true := by
  simp [inNumber, h]

theorem inNumber_of_isDigits {cs : List Char} (h : isDigits cs = true) :
    ∀ c ∈ cs, inNumber c = true := by
  simp only [isDigits, Bool.and_eq_true, List.all_eq_true] at h
  exact fun c hc => inNumber_of_isDigit (h.2 c hc)

theorem inNumber_of_isExponent {cs : List Char} (h : isExponent cs = true) :
    ∀ c ∈ cs, inNumber c = true := by
  unfold isExponent at h
  split at h
  · exact List.forall_mem_cons.mpr ⟨by decide, inNumber_of_isDigits h⟩
  · exact List.forall_mem_cons.mpr ⟨by decide, inNumber_of_isDigits h⟩
  · exact inNumber_of_isDigits h

/-- The mark of an exponent and the exponent. -/
theorem inNumber_of_marked {c : Char} {cs : List Char}
    (h : ((c == 'e' || c == 'E') && isExponent cs) = true) : ∀ d ∈ c :: cs, inNumber d = true := by
  simp only [Bool.and_eq_true, Bool.or_eq_true, beq_iff_eq] at h
  refine List.forall_mem_cons.mpr ⟨?_, inNumber_of_isExponent h.2⟩
  rcases h.1 with rfl | rfl <;> decide

/-- A run of digits, and what follows it. -/
theorem inNumber_of_span {cs : List Char}
    (h : ∀ c ∈ (cs.span Char.isDigit).2, inNumber c = true) : ∀ c ∈ cs, inNumber c = true := by
  rw [List.span_eq_takeWhile_dropWhile] at h
  intro c hc
  rw [← List.takeWhile_append_dropWhile (p := Char.isDigit) (l := cs)] at hc
  rcases List.mem_append.mp hc with hc | hc
  · exact inNumber_of_isDigit (List.mem_takeWhile_imp hc)
  · exact h c hc

theorem inNumber_of_isTail {cs : List Char} (h : isTail cs = true) :
    ∀ c ∈ cs, inNumber c = true := by
  unfold isTail at h
  split at h
  · simp
  · rename_i cs
    refine List.forall_mem_cons.mpr ⟨by decide, inNumber_of_span ?_⟩
    simp only [Bool.and_eq_true] at h
    obtain ⟨-, h⟩ := h
    split at h
    · rename_i hrest
      rw [hrest]
      simp
    · rename_i hrest
      rw [hrest]
      exact inNumber_of_marked h
  · exact inNumber_of_marked h

theorem inNumber_of_isUnsigned {cs : List Char} (h : isUnsigned cs = true) :
    ∀ c ∈ cs, inNumber c = true := by
  unfold isUnsigned at h
  split at h
  · exact List.forall_mem_cons.mpr ⟨by decide, inNumber_of_isTail h⟩
  · simp only [Bool.and_eq_true] at h
    exact inNumber_of_span (inNumber_of_isTail h.2)

/-- A number literal without its sign starts with a digit. -/
theorem exists_digit_of_isUnsigned {cs : List Char} (h : isUnsigned cs = true) :
    ∃ c ds, cs = c :: ds ∧ c.isDigit = true := by
  unfold isUnsigned at h
  split at h
  · exact ⟨'0', _, rfl, by decide⟩
  · rw [List.span_eq_takeWhile_dropWhile] at h
    cases cs with
    | nil => simp at h
    | cons c cs =>
      refine ⟨c, cs, rfl, ?_⟩
      by_contra hc
      simp [hc] at h

/-- **The characters of a number literal**: a digit or a minus sign, and more that may stand in a
number. -/
theorem exists_start_of_isNumber {cs : List Char} (h : isNumber cs = true) :
    ∃ c ds, cs = c :: ds ∧ (c.isDigit || c == '-') = true ∧ ∀ d ∈ ds, inNumber d = true := by
  unfold isNumber at h
  split at h
  · exact ⟨'-', _, rfl, by decide, inNumber_of_isUnsigned h⟩
  · have hall := inNumber_of_isUnsigned h
    obtain ⟨c, ds, rfl, hc⟩ := exists_digit_of_isUnsigned h
    exact ⟨c, ds, rfl, by simp [hc], fun d hd => hall d (List.mem_cons_of_mem c hd)⟩

/-! ## Text to tokens -/

/-- No bare word or number runs on into what follows. -/
def Delimited (rest : List Char) : Prop :=
  ∀ c ∈ rest.head?, c.isAlpha = false ∧ inNumber c = false

theorem delimited_nil : Delimited [] := by simp [Delimited]

/-- A bare word ends where a delimiter stands. -/
theorem lexFrom_word (letters : List Char) {t : Token} (ht : wordToken? letters.reverse = some t)
    {rest : List Char} (hr : Delimited rest) (acc : List Token) :
    lexFrom (.word letters) rest acc = lexFrom .between rest (t :: acc) := by
  cases rest with
  | nil => simp [lexFrom, ht]
  | cons c rest =>
    have hc := (hr c rfl).1
    simp [lexFrom, lexStep, hc, ht]

theorem lexFrom_number {chars : List Char} {t : Token} (ht : numberToken? chars.reverse = some t)
    {rest : List Char} (hr : Delimited rest) (acc : List Token) :
    lexFrom (.number chars) rest acc = lexFrom .between rest (t :: acc) := by
  cases rest with
  | nil => simp [lexFrom, ht]
  | cons c rest =>
    have hc := (hr c rfl).2
    simp [lexFrom, lexStep, hc, ht]

/-- The characters of a number literal are taken one by one. -/
theorem lexFrom_number_append {cs : List Char} (h : ∀ c ∈ cs, inNumber c = true)
    (chars rest : List Char) (acc : List Token) :
    lexFrom (.number chars) (cs ++ rest) acc = lexFrom (.number (cs.reverse ++ chars)) rest acc := by
  induction cs generalizing chars with
  | nil => rfl
  | cons c cs ih =>
    have hc := h c List.mem_cons_self
    rw [List.cons_append, List.reverse_cons, List.append_assoc, List.singleton_append, ← ih
      fun d hd => h d (List.mem_cons_of_mem c hd)]
    simp [lexFrom, lexStep, hc]

/-- A literal that was read so far without a surrogate. -/
def Literal.plain (chars : List Char) : Literal := ⟨chars, none, false⟩

theorem Literal.push_plain (chars : List Char) (c : Char) :
    (Literal.plain chars).push c = .plain (c :: chars) := rfl

theorem pushUnit_plain (chars : List Char) {c : Char} (hc : c.toNat < 0x20) :
    (Literal.plain chars).pushUnit c.toNat = .plain (c :: chars) := by
  unfold Literal.pushUnit
  rw [if_neg (by simp; omega), if_neg (by simp; omega), Char.ofNat_toNat, Literal.push_plain]

/-- A character stands in a literal as a one-letter escape, as four hexadecimal digits, or as
itself. -/
theorem escapeChar_cases (c : Char) :
    (∃ d, escapeChar c = ['\\', d] ∧ (d == 'u') = false ∧ unescape? d = some c) ∨
    (c.toNat < 0x20 ∧ escapeChar c =
      ['\\', 'u', '0', '0', Text.Hex.digit (c.toNat / 16), Text.Hex.digit c.toNat]) ∨
    ((c == '"') = false ∧ (c == '\\') = false ∧ ¬ c.toNat < 0x20 ∧ escapeChar c = [c]) := by
  -- every escape of one letter stands for a character of its own
  have letter : ∀ {a d : Char}, (c == a) = true → (d == 'u') = false → unescape? d = some a →
      ∃ e, ['\\', d] = ['\\', e] ∧ (e == 'u') = false ∧ unescape? e = some c := by
    intro a d hc hd hu
    exact ⟨d, rfl, hd, (beq_iff_eq.mp hc).symm ▸ hu⟩
  unfold escapeChar
  iterate 7
    split
    · exact Or.inl (letter ‹_› rfl rfl)
  split
  · exact Or.inr (Or.inl ⟨‹_›, rfl⟩)
  · simp_all

/-- **A character of a string literal** reads back, however it is escaped. -/
theorem lexFrom_escapeChar (chars : List Char) (c : Char) (rest : List Char) (acc : List Token) :
    lexFrom (.literal (.plain chars)) (escapeChar c ++ rest) acc =
      lexFrom (.literal (.plain (c :: chars))) rest acc := by
  rcases escapeChar_cases c with ⟨d, he, hd, hu⟩ | ⟨hc, he⟩ | ⟨hquote, hslash, hc, he⟩
  · rw [he]
    simp only [List.cons_append, List.nil_append, lexFrom, lexStep, hd, hu]
    simp [Literal.push_plain]
  · have hunit : (c.toNat / 16) % 16 * 16 + c.toNat % 16 = c.toNat := by omega
    have hzero : Text.Hex.value? '0' = some 0 := by decide
    rw [he]
    simp [lexFrom, lexStep, hzero, Text.Hex.value?_digit, hunit, pushUnit_plain chars hc]
  · rw [he]
    simp [lexFrom, lexStep, hquote, hslash, hc, Literal.push_plain]

/-- The rest of a string literal, up to its closing quote. -/
theorem lexFrom_literal (chars cs rest : List Char) (acc : List Token) :
    lexFrom (.literal (.plain chars)) (cs.flatMap escapeChar ++ '"' :: rest) acc =
      lexFrom .between rest (.string (some (String.ofList (chars.reverse ++ cs))) :: acc) := by
  induction cs generalizing chars with
  | nil =>
    rw [List.append_nil]
    rfl
  | cons c cs ih =>
    rw [List.flatMap_cons, List.append_assoc, lexFrom_escapeChar, ih]
    simp

/-- A number literal is recognised by its first character. -/
theorem start_number {c : Char} (h : (c.isDigit || c == '-') = true) (acc : List Token) :
    start c acc = some (.number [c], acc) := by
  have hblank : (c == ' ' || c == '\n' || c == '\r' || c == '\t') = false := by
    by_contra hb
    simp only [Bool.not_eq_false, Bool.or_eq_true, beq_iff_eq] at hb
    rcases hb with ((rfl | rfl) | rfl) | rfl <;> exact absurd h (by decide)
  have hquote : (c == '"') = false := by
    by_contra hq
    simp only [Bool.not_eq_false, beq_iff_eq] at hq
    subst hq
    exact absurd h (by decide)
  unfold start
  rw [hblank, hquote, h]
  rfl

/-- A token that has no end of its own. -/
def Token.isBare : Token → Bool
  | .null | .bool _ | .number _ => true
  | _ => false

/-- **A token reads back**, whatever follows, if it is not a bare one that runs on. -/
theorem lexFrom_render {t : Token} (ht : ∀ literal, t = .number literal → isNumber literal.toList)
    {rest : List Char} (hr : t.isBare = true → Delimited rest) (acc : List Token) :
    lexFrom .between (t.render ++ rest) acc = lexFrom .between rest (t :: acc) := by
  cases t with
  | openArray | closeArray | openObject | closeObject | comma | colon => rfl
  | null => exact lexFrom_word ['l', 'l', 'u', 'n'] rfl (hr rfl) acc
  | bool b =>
    cases b with
    | true => exact lexFrom_word ['e', 'u', 'r', 't'] rfl (hr rfl) acc
    | false => exact lexFrom_word ['e', 's', 'l', 'a', 'f'] rfl (hr rfl) acc
  | number literal =>
    have hnumber := ht literal rfl
    obtain ⟨c, ds, hcs, hc, hds⟩ := exists_start_of_isNumber hnumber
    have htoken : numberToken? (ds.reverse ++ [c]).reverse = some (.number literal) := by
      rw [List.reverse_append, List.reverse_reverse]
      change numberToken? (c :: ds) = _
      rw [← hcs, numberToken?, if_pos hnumber, String.ofList_toList]
    rw [Token.render, hcs, List.cons_append, lexFrom]
    simp only [lexStep, start_number hc]
    rw [lexFrom_number_append hds, lexFrom_number htoken (hr rfl)]
  | string text? =>
    cases text? with
    | none => rfl
    | some s =>
      change lexFrom (.literal (.plain [])) ((s.toList.flatMap escapeChar ++ ['"']) ++ rest) acc = _
      rw [List.append_assoc, List.singleton_append, lexFrom_literal, List.reverse_nil,
        List.nil_append, String.ofList_toList]

/-! ## Values -/

/-- **Every number is a literal**, at any depth. -/
inductive WellFormed : Json → Prop
  | null : WellFormed .null
  | bool (b : Bool) : WellFormed (.bool b)
  | number (literal : String) (h : isNumber literal.toList = true) : WellFormed (.number literal)
  | string (s : String) : WellFormed (.string s)
  | array (items : List Json) (h : ∀ v ∈ items, WellFormed v) : WellFormed (.array items)
  | object (members : List (String × Json)) (h : ∀ m ∈ members, WellFormed m.2) :
    WellFormed (.object members)
  | unreadable : WellFormed .unreadable

/-- The text of tokens. -/
def renderAll (ts : List Token) : List Char := ts.flatMap Token.render

@[simp]
theorem renderAll_cons (t : Token) (ts : List Token) :
    renderAll (t :: ts) = t.render ++ renderAll ts := rfl

@[simp]
theorem renderAll_append (ts us : List Token) :
    renderAll (ts ++ us) = renderAll ts ++ renderAll us := List.flatMap_append

theorem delimited_itemTokens (vs : List Json) (rest : List Char) :
    Delimited (renderAll (itemTokens vs) ++ rest) := by
  cases vs <;> simp [itemTokens, Token.render, Delimited, inNumber]

theorem delimited_memberTokens (ms : List (String × Json)) (rest : List Char) :
    Delimited (renderAll (memberTokens ms) ++ rest) := by
  cases ms <;> simp [memberTokens, Token.render, Delimited, inNumber]

/-- **Tokens read back** from their text, before that rest. -/
def Lexes (ts : List Token) (rest : List Char) : Prop :=
  ∀ acc, lexFrom .between (renderAll ts ++ rest) acc = lexFrom .between rest (ts.reverse ++ acc)

namespace Lexes

variable {rest : List Char}

theorem append {ts us : List Token} (h : Lexes ts (renderAll us ++ rest)) (h' : Lexes us rest) :
    Lexes (ts ++ us) rest := by
  intro acc
  rw [renderAll_append, List.append_assoc, h, h', List.reverse_append, List.append_assoc]

theorem nil : Lexes [] rest := fun _ => rfl

/-- A token with an end of its own. -/
theorem cons {t : Token} {ts : List Token} (ht : t.isBare = false) (h : Lexes ts rest) :
    Lexes (t :: ts) rest := by
  intro acc
  rw [renderAll_cons, List.append_assoc, lexFrom_render (fun l hl => by simp [hl, Token.isBare] at ht)
    (fun hb => by simp [hb] at ht), h, List.reverse_cons, List.append_assoc,
    List.singleton_append]

/-- A bare token. -/
theorem bare {t : Token} (ht : ∀ literal, t = .number literal → isNumber literal.toList)
    (hr : Delimited rest) : Lexes [t] rest := by
  intro acc
  rw [renderAll_cons, List.append_assoc]
  exact lexFrom_render ht (fun _ => hr) acc

end Lexes

theorem lexes_itemTokens {vs : List Json}
    (h : ∀ v ∈ vs, ∀ rest, Delimited rest → Lexes v.tokens rest) (rest : List Char) :
    Lexes (itemTokens vs) rest := by
  induction vs with
  | nil => exact .cons rfl .nil
  | cons v vs ih =>
    have hv := h v List.mem_cons_self _ (delimited_itemTokens vs rest)
    exact .cons rfl (hv.append (ih fun w hw => h w (List.mem_cons_of_mem v hw)))

theorem lexes_memberTokens {ms : List (String × Json)}
    (h : ∀ m ∈ ms, ∀ rest, Delimited rest → Lexes m.2.tokens rest) (rest : List Char) :
    Lexes (memberTokens ms) rest := by
  induction ms with
  | nil => exact .cons rfl .nil
  | cons m ms ih =>
    have hm := h m List.mem_cons_self _ (delimited_memberTokens ms rest)
    exact .cons rfl (.cons rfl (.cons rfl
      (hm.append (ih fun k hk => h k (List.mem_cons_of_mem m hk)))))

/-- **The text of a value has the tokens of the value.** -/
theorem WellFormed.lexes {v : Json} (h : WellFormed v) :
    ∀ rest, Delimited rest → Lexes v.tokens rest := by
  induction h with
  | null | bool | unreadable => exact fun rest hr => .bare (by simp) hr
  | string s => exact fun rest hr => .cons rfl .nil
  | number literal hl =>
    refine fun rest hr => .bare ?_ hr
    rintro l ⟨⟩
    exact hl
  | array items _ ih =>
    intro rest hr
    cases items with
    | nil => exact .cons rfl (.cons rfl .nil)
    | cons v vs =>
      have hv := ih v List.mem_cons_self _ (delimited_itemTokens vs rest)
      exact .cons rfl (hv.append
        (lexes_itemTokens (fun w hw => ih w (List.mem_cons_of_mem v hw)) rest))
  | object members _ ih =>
    intro rest hr
    cases members with
    | nil => exact .cons rfl (.cons rfl .nil)
    | cons m ms =>
      have hm := ih m List.mem_cons_self _ (delimited_memberTokens ms rest)
      exact .cons rfl (.cons rfl (.cons rfl (hm.append
        (lexes_memberTokens (fun k hk => ih k (List.mem_cons_of_mem m hk)) rest))))

/-! ## Tokens to values -/

/-- A value starts with a token that closes nothing. -/
theorem exists_tokens_eq_cons (v : Json) :
    ∃ t ts, v.tokens = t :: ts ∧ t ≠ .closeArray := by
  rcases v with _ | _ | _ | _ | (_ | ⟨v, vs⟩) | (_ | ⟨m, ms⟩) | _ <;>
    exact ⟨_, _, rfl, by simp⟩

/-- **A value is read and supplied** to the containers around it. -/
def Reads (v : Json) : Prop :=
  ∀ stack ts, readFrom (.value stack) (v.tokens ++ ts) = readFrom (supply v stack) ts

theorem readFrom_itemTokens {vs : List Json} (h : ∀ v ∈ vs, Reads v) (done : List Json)
    (outer : List Frame) (ts : List Token) :
    readFrom (.next (.array done :: outer)) (itemTokens vs ++ ts) =
      readFrom (supply (.array (done.reverse ++ vs)) outer) ts := by
  induction vs generalizing done with
  | nil =>
    rw [List.append_nil]
    rfl
  | cons v vs ih =>
    have hv := h v List.mem_cons_self (.array done :: outer) (itemTokens vs ++ ts)
    change readFrom (.value (.array done :: outer)) ((v.tokens ++ itemTokens vs) ++ ts) = _
    rw [List.append_assoc, hv]
    change readFrom (.next (.array (v :: done) :: outer)) _ = _
    rw [ih fun w hw => h w (List.mem_cons_of_mem v hw)]
    simp

theorem readFrom_memberTokens {ms : List (String × Json)} (h : ∀ m ∈ ms, Reads m.2)
    (done : List (String × Json)) (name : String) (outer : List Frame) (ts : List Token) :
    readFrom (.next (.object done true name :: outer)) (memberTokens ms ++ ts) =
      readFrom (supply (.object (done.reverse ++ ms)) outer) ts := by
  induction ms generalizing done name with
  | nil =>
    rw [List.append_nil]
    rfl
  | cons m ms ih =>
    obtain ⟨k, v⟩ := m
    have hv := h _ List.mem_cons_self (.object done true k :: outer) (memberTokens ms ++ ts)
    change readFrom (.value (.object done true k :: outer)) ((v.tokens ++ memberTokens ms) ++ ts) = _
    rw [List.append_assoc, hv]
    change readFrom (.next (.object ((k, v) :: done) true k :: outer)) _ = _
    rw [ih fun w hw => h w (List.mem_cons_of_mem _ hw)]
    simp

/-- The first item of an array is read as any value is. -/
theorem readFrom_firstItem (v : Json) (outer : List Frame) (ts : List Token) :
    readFrom (.firstItem (.array [] :: outer)) (v.tokens ++ ts) =
      readFrom (.value (.array [] :: outer)) (v.tokens ++ ts) := by
  obtain ⟨t, us, hv, ht⟩ := exists_tokens_eq_cons v
  have hstep : readStep (.firstItem (.array [] :: outer)) t = readValue (.array [] :: outer) t := by
    cases t with
    | closeArray => exact absurd rfl ht
    | _ => rfl
  rw [hv, List.cons_append, readFrom, readFrom, hstep]
  rfl

/-- **The tokens of a value stand for the value.** -/
theorem WellFormed.reads {v : Json} (h : WellFormed v) : Reads v := by
  induction h with
  | null | bool | string | number | unreadable => exact fun _ _ => rfl
  | array items _ ih =>
    cases items with
    | nil => exact fun _ _ => rfl
    | cons v vs =>
      intro stack ts
      have hv := ih v List.mem_cons_self (.array [] :: stack) (itemTokens vs ++ ts)
      change readFrom (.firstItem (.array [] :: stack)) ((v.tokens ++ itemTokens vs) ++ ts) = _
      rw [List.append_assoc, readFrom_firstItem, hv]
      exact readFrom_itemTokens (fun w hw => ih w (List.mem_cons_of_mem v hw)) [v] stack ts
  | object members _ ih =>
    cases members with
    | nil => exact fun _ _ => rfl
    | cons m ms =>
      intro stack ts
      obtain ⟨k, v⟩ := m
      have hv := ih _ List.mem_cons_self (.object [] true k :: stack) (memberTokens ms ++ ts)
      change readFrom (.value (.object [] true k :: stack)) ((v.tokens ++ memberTokens ms) ++ ts) = _
      rw [List.append_assoc, hv]
      exact readFrom_memberTokens (fun w hw => ih w (List.mem_cons_of_mem _ hw)) [(k, v)] k stack ts

/-- **A value reads back from its text.** -/
theorem parse?_write {v : Json} (h : WellFormed v) : parse? v.write = some v := by
  have hlex : lex (renderAll v.tokens) = some v.tokens := by
    have hall := h.lexes [] delimited_nil []
    rw [List.append_nil, List.append_nil] at hall
    rw [lex, hall, lexFrom, List.reverse_reverse]
  have hread := h.reads [] []
  rw [List.append_nil] at hread
  unfold parse? write
  rw [String.toList_ofList]
  change (lex (renderAll v.tokens)).bind ofTokens? = some v
  rw [hlex, Option.bind_some, ofTokens?, hread]
  rfl

end TradeIntake.Json
