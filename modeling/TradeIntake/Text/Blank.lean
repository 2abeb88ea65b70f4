/-!
# Blank characters and trimming

`isBlank` holds of the characters with the property `White_Space`, all twenty-five of them.
`trim` takes the blanks off both ends of a text and touches nothing between.

Stands for the trimming that `parse` and `predicate` (`crates/ingest/src/path.rs`) and `text`
(`crates/ingest/src/document.rs`) do.

* **`trim_blank_free`**: a text with no blank at either end is left alone.
* **`head_trim`**, **`getLast_trim`**: what is left neither starts nor ends with a blank.
-/

namespace TradeIntake.Text

/-- The character has the property `White_Space`. -/
def isBlank (c : Char) : Bool :=
  let n := c.toNat
  (9 ≤ n && n ≤ 13) || n == 0x20 || n == 0x85 || n == 0xA0 || n == 0x1680 ||
    (0x2000 ≤ n && n ≤ 0x200A) || n == 0x2028 || n == 0x2029 || n == 0x202F || n == 0x205F ||
    n == 0x3000

/-- Space, tab, line feed, form feed or carriage return, as a byte. -/
def isBlankByte (b : UInt8) : Bool :=
  b == 0x20 || b == 0x09 || b == 0x0A || b == 0x0C || b == 0x0D

/-- Drop the leading blanks. -/
def trimStart (cs : List Char) : List Char :=
  cs.dropWhile isBlank

/-- Drop the trailing blanks. -/
def trimEnd (cs : List Char) : List Char :=
  (trimStart cs.reverse).reverse

/-- Drop the blanks at both ends. -/
def trimList (cs : List Char) : List Char :=
  trimEnd (trimStart cs)

/-- Drop the blanks at both ends of a text. -/
def trim (s : String) : String :=
  String.ofList (trimList s.toList)

/-- The trimmed text, unless nothing is left of it. -/
def nonBlank? (s : String) : Option String :=
  let t := trim s
  if t.isEmpty then none else some t

/-! ## What trimming leaves -/

theorem head?_dropWhile_isBlank (cs : List Char) :
    ∀ c ∈ (cs.dropWhile isBlank).head?, isBlank c = false := by
  intro c hc
  have := List.head?_dropWhile_not isBlank cs
  cases h : (cs.dropWhile isBlank).head? with
  | none => simp [h] at hc
  | some d =>
    rw [h] at this hc
    simp only [Option.mem_def, Option.some.injEq] at hc
    subst hc
    simpa using this

/-- A text with no blank at either end is left alone. -/
theorem trim_blank_free {cs : List Char} (hs : ∀ c ∈ cs.head?, isBlank c = false)
    (he : ∀ c ∈ cs.getLast?, isBlank c = false) : trimList cs = cs := by
  have drop : ∀ {ds : List Char}, (∀ c ∈ ds.head?, isBlank c = false) →
      ds.dropWhile isBlank = ds := by
    intro ds hd
    cases ds with
    | nil => rfl
    | cons d ds => simp [hd d (by simp)]
  have h1 : trimStart cs = cs := drop hs
  have h2 : trimStart cs.reverse = cs.reverse := drop (by simpa using he)
  rw [trimList, h1, trimEnd, h2, List.reverse_reverse]

theorem getLast_trim (cs : List Char) : ∀ c ∈ (trimList cs).getLast?, isBlank c = false := by
  intro c hc
  refine head?_dropWhile_isBlank (trimStart cs).reverse c ?_
  simpa [trimList, trimEnd, trimStart] using hc

theorem head_trim (cs : List Char) : ∀ c ∈ (trimList cs).head?, isBlank c = false := by
  intro c hc
  have hpre : trimList cs <+: trimStart cs := by
    have := List.reverse_prefix.mpr
      (List.dropWhile_suffix (p := isBlank) (l := (trimStart cs).reverse))
    simpa [trimList, trimEnd, trimStart] using this
  refine head?_dropWhile_isBlank cs c ?_
  obtain ⟨t, ht⟩ := hpre
  cases h : trimList cs with
  | nil => simp [h] at hc
  | cons d ds =>
    rw [h] at hc ht
    have : (cs.dropWhile isBlank) = d :: (ds ++ t) := by simpa [trimStart] using ht.symm
    rw [this]
    simpa using hc

end TradeIntake.Text
