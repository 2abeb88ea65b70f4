import TradeIntake.Proofs.Except
import TradeIntake.Xml.Token

/-!
# The order of tags

A scan stands in a start tag or outside tags. It enters one with the token that starts it and leaves
it with the token that ends it; between the two there are attributes only, and outside there are
none. What place comes next is decided by the token alone.

* **`follows_scanStep`**: one step enters and leaves tags as its token says.
* **`sequenced_scan`**: the tokens of a scan come in that order.
-/

namespace TradeIntake.Xml

/-! ## Tokens in their order -/

/-- Whether a start tag is under way after a token, when `within` says whether one is before it;
none for a token that may not stand there. -/
def Token.within? (within : Bool) : Token → Option Bool
  | .startTag _ => if within then none else some true
  | .attribute .. => if within then some true else none
  | .tagEnd | .emptyTagEnd => if within then some false else none
  | _ => if within then none else some false

/-- Start tags are ended before another tag, and nothing but attributes stands in them. -/
def Sequenced : Bool → List Token → Prop
  | _, [] => True
  | within, t :: ts => ∃ next, t.within? within = some next ∧ Sequenced next ts

/-- A start tag is under way. -/
def Position.inTag (p : Position) : Bool := p.place = .tag

/-- The step goes on as its token says. -/
def Position.Follows (p : Position) (t : Option Token) (next : Position) : Prop :=
  match t with
  | none => next.inTag = p.inTag
  | some t => t.within? p.inTag = some next.inTag

theorem inTag_after (depth k : Nat) (rest : List Char) :
    (⟨Place.after depth, k, rest⟩ : Position).inTag = false := by
  unfold Position.inTag Place.after
  split <;> rfl

/-! ## One step -/

section Steps

variable {p next : Position} {t : Option Token}

theorem follows_some {token : Token} {within : Bool} (hp : p.inTag = within)
    (h : token.within? within = some next.inTag) : p.Follows (some token) next := by
  unfold Position.Follows
  rw [hp]
  exact h

/-- Outside tags, a token that is no part of a tag leaves the scan where it is. -/
theorem follows_stay {token : Token} (hp : p.inTag = false)
    (htoken : token.within? false = some false) (rest : List Char) :
    p.Follows (some token) { p with ahead := rest } :=
  follows_some hp (htoken.trans (congrArg some hp.symm))

/-- A step that goes on after reading goes on as it does for whatever was read. -/
theorem follows_map {α : Type} {x : Except Fault α} {f : α → Option Token × Position}
    (h : x.map f = .ok (t, next)) (hf : ∀ a, p.Follows (f a).1 (f a).2) : p.Follows t next := by
  obtain ⟨a, -, hnext⟩ := Except.map_eq_ok_iff.mp h
  have := hf a
  rwa [hnext] at this

theorem follows_move {rest : Except Fault (List Char)} {token : Token} (hp : p.inTag = false)
    (htoken : token.within? false = some false) (h : p.move rest token = .ok (t, next)) :
    p.Follows t next :=
  follows_map h (follows_stay hp htoken)

theorem follows_misc {r : Except Fault (Option Token × Position)} (hp : p.inTag = false)
    (hmisc : misc? p = some r) (h : r = .ok (t, next)) : p.Follows t next := by
  subst h
  unfold misc? at hmisc
  split at hmisc
  · exact follows_move hp rfl (Option.some.inj hmisc)
  · exact follows_move hp rfl (Option.some.inj hmisc)
  · cases hmisc

theorem follows_blank (h : blank p = .ok (t, next)) : p.Follows t next :=
  follows_map h fun _ => rfl

theorem follows_startTag {cs : List Char} (hp : p.inTag = false)
    (h : startTag p cs = .ok (t, next)) : p.Follows t next :=
  follows_map h fun _ => follows_some hp rfl

theorem follows_inProlog {doctypeAllowed : Bool} (hp : p.inTag = false)
    (h : inProlog p doctypeAllowed = .ok (t, next)) : p.Follows t next := by
  unfold inProlog at h
  split at h
  · refine follows_map h ?_
    rintro ⟨more, rest⟩
    cases more <;> exact follows_some hp rfl
  · split at h
    · rename_i hmisc
      exact follows_misc hp hmisc h
    · split at h
      · cases h
      · exact follows_startTag hp h
      · exact follows_blank h

theorem follows_inSubset (hp : p.inTag = false) (h : inSubset p = .ok (t, next)) :
    p.Follows t next := by
  unfold inSubset at h
  dsimp only at h
  split at h
  · exact follows_move hp rfl h
  · split at h
    · rename_i hmisc
      exact follows_misc hp hmisc h
    · split at h
      · exact follows_map h fun _ => follows_some hp rfl
      · split at h
        · exact follows_move hp rfl h
        · exact follows_blank h

/-- In a start tag there are its attributes and its end. -/
theorem inTag_eq_ok {cs rest : List Char} {token : Token} (h : inTag cs = .ok (token, rest)) :
    token = .emptyTagEnd ∨ token = .tagEnd ∨ ∃ n value, token = .attribute n value := by
  unfold inTag at h
  split at h
  · obtain ⟨_, -, hnext⟩ := Except.map_eq_ok_iff.mp h
    exact Or.inl (Prod.mk.inj hnext).1.symm
  · exact Or.inr (Or.inl (Prod.mk.inj (Except.ok.inj h)).1.symm)
  · obtain ⟨-, -, h⟩ := Except.bind_eq_ok_iff.mp h
    obtain ⟨⟨n, rest⟩, -, h⟩ := Except.bind_eq_ok_iff.mp h
    obtain ⟨rest, -, h⟩ := Except.bind_eq_ok_iff.mp h
    obtain ⟨⟨value, rest⟩, -, h⟩ := Except.bind_eq_ok_iff.mp h
    exact Or.inr (Or.inr ⟨n, value, (Prod.mk.inj (Except.ok.inj h)).1.symm⟩)

theorem follows_inStartTag (hp : p.inTag = true) (h : inStartTag p = .ok (t, next)) :
    p.Follows t next := by
  obtain ⟨⟨token, rest⟩, htoken, hnext⟩ := Except.map_eq_ok_iff.mp h
  rcases inTag_eq_ok htoken with rfl | rfl | ⟨n, value, rfl⟩
  · obtain ⟨rfl, rfl⟩ := Prod.mk.inj hnext
    exact follows_some hp (congrArg some (inTag_after _ _ _).symm)
  · obtain ⟨rfl, rfl⟩ := Prod.mk.inj hnext
    exact follows_some hp (congrArg some (inTag_after _ _ _).symm)
  · obtain ⟨rfl, rfl⟩ := Prod.mk.inj hnext
    exact follows_some hp (congrArg some hp.symm)

theorem follows_inContent (hp : p.inTag = false) (h : inContent p = .ok (t, next)) :
    p.Follows t next := by
  unfold inContent at h
  split at h
  · exact follows_map h fun _ => follows_some hp (congrArg some (inTag_after _ _ _).symm)
  · exact follows_map h fun _ => follows_stay hp rfl _
  · split at h
    · rename_i hmisc
      exact follows_misc hp hmisc h
    · split at h
      · cases h
      · exact follows_startTag hp h
      · exact follows_map h fun _ => follows_stay hp rfl _

/-- **Each step of a scan goes on as its token says.** -/
theorem follows_scanStep (h : scanStep p = .ok (t, next)) : p.Follows t next := by
  have htag : p.inTag = decide (p.place = .tag) := rfl
  unfold scanStep at h
  cases hplace : p.place with
  | prolog doctypeAllowed =>
    rw [hplace] at h htag
    exact follows_inProlog htag h
  | subset =>
    rw [hplace] at h htag
    exact follows_inSubset htag h
  | tag =>
    rw [hplace] at h htag
    exact follows_inStartTag htag h
  | content =>
    rw [hplace] at h htag
    exact follows_inContent htag h
  | epilog =>
    rw [hplace] at h htag
    unfold inEpilog at h
    dsimp only at h
    split at h
    · rename_i hmisc
      exact follows_misc htag hmisc h
    · exact follows_blank h

end Steps

/-! ## The scan -/

/-- What a scan adds to its tokens comes in the order of tags. -/
theorem sequenced_scanFrom (steps : Nat) (p : Position) (acc : List Token) :
    ∃ ts, (scanFrom steps p acc).tokens = acc.reverse ++ ts ∧ Sequenced p.inTag ts := by
  induction steps generalizing p acc with
  | zero => exact ⟨[], (List.append_nil _).symm, trivial⟩
  | succ steps ih =>
    unfold scanFrom
    split
    · exact ⟨[], (List.append_nil _).symm, trivial⟩
    · split
      · exact ⟨[], (List.append_nil _).symm, trivial⟩
      · rename_i next hstep
        obtain ⟨ts, hts, hseq⟩ := ih next acc
        have hnext : next.inTag = p.inTag := follows_scanStep hstep
        exact ⟨ts, hts, hnext ▸ hseq⟩
      · rename_i t next hstep
        obtain ⟨ts, hts, hseq⟩ := ih next (t :: acc)
        refine ⟨t :: ts, ?_, next.inTag, follows_scanStep hstep, hseq⟩
        rw [hts, List.reverse_cons, List.append_assoc]
        rfl

/-- **The tokens of a scan come in the order of tags**, up to its fault. -/
theorem sequenced_scan (text : List Char) : Sequenced false (scan text).tokens := by
  have plain (cs : List Char) :
      Sequenced false (scanFrom cs.length ⟨.prolog true, 0, cs⟩ []).tokens := by
    obtain ⟨ts, hts, hseq⟩ := sequenced_scanFrom cs.length ⟨.prolog true, 0, cs⟩ []
    rw [hts]
    exact hseq
  have declared (cs : List Char) :
      Sequenced false (scanFrom cs.length ⟨.prolog true, 0, cs⟩ [.declaration]).tokens := by
    obtain ⟨ts, hts, hseq⟩ := sequenced_scanFrom cs.length ⟨.prolog true, 0, cs⟩ [.declaration]
    rw [hts]
    exact ⟨false, rfl, hseq⟩
  unfold scan
  dsimp only
  -- with a byte order mark or without one
  split
  all_goals
    split
    · split
      · trivial
      · exact declared _
    · exact plain _

end TradeIntake.Xml
