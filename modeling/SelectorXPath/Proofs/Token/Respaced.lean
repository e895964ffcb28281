import SelectorXPath.Proofs.Token.Joined

/-! Tokens that differ in their white space. Two tokens are alike if the grammar takes the same from
them. White space behind a token may belong to it, when it ends in an escape, or stand on its own;
and next to a combinator or a comma more of it may stand than the grammar asks for. -/

namespace SelectorXPath

open SelectorXPath.Text

variable {ws : Text}

theorem AnPlusB.compact_of_isBlank (hBlank : ∀ c ∈ ws, isBlank c = true) : compact ws = [] := by
  have hNone : ws.filter (fun c => !isSpace c) = [] :=
    List.filter_eq_nil_iff.mpr fun c hc => by simp [isSpace_of_isBlank (hBlank c hc)]
  rw [compact, hNone]
  rfl

/-- White space behind positions is left out like any other. -/
theorem AnPlusB.compact_append_blanks (t : Text) (hBlank : ∀ c ∈ ws, isBlank c = true) :
    compact (t ++ ws) = compact t := by
  rw [compact_append, compact_of_isBlank hBlank, List.append_nil]

namespace Token

/-- Tokens of one kind that selectors and positions do not tell apart. -/
structure Alike (t t' : Token) : Prop where
  kind_eq : t'.kind = t.kind
  meaning_eq : t.kind.meaning t'.text = t.kind.meaning t.text
  compact_eq : AnPlusB.compact t'.text = AnPlusB.compact t.text

theorem Alike.refl (t : Token) : Alike t t :=
  ⟨rfl, rfl, rfl⟩

theorem Alike.trans {t t' t'' : Token} (h : Alike t t') (h' : Alike t' t'') : Alike t t'' where
  kind_eq := h'.kind_eq.trans h.kind_eq
  meaning_eq := by
    have hMeaning := h'.meaning_eq
    rw [h.kind_eq] at hMeaning
    exact hMeaning.trans h.meaning_eq
  compact_eq := h'.compact_eq.trans h.compact_eq

/-- The grammar takes the same from both tokens. -/
theorem Alike.meaning {t t' : Token} {kind : Kind} (h : Alike t t') (hKind : t.kind = kind) :
    kind.meaning t'.text = kind.meaning t.text := by
  rw [← hKind]
  exact h.meaning_eq

/-- A token further to the right is like the one it was. -/
theorem alike_moved (n : Nat) (t : Token) : Alike t (t.moved n) :=
  ⟨rfl, rfl, rfl⟩

/-- Tokens of white space, which say nothing between other tokens. -/
def Spaces (ts : List Token) : Prop :=
  ∀ t ∈ ts, t.kind = .whitespace ∧ AnPlusB.compact t.text = []

theorem Spaces.nil : Spaces [] := by simp [Spaces]

theorem spaces_blanks (hBlank : ∀ c ∈ ws, isBlank c = true) (offset : Nat) :
    Spaces [⟨.whitespace, ws, offset⟩] :=
  List.forall_mem_singleton.mpr ⟨rfl, AnPlusB.compact_of_isBlank hBlank⟩

/-- The second tokens are like the first ones, with white space behind them. -/
inductive Padded : List Token → List Token → Prop where
  | spaces {us : List Token} (h : Spaces us) : Padded [] us
  | cons {t u : Token} {ts us : List Token} (h : Alike t u) (rest : Padded ts us) :
      Padded (t :: ts) (u :: us)

variable {t u : Token} {ts us vs : List Token}

/-- White space behind the last tokens is white space behind all of them. -/
theorem Padded.append (h : Padded us vs) (ts : List Token) : Padded (ts ++ us) (ts ++ vs) := by
  induction ts with
  | nil => exact h
  | cons t ts ih => exact .cons (.refl t) ih

theorem Padded.refl (ts : List Token) : Padded ts ts := by
  simpa using (Padded.spaces .nil).append ts

/-- More white space behind white space is nothing but white space. -/
theorem Spaces.padded (hSpaces : Spaces us) (h : Padded us vs) : Spaces vs := by
  induction h with
  | spaces h => exact h
  | cons h _ ih =>
      obtain ⟨⟨hKind, hCompact⟩, hMore⟩ := List.forall_mem_cons.mp hSpaces
      exact List.forall_mem_cons.mpr
        ⟨⟨h.kind_eq.trans hKind, h.compact_eq.trans hCompact⟩, ih hMore⟩

theorem Padded.trans (h : Padded ts us) (h' : Padded us vs) : Padded ts vs := by
  induction h generalizing vs with
  | spaces h => exact .spaces (h.padded h')
  | cons h _ ih =>
      cases h' with
      | cons hFirst hRest => exact .cons (h.trans hFirst) (ih hRest)

/-- The second tokens are like the first ones, with white space around some of the signs. -/
inductive Respaced : List Token → List Token → Prop where
  | nil : Respaced [] []
  | cons {t u : Token} {ts us : List Token} (h : Alike t u) (rest : Respaced ts us) :
      Respaced (t :: ts) (u :: us)
  | sign {t u : Token} {ts us before after : List Token}
      (hKind : t.kind = .combinator ∨ t.kind = .separator) (h : Alike t u) (hBefore : Spaces before)
      (hAfter : Spaces after) (rest : Respaced ts us) :
      Respaced (t :: ts) (before ++ u :: (after ++ us))

theorem respaced_moved (n : Nat) (ts : List Token) : Respaced ts (ts.map (Token.moved n)) := by
  induction ts with
  | nil => exact .nil
  | cons t ts ih => exact .cons (alike_moved n t) ih

/-- White space further behind is white space around signs further behind. -/
theorem Respaced.append_left (h : Respaced us vs) (ts : List Token) :
    Respaced (ts ++ us) (ts ++ vs) := by
  induction ts with
  | nil => exact h
  | cons t ts ih => exact .cons (.refl t) ih

theorem Respaced.refl (ts : List Token) : Respaced ts ts := by
  simpa using Respaced.nil.append_left ts

/-- Where the first tokens are cut in two, so can the second ones be. -/
theorem Respaced.cut (h : Respaced (ts ++ us) vs) :
    ∃ ts' us', vs = ts' ++ us' ∧ Respaced ts ts' ∧ Respaced us us' := by
  induction ts generalizing vs with
  | nil => exact ⟨[], vs, rfl, .nil, h⟩
  | cons t ts ih =>
      cases h with
      | cons h hRest =>
          obtain ⟨ts', us', rfl, hFront, hBack⟩ := ih hRest
          exact ⟨_ :: ts', us', rfl, .cons h hFront, hBack⟩
      | @sign _ u _ _ before after hKind h hBefore hAfter hRest =>
          obtain ⟨ts', us', rfl, hFront, hBack⟩ := ih hRest
          exact ⟨before ++ u :: (after ++ ts'), us', by simp, .sign hKind h hBefore hAfter hFront,
            hBack⟩

/-- The kinds of sign that white space may stand around. -/
def Kind.isSign : Kind → Bool
  | .combinator | .separator => true
  | _ => false

/-- White space stands around signs only. -/
theorem Respaced.cons_inv {kind : Kind} (h : Respaced (t :: ts) vs) (hKind : t.kind = kind)
    (hOther : kind.isSign = false) :
    ∃ u us, vs = u :: us ∧ u.kind = kind ∧ Alike t u ∧ Respaced ts us := by
  cases h with
  | cons h hRest => exact ⟨_, _, rfl, h.kind_eq.trans hKind, h, hRest⟩
  | sign hSign =>
      rw [hKind] at hSign
      rcases hSign with rfl | rfl <;> cases hOther

/-- A token comes back with white space in front and behind. -/
theorem Respaced.sign_inv (h : Respaced (t :: ts) vs) :
    ∃ before u after us, vs = before ++ u :: (after ++ us) ∧ Alike t u ∧ Spaces before ∧
      Spaces after ∧ Respaced ts us := by
  cases h with
  | cons h hRest => exact ⟨[], _, [], _, rfl, h, .nil, .nil, hRest⟩
  | sign _ h hBefore hAfter hRest => exact ⟨_, _, _, _, rfl, h, hBefore, hAfter, hRest⟩

/-- A token that is no such sign comes back by itself. -/
theorem Respaced.singleton_inv {kind : Kind} (h : Respaced [t] vs) (hKind : t.kind = kind)
    (hOther : kind.isSign = false) :
    ∃ u, vs = [u] ∧ u.kind = kind ∧ Alike t u := by
  obtain ⟨u, us, rfl, hSame, hAlike, hRest⟩ := h.cons_inv hKind hOther
  cases hRest
  exact ⟨u, rfl, hSame, hAlike⟩

theorem Spaces.uncommented (h : Spaces ts) : Mode.uncommented ts = ts := by
  refine List.filter_eq_self.mpr fun t ht => ?_
  rw [(h t ht).1]
  rfl

/-- White space may also be put around the signs of what is left without comments. -/
theorem Respaced.uncommented (h : Respaced ts us) :
    Respaced (Mode.uncommented ts) (Mode.uncommented us) := by
  induction h with
  | nil => exact .nil
  | cons h _ ih =>
      rw [Mode.uncommented, Mode.uncommented, List.filter_cons, List.filter_cons, h.kind_eq]
      split
      · exact .cons h ih
      · exact ih
  | @sign t u ts us before after hKind h hBefore hAfter _ ih =>
      have hVisible : t.kind.isComment = false := by
        rcases hKind with hKind | hKind <;> rw [hKind] <;> rfl
      have hSign : Mode.uncommented (before ++ u :: (after ++ us)) =
          before ++ u :: (after ++ Mode.uncommented us) := by
        rw [Mode.uncommented, List.filter_append,
          List.filter_cons_of_pos (by simp [h.kind_eq, hVisible]), List.filter_append]
        exact congrArg₂ _ hBefore.uncommented (congrArg _ (congrArg (· ++ _) hAfter.uncommented))
      rw [hSign, Mode.uncommented, List.filter_cons_of_pos (by simp [hVisible])]
      exact .sign hKind h hBefore hAfter ih

/-- White space writes no positions. -/
theorem Spaces.compact_eq (h : Spaces ts) : AnPlusB.compact (ts.flatMap Token.text) = [] := by
  induction ts with
  | nil => rfl
  | cons t ts ih =>
      obtain ⟨hFirst, hMore⟩ := List.forall_mem_cons.mp h
      rw [List.flatMap_cons, AnPlusB.compact_append, hFirst.2, ih hMore]
      rfl

/-- Positions are joined from tokens to the same compact text, with more white space or less. -/
theorem Respaced.compact_eq (h : Respaced ts us) :
    AnPlusB.compact (us.flatMap Token.text) = AnPlusB.compact (ts.flatMap Token.text) := by
  induction h with
  | nil => rfl
  | cons h _ ih =>
      rw [List.flatMap_cons, List.flatMap_cons, AnPlusB.compact_append, AnPlusB.compact_append,
        h.compact_eq, ih]
  | sign _ h hBefore hAfter _ ih =>
      simp only [List.flatMap_append, List.flatMap_cons, AnPlusB.compact_append, h.compact_eq,
        hBefore.compact_eq, hAfter.compact_eq, ih, List.nil_append]

/-- White space in front of a sign. -/
theorem Respaced.padded {ts' us' : List Token} (h : Padded ts us)
    (hKind : t.kind = .combinator ∨ t.kind = .separator) (hSign : Alike t u)
    (hRest : Respaced ts' us') : Respaced (ts ++ t :: ts') (us ++ u :: us') := by
  induction h with
  | spaces h => exact .sign hKind hSign h .nil hRest
  | cons h _ ih => exact .cons h ih

/-- Padding is white space at the end, which can be told from what is inside. -/
theorem Padded.respaced (h : Padded ts us) :
    ∃ vs spaces, us = vs ++ spaces ∧ Respaced ts vs ∧ Spaces spaces := by
  induction h with
  | spaces h => exact ⟨[], _, rfl, .nil, h⟩
  | cons h _ ih =>
      obtain ⟨vs, spaces, rfl, hRest, hSpaces⟩ := ih
      exact ⟨_ :: vs, spaces, rfl, .cons h hRest, hSpaces⟩

end Token

end SelectorXPath
