import SelectorXPath.Proofs.Selector.Composition

/-! Selectors are counted by the commas between them. A comma counts if it stands outside of all
parentheses; one between parentheses separates the selectors of a group. Tokens that a group is
written with come back to the depth of parentheses at which they begin, so what they hold is not
seen at the depth outside. -/

namespace SelectorXPath

/-- The number of separators outside of all parentheses, behind `depth` that are still open. -/
def outerSeparators : (depth : Nat) → List Token → Nat
  | _, [] => 0
  | depth, t :: ts =>
    match t.kind with
    | .parenthesesStart => outerSeparators (depth + 1) ts
    | .parenthesesEnd => outerSeparators (depth - 1) ts
    | .separator => (if depth = 0 then 1 else 0) + outerSeparators depth ts
    | _ => outerSeparators depth ts

/-- Neither a separator nor a parenthesis. -/
def Token.Kind.isUncounted : Token.Kind → Bool
  | .parenthesesStart | .parenthesesEnd | .separator => false
  | _ => true

/-- Tokens that are neither separators nor parentheses are passed over. -/
theorem outerSeparators_of_isUncounted {t : Token} (h : t.kind.isUncounted = true) (depth : Nat)
    (ts : List Token) : outerSeparators depth (t :: ts) = outerSeparators depth ts := by
  rw [outerSeparators]
  cases hKind : t.kind with
  | parenthesesStart | parenthesesEnd | separator =>
      rw [hKind] at h
      cases h
  | _ => rfl

/-- Comments do not count. -/
theorem outerSeparators_filter (depth : Nat) (ts : List Token) :
    outerSeparators depth (ts.filter fun t => !t.kind.isComment) = outerSeparators depth ts := by
  induction ts generalizing depth with
  | nil => rfl
  | cons t ts ih =>
      cases hComment : t.kind.isComment with
      | true =>
          have hUncounted : t.kind.isUncounted = true := by
            cases hKind : t.kind <;> simp_all [Token.Kind.isComment, Token.Kind.isUncounted]
          rw [List.filter_cons_of_neg (by simp [hComment]), ih,
            outerSeparators_of_isUncounted hUncounted]
      | false =>
          rw [List.filter_cons_of_pos (by simp [hComment]), outerSeparators, outerSeparators]
          split <;> simp only [ih]

/-- Whatever stands in front and behind, the tokens add `n` separators at the depth at which they
begin, and they end at that depth. -/
def Adds (n : Nat) (ts : List Token) : Prop :=
  ∀ depth more, outerSeparators depth (ts ++ more) =
    (if depth = 0 then n else 0) + outerSeparators depth more

section

variable {m n : Nat} {ts us : List Token}

/-- Separators add up. -/
theorem Adds.append (h : Adds m ts) (h' : Adds n us) : Adds (m + n) (ts ++ us) := by
  intro depth more
  rw [List.append_assoc, h, h']
  split <;> omega

theorem adds_zero_of_isUncounted (h : ∀ t ∈ ts, t.kind.isUncounted = true) : Adds 0 ts := by
  intro depth more
  induction ts with
  | nil => simp
  | cons t ts ih =>
      rw [List.forall_mem_cons] at h
      rw [List.cons_append, outerSeparators_of_isUncounted h.1, ih h.2]

theorem adds_one_of_separator {t : Token} (h : t.kind = .separator) : Adds 1 [t] := by
  intro depth more
  rw [List.singleton_append, outerSeparators, h]

/-- Nothing between parentheses counts outside of them. -/
theorem Adds.enclosed {start stop : Token} (h : Adds n ts) (hStart : start.kind = .parenthesesStart)
    (hStop : stop.kind = .parenthesesEnd) : Adds 0 (start :: (ts ++ [stop])) := by
  intro depth more
  rw [List.cons_append, List.append_assoc, outerSeparators, hStart]
  dsimp only
  rw [h, if_neg (Nat.succ_ne_zero depth), List.singleton_append, outerSeparators, hStop]
  simp

/-- A pseudo-class with its argument in parentheses. -/
theorem Adds.functional {t start stop : Token} {functional : FunctionalClass} (h : Adds n ts)
    (hEnclosed : Grammar.Encloses t start stop functional) :
    Adds 0 (t :: start :: (ts ++ [stop])) := by
  have hName : Adds 0 [t] :=
    adds_zero_of_isUncounted (by simp [hEnclosed.kind, Token.Kind.isUncounted])
  exact hName.append (h.enclosed hEnclosed.start hEnclosed.stop)

end

namespace Grammar

/-- Flat tokens add none. -/
theorem adds_of_flat {ts : List Token} (h : Flat ts) : Adds 0 ts := by
  refine adds_zero_of_isUncounted fun t ht => ?_
  have hFlat := h t ht
  cases hKind : t.kind <;> rw [hKind] at hFlat <;> first | rfl | cases hFlat

section

variable {group : List Token → SelectorList → Prop}
  (hGroup : ∀ ts list, Scanned ts → group ts list → ∃ n, Adds n ts)

include hGroup

/-- The parts of a selector add no separators to the depth at which it stands. -/
theorem adds_compositional : Compositional group (Adds 0) where
  append h h' := h.append h'
  flat := adds_of_flat
  plain hKind _ := adds_zero_of_isUncounted (by simp [hKind, Token.Kind.isUncounted])
  argument hEnclosed _ _ h := (adds_of_flat h).functional hEnclosed
  group hEnclosed _ hScanned h := by
    obtain ⟨n, hInside⟩ := hGroup _ _ hScanned h
    exact hInside.functional hEnclosed

/-- There is one separator less than there are selectors. -/
theorem adds_of_writesAlternatives {ts : List Token} {list : SelectorList}
    (hScanned : Scanned ts) (h : WritesAlternatives group ts list) :
    ∃ n, list.length = n + 1 ∧ Adds n ts := by
  induction h with
  | @one before ts after _ hBefore h hAfter =>
      have hFirst := adds_of_flat (flat_of_blank hBefore)
      have hLast := adds_of_flat (flat_of_blank hAfter)
      have hSelector := (adds_compositional hGroup).complex (hScanned.part ⟨before, after, rfl⟩) h
      exact ⟨0, rfl, (hFirst.append hSelector).append hLast⟩
  | @more before ts after rest comma _ list hBefore h hAfter hComma _ ih =>
      have hFirst := adds_of_flat (flat_of_blank hBefore)
      have hLast := adds_of_flat (flat_of_blank hAfter)
      have hSelector := (adds_compositional hGroup).complex
        (hScanned.part ⟨before, after ++ comma :: rest, by simp⟩) h
      obtain ⟨n, hLength, hRest⟩ := ih
        (hScanned.part ⟨before ++ ts ++ after ++ [comma], [], by simp⟩)
      refine ⟨1 + n, ?_, ?_⟩
      · rw [List.length_cons, hLength, Nat.add_comm 1]
      · have hAll := ((hFirst.append hSelector).append hLast).append
          ((adds_one_of_separator hComma).append hRest)
        simpa using hAll

end

/-- A list has one selector more than its tokens have separators outside of parentheses. -/
theorem adds_of_writesGroup (allowance : Nat) {ts : List Token} {list : SelectorList}
    (hScanned : Scanned ts) (h : writesGroup allowance ts list) :
    ∃ n, list.length = n + 1 ∧ Adds n ts := by
  induction allowance generalizing ts list with
  | zero => cases h
  | succ allowance ih =>
      refine adds_of_writesAlternatives (fun ts list hScanned h => ?_) hScanned h
      obtain ⟨n, -, hAdds⟩ := ih hScanned h
      exact ⟨n, hAdds⟩

end Grammar

/-- A source has one selector more than it has commas outside of all parentheses. -/
theorem Selector.length_of_parse {source : Text} {limit : Nat} {list : SelectorList}
    {tokens : List Token} (h : parse source limit = .ok list)
    (hTokens : tokenize source = .ok tokens) : list.length = outerSeparators 0 tokens + 1 := by
  obtain ⟨tokens', hTokens', hWritten, -⟩ := parse_eq_ok_iff.mp h
  rw [hTokens] at hTokens'
  cases hTokens'
  obtain ⟨⟨offset, hVisible⟩, hScanned⟩ := TokenReader.visible_of_tokenize hTokens
  obtain ⟨n, hLength, hAdds⟩ := Grammar.adds_of_writesGroup (listNesting list + 1) hScanned
    (Grammar.writesGroup_iff.mpr ⟨hWritten, Nat.lt_succ_self _⟩)
  rw [hLength, ← outerSeparators_filter, hVisible, hAdds]
  rfl

end SelectorXPath
