import SelectorXPath.Proofs.Selector.Positions
import SelectorXPath.Proofs.Token.Seams
import SelectorXPath.Proofs.Token.Stack

/-! Strings as the values of attributes and as the texts that are searched for. The scan of a string
takes the inside of one off the source, up to the first mark that nothing protects. -/

namespace SelectorXPath

open SelectorXPath.Text

/-- Tokens that may follow a string without saying anything: white space, comments, and the signs
that close what is open. -/
def Token.Kind.isTail : Token.Kind → Bool
  | .attributeEnd | .parenthesesEnd => true
  | kind => kind.isTrivia

namespace Mode

variable {mode : Mode} {mark : QuoteMark} {t : Text} {kind : Token.Kind} {n : Nat}

/-- The signs that close what is open, and the marks of comments, hold no mark of a string. -/
theorem char_not_mem_of_mem_spellings {sign : Text} (h : sign ∈ kind.spellings)
    (hTail : kind.isTail = true) : mark.char ∉ sign := by
  cases kind with
  | attributeEnd | parenthesesEnd | commentStart | commentEnd =>
      obtain rfl := List.mem_singleton.mp h
      cases mark <;> decide
  | whitespace | commentText => cases h
  | _ => cases hTail

/-- Of the tokens that may follow a string, only the text of a comment can hold a mark. -/
theorem char_not_mem_of_recognize? (h : mode.recognize? t = some (kind, n))
    (hTail : kind.isTail = true) (hText : kind ≠ .commentText) : mark.char ∉ t.take n := by
  cases form_of_recognize? h with
  | blanks =>
      have hTake : t.take (blankLength t) = t.takeWhile isBlank := take_length_takeWhile t
      rw [hTake]
      intro hMem
      have hBlank := List.mem_takeWhile_imp hMem
      cases mark <;> cases hBlank
  | spelled hMode hSign hPrefix =>
      rw [← List.prefix_iff_eq_take.mp hPrefix]
      exact char_not_mem_of_mem_spellings hSign hTail
  | named hMode hNamed =>
      cases kind with
      | identifier | classSelector | idSelector | pseudoClass | pseudoElement => cases hTail
      | _ => cases hNamed
  | comment => exact absurd rfl hText
  | _ => cases hTail

end Mode

namespace Scan

variable {s s' next : Scan} {mark : QuoteMark} {token : Token} {ts : List Token}

/-- Behind the text of a comment stands the mark that closes it, or nothing. The comment is still
open. -/
theorem rest_of_commentText (h : s.step = some (.ok (token, next)))
    (hKind : token.kind = .commentText) :
    next.top.mode = .comment ∧ (next.rest = [] ∨ ∃ more, next.rest = '*' :: '/' :: more) := by
  obtain ⟨c, t, length, -, hFound, -, hShift, hNext, -⟩ := step_eq_some_ok h
  rw [hKind] at hFound
  obtain ⟨hMode, hLength⟩ := (Mode.form_of_recognize? hFound).eq_comment
  have hTop : next.top = s.top :=
    top_of_shift hShift (by rw [hMode]; rfl) (by rw [hMode, hKind]; decide)
  refine ⟨by rw [hTop, hMode], ?_⟩
  have hPos := (Mode.length_of_recognize? hFound).1
  have hRest : next.rest = (c :: t).drop (Mode.commentLength (c :: t)) := by
    obtain ⟨m, rfl⟩ := Nat.exists_eq_succ_of_ne_zero (Nat.ne_of_gt hPos)
    rw [hNext, ← hLength]
    rfl
  rw [hRest]
  exact Mode.drop_commentLength (c :: t)

/-- Tokens that may follow a string do not end with a mark and one more character. -/
theorem Passes.rest_ne_marked (h : Passes s ts s') (hRest : s'.rest = [])
    (hMode : s'.top.mode = .selector) (hTail : ∀ t ∈ ts, t.kind.isTail = true) (front : Text)
    (d : Char) : s.rest ≠ front ++ [mark.char, d] := by
  induction h generalizing front with
  | done => simp [hRest]
  | @step s next s' token ts hStep hMore ih =>
      intro hText
      obtain ⟨hFirst, hOthers⟩ := List.forall_mem_cons.mp hTail
      have hLater := ih hRest hMode hOthers
      rw [(takes_of_step hStep).rest_eq] at hText
      -- the mark lies in what is left behind the token, or in the token itself
      rcases List.append_eq_append_iff.mp hText with ⟨left, -, hNext⟩ | ⟨left, hToken, hNext⟩
      · exact hLater left hNext
      cases left with
      | nil => exact hLater [] hNext.symm
      | cons e left =>
          obtain ⟨rfl, hNext⟩ := List.cons.inj hNext
          have hMem : mark.char ∈ token.text := by simp [hToken]
          obtain ⟨c, t, length, -, hFound, hWhole, -⟩ := step_eq_some_ok hStep
          obtain ⟨c', t', hSame, hTake, -⟩ := Mode.recognize?_take hFound
          obtain ⟨rfl, rfl⟩ := List.cons.inj hSame
          have hKind : token.kind = .commentText := by
            by_contra hOther
            rw [hWhole, ← hTake] at hMem
            exact Mode.char_not_mem_of_recognize? hFound hFirst hOther hMem
          obtain ⟨hComment, hNil | ⟨more, hClose⟩⟩ := rest_of_commentText hStep hKind
          · cases hMore with
            | done =>
                rw [hComment] at hMode
                cases hMode
            | step hStep' _ =>
                rw [step_eq_none_iff.mpr hNil] at hStep'
                cases hStep'
          · rw [hClose] at hNext
            have hLength := congrArg List.length hNext
            simp at hLength
            omega

/-- Inside of a string the next token is the mark that closes it, or the string goes on behind a
protected character or behind characters that stand for themselves. -/
theorem step_inside (h : s.step = some (.ok (token, next))) (hTop : s.top.mode = .string mark) :
    token.kind = .stringEnd mark ∧ token.text = [mark.char] ∨
      next.top.mode = .string mark ∧
        ((∃ c, (c = mark.char ∨ c = '\\') ∧ token.kind = .escapedChar ∧ token.text = ['\\', c]) ∨
          token.kind = .stringChars ∧ ∀ c ∈ token.text, mark.isPlain c = true) := by
  obtain ⟨c, t, length, -, hFound, hToken, hShift, -⟩ := step_eq_some_ok h
  have hText : token.text = c :: t.take (length - 1) := by rw [hToken]
  have hStays {kind : Token.Kind} (hKeeps : (Mode.string mark).Keeps kind)
      (hKind : kind = token.kind) : next.top.mode = .string mark := by
    have hSame := top_of_shift hShift (by rw [hTop]; rfl)
      (by rw [hTop, ← hKind, hKeeps.closed]; decide)
    rw [hSame, hTop]
  rw [hTop] at hFound
  change Mode.stringToken? mark (c :: t) = _ at hFound
  rw [Mode.stringToken?_cons] at hFound
  split at hFound
  · rename_i hMark
    obtain ⟨hKind, rfl⟩ := Prod.mk.inj (Option.some.inj hFound)
    exact Or.inl ⟨hKind.symm, by rw [hText, hMark]; rfl⟩
  rename_i hMark
  split at hFound
  · rename_i hSlash
    split at hFound
    · rename_i hProtected
      obtain ⟨hKind, rfl⟩ := Prod.mk.inj (Option.some.inj hFound)
      refine Or.inr ⟨hStays (Mode.keeps_escapedChar mark) hKind, Or.inl ?_⟩
      cases t with
      | nil => simp at hProtected
      | cons d t =>
          refine ⟨d, by simpa using hProtected, hKind.symm, ?_⟩
          rw [hText, hSlash]
          rfl
    · cases hFound
  · rename_i hSlash
    obtain ⟨hKind, rfl⟩ := Prod.mk.inj (Option.some.inj hFound)
    refine Or.inr ⟨hStays (Mode.keeps_stringChars mark) hKind, Or.inr ⟨hKind.symm, ?_⟩⟩
    rw [hText, Nat.add_sub_cancel_left, take_length_takeWhile]
    exact List.forall_mem_cons.mpr ⟨QuoteMark.isPlain_iff.mpr ⟨hSlash, hMark⟩,
      fun d hd => List.mem_takeWhile_imp hd⟩

/-- From inside of a string, a scan that leaves it passes over an inside and the closing mark. -/
theorem Passes.exists_inside (h : Passes s ts s') (hTop : s.top.mode = .string mark)
    (hEnd : s'.top.mode.holdsText = false) :
    ∃ ss us inside text middle, ts = ss ++ us ∧ Grammar.WritesString mark ss text ∧
      mark.Spells inside text ∧ s.rest = inside ++ mark.char :: middle.rest ∧
      Passes middle us s' := by
  induction h with
  | done =>
      rw [hTop] at hEnd
      cases hEnd
  | @step s next s' token ts hStep hMore ih =>
      have hRest := (takes_of_step hStep).rest_eq
      rcases step_inside hStep hTop with ⟨hKind, hText⟩ | ⟨hNext, hToken⟩
      · rw [hText] at hRest
        exact ⟨[token], ts, [], [], next, rfl, .close hKind, .nil, hRest, hMore⟩
      obtain ⟨ss, us, inside, text, middle, rfl, hWritten, hSpells, hInside, hPasses⟩ :=
        ih hNext hEnd
      rw [hInside, ← List.append_assoc] at hRest
      rcases hToken with ⟨c, hSpecial, hKind, hText⟩ | ⟨hKind, hRun⟩
      · have hString := Grammar.WritesString.escaped hKind hWritten
        rw [hText] at hString hRest
        exact ⟨token :: ss, us, _, _, middle, rfl, hString, .pair hSpecial hSpells, hRest, hPasses⟩
      · exact ⟨token :: ss, us, _, _, middle, rfl, .chars hKind hWritten,
          hSpells.append_run hRun, hRest, hPasses⟩

end Scan

namespace Grammar

variable {mark : QuoteMark} {a i o q : Token} {ss us : List Token} {text value : Text}
  {offset : Nat}

/-- In front of a token that is no white space there is none. -/
theorem Blank.eq_nil {before rest more : List Token} {t : Token} (h : Blank before)
    (hText : before ++ rest = t :: more) (hKind : t.kind ≠ .whitespace) :
    before = [] ∧ rest = t :: more := by
  cases before with
  | nil => exact ⟨rfl, hText⟩
  | cons b before =>
      obtain ⟨rfl, -⟩ := List.cons.inj hText
      exact absurd (h b List.mem_cons_self) hKind

theorem Blank.isTail {ts : List Token} (h : Blank ts) : ∀ t ∈ ts, t.kind.isTail = true := by
  intro t ht
  rw [h t ht]
  rfl

/-- Inside of a string there are no comments. -/
theorem WritesString.uncommented_eq (h : WritesString mark ss text) : Mode.uncommented ss = ss := by
  rw [Mode.uncommented, List.filter_eq_self]
  induction h with
  | close hKind => simp [hKind, Token.Kind.isComment]
  | chars hKind _ ih | escaped hKind _ ih =>
      exact List.forall_mem_cons.mpr ⟨by simp [hKind, Token.Kind.isComment], ih⟩

/-- A string ends where it is closed first. -/
theorem WritesString.unique {ss' us' : List Token} (h : WritesString mark ss text)
    (h' : WritesString mark ss' value) (hTokens : ss ++ us = ss' ++ us') :
    text = value ∧ us = us' := by
  induction h generalizing ss' value with
  | close hKind =>
      cases h' with
      | close => exact ⟨rfl, (List.cons.inj hTokens).2⟩
      | chars hKind' | escaped hKind' =>
          rw [(List.cons.inj hTokens).1, hKind'] at hKind
          cases hKind
  | chars hKind _ ih =>
      cases h' with
      | chars _ rest =>
          obtain ⟨rfl, hRest⟩ := List.cons.inj hTokens
          obtain ⟨rfl, hBehind⟩ := ih rest hRest
          exact ⟨rfl, hBehind⟩
      | close hKind' | escaped hKind' =>
          rw [(List.cons.inj hTokens).1, hKind'] at hKind
          cases hKind
  | escaped hKind _ ih =>
      cases h' with
      | escaped _ rest =>
          obtain ⟨rfl, hRest⟩ := List.cons.inj hTokens
          obtain ⟨rfl, hBehind⟩ := ih rest hRest
          exact ⟨rfl, hBehind⟩
      | close hKind' | chars hKind' =>
          rw [(List.cons.inj hTokens).1, hKind'] at hKind
          cases hKind

/-- A value that begins with a mark is the string behind it. -/
theorem WritesValue.unique {vs rest : List Token} (h : WritesValue vs value)
    (hStart : q.kind = .stringStart mark) (hString : WritesString mark ss text)
    (hTokens : vs ++ rest = q :: (ss ++ us)) : value = text ∧ rest = us := by
  cases h with
  | identifier hKind | number hKind =>
      rw [(List.cons.inj hTokens).1, hStart] at hKind
      cases hKind
  | string hKind hValue =>
      obtain ⟨rfl, hRest⟩ := List.cons.inj hTokens
      rw [hStart] at hKind
      cases hKind
      exact hValue.unique hString hRest

/-- Blanks, one sign that closes something, and blanks. -/
theorem isTail_of_closed {before after : List Token} {stop : Token} (hBefore : Blank before)
    (hStop : stop.kind = .attributeEnd ∨ stop.kind = .parenthesesEnd) (hAfter : Blank after) :
    ∀ t ∈ before ++ stop :: after, t.kind.isTail = true := by
  refine List.forall_mem_append.mpr ⟨hBefore.isTail, List.forall_mem_cons.mpr ⟨?_, hAfter.isTail⟩⟩
  rcases hStop with hKind | hKind <;> rw [hKind] <;> rfl

/-- What may stand behind a string that an attribute is compared with. -/
theorem WritesList.attribute_tail {name : Text} {operator : AttributeOperator}
    (h : WritesList (a :: i :: o :: q :: (ss ++ us))
      [.single ⟨offset, [.attribute ⟨name, .absent, some ⟨operator, value⟩⟩]⟩])
    (hOpen : a.kind = .attributeStart) (hName : i.kind = .identifier)
    (hSign : o.kind = .attributeOperator) (hStart : q.kind = .stringStart mark)
    (hString : WritesString mark ss text) :
    offset = a.offset ∧ value = text ∧ ∀ t ∈ us, t.kind.isTail = true := by
  obtain ⟨before, ps, after, hTokens, hBefore, hAfter, rfl, hPart⟩ := h.exists_part fun name => by
    obtain ⟨qualifier, _ | name⟩ := name <;> nofun
  cases hPart with
  | attributeTest hAttribute =>
      cases hAttribute with
      | intro _ hBlank hWritten hBlank' hComparison hStop =>
          cases hWritten
          cases hComparison with
          | present _ _ hBlank₁ hValue hBlank₂ =>
              simp only [List.append_assoc, List.cons_append, List.nil_append] at hTokens
              obtain ⟨rfl, hOpened⟩ := hBefore.eq_nil hTokens.symm (by rw [hOpen]; nofun)
              obtain ⟨rfl, hNamed⟩ := List.cons.inj hOpened
              obtain ⟨rfl, hNamed⟩ := hBlank.eq_nil hNamed (by rw [hName]; nofun)
              obtain ⟨rfl, hSigned⟩ := List.cons.inj hNamed
              obtain ⟨rfl, hSigned⟩ := hBlank'.eq_nil hSigned (by rw [hSign]; nofun)
              obtain ⟨rfl, hMarked⟩ := List.cons.inj hSigned
              obtain ⟨rfl, hMarked⟩ := hBlank₁.eq_nil hMarked (by rw [hStart]; nofun)
              obtain ⟨rfl, rfl⟩ := hValue.unique hStart hString hMarked
              exact ⟨rfl, rfl, isTail_of_closed hBlank₂ (Or.inl hStop) hAfter⟩

/-- What may stand behind a string that is searched for. -/
theorem WritesList.contains_tail
    (h : WritesList (a :: o :: q :: (ss ++ us)) [.single ⟨offset, [.contains value]⟩])
    (hName : a.kind = .pseudoClass) (hStart : q.kind = .stringStart mark)
    (hString : WritesString mark ss text) :
    offset = a.offset ∧ value = text ∧ ∀ t ∈ us, t.kind.isTail = true := by
  obtain ⟨before, ps, after, hTokens, hBefore, hAfter, rfl, hPart⟩ := h.exists_part fun name => by
    obtain ⟨qualifier, _ | name⟩ := name <;> nofun
  cases hPart with
  | contains hEnclosed hSought =>
      obtain ⟨hBlank₁, hValue, hBlank₂⟩ := hSought
      simp only [List.append_assoc, List.cons_append, List.nil_append] at hTokens
      obtain ⟨rfl, hNamed⟩ := hBefore.eq_nil hTokens.symm (by rw [hName]; nofun)
      obtain ⟨rfl, hOpened⟩ := List.cons.inj hNamed
      obtain ⟨rfl, hMarked⟩ := List.cons.inj hOpened
      obtain ⟨rfl, hMarked⟩ := hBlank₁.eq_nil hMarked (by rw [hStart]; nofun)
      obtain ⟨rfl, rfl⟩ := hValue.unique hStart hString hMarked
      exact ⟨rfl, rfl, isTail_of_closed hBlank₂ (Or.inr hEnclosed.stop) hAfter⟩

end Grammar

/-- The first tokens of the source open a string inside of an outer mode, and the rest of the source
is still to be scanned. -/
def OpensString (mark : QuoteMark) (outer : Mode) (source : Text) (lead : List Token)
    (rest : Text) : Prop :=
  ∃ offset openedAt openedAt', Scan.Passes (.start source) lead
    ⟨rest, offset, ⟨.string mark, openedAt⟩, [⟨outer, openedAt'⟩, ⟨.selector, 0⟩]⟩

/-- Where a text that ends with a mark and one more character is cut at a mark, these two are cut
off, or they are still to come. -/
theorem eq_or_marked_of_append {inside inside' rest : Text} {c d : Char} (hLast : d ≠ c)
    (h : inside ++ [c, d] = inside' ++ c :: rest) :
    inside = inside' ∨ ∃ left, rest = left ++ [c, d] := by
  rcases List.append_eq_append_iff.mp h with ⟨left, hInside, hLeft⟩ | ⟨left, hInside, hLeft⟩
  · match left with
    | [] => exact Or.inl (by rw [hInside, List.append_nil])
    | [e] => exact absurd (List.cons.inj (List.cons.inj hLeft).2).1 hLast
    | e :: f :: left => simp at hLeft
  · cases left with
    | nil => exact Or.inl (by rw [hInside, List.append_nil])
    | cons e left => exact Or.inr ⟨left, (List.cons.inj hLeft).2⟩

section

variable {mark : QuoteMark} {outer : Mode} {source inside text : Text} {lead tokens : List Token}
  {d : Char} {kind : Token.Kind}
  (hLead : OpensString mark outer source lead (inside ++ [mark.char, d]))

include hLead

/-- If only tokens without a meaning follow the string that was opened, it goes on up to the mark in
front of the last character. -/
theorem spells_of_tokenize (hTokens : tokenize source = .ok tokens) (hLast : d ≠ mark.char) :
    ∃ ss us text, TokenReader.visible tokens = Mode.uncommented lead ++ (ss ++ us) ∧
      Grammar.WritesString mark ss text ∧
      ((∀ t ∈ us, t.kind.isTail = true) → mark.Spells inside text) := by
  obtain ⟨offset, openedAt, openedAt', hLead⟩ := hLead
  rw [tokenize, hLead.run_map] at hTokens
  cases hRun : (⟨inside ++ [mark.char, d], offset, ⟨.string mark, openedAt⟩,
      [⟨outer, openedAt'⟩, ⟨.selector, 0⟩]⟩ : Scan).run with
  | error e =>
      rw [hRun] at hTokens
      cases hTokens
  | ok more =>
      rw [hRun] at hTokens
      obtain rfl := Except.ok.inj hTokens
      obtain ⟨front, s', hPasses, hEnd, hMode, rfl⟩ := Scan.passes_of_run hRun
      obtain ⟨ss, us, inside', text, middle, rfl, hWritten, hSpells, hText, hBehind⟩ :=
        hPasses.exists_inside rfl (by rw [hMode]; rfl)
      refine ⟨ss, Mode.uncommented us, text, ?_, hWritten, fun hTail => ?_⟩
      · have hSeen : lead ++ (ss ++ us ++ [⟨.eof, [], s'.offset⟩]) =
            lead ++ ss ++ us ++ [⟨.eof, [], s'.offset⟩] := by simp
        have hString := hWritten.uncommented_eq
        rw [Mode.uncommented] at hString
        dsimp only
        rw [hSeen, TokenReader.visible_append_eof, List.filter_append, List.filter_append, hString,
          List.append_assoc]
        rfl
      · have hAll : ∀ t ∈ us, t.kind.isTail = true := by
          intro t ht
          by_cases hComment : t.kind.isComment = true
          · cases hKind : t.kind <;> rw [hKind] at hComment <;> first | rfl | cases hComment
          · exact hTail t (List.mem_filter.mpr ⟨ht, by simp [hComment]⟩)
        have hNone (left : Text) : middle.rest ≠ left ++ [mark.char, d] :=
          hBehind.rest_ne_marked hEnd hMode hAll left d
        rcases eq_or_marked_of_append hLast hText with rfl | ⟨left, hLeft⟩
        · exact hSpells
        · exact absurd hLeft (hNone left)

/-- If what follows spells a text, the string is read as that text. -/
theorem tokenize_of_spells (hSpells : mark.Spells inside text)
    (hLast : outer.recognize? [d] = some (kind, 1)) (hClosed : outer.isClosedBy kind = true)
    (hVisible : kind.isComment = false) :
    ∃ tokens ss stop, tokenize source = .ok tokens ∧
      TokenReader.visible tokens = Mode.uncommented lead ++ (ss ++ [stop]) ∧
      Grammar.WritesString mark ss text ∧ stop.kind = kind := by
  obtain ⟨offset, openedAt, openedAt', hLead⟩ := hLead
  have hReads : (Mode.string mark).Reads inside [mark.char, d] _ := Mode.reads_inside hSpells
  obtain ⟨ts, n, hPasses, hWritten⟩ :=
    hReads offset openedAt [⟨outer, openedAt'⟩, ⟨.selector, 0⟩]
  have hMark : (Mode.string mark).recognize? [mark.char, d] = some (.stringEnd mark, 1) := by
    cases mark <;> rfl
  have hEnds : (Mode.string mark).isClosedBy (.stringEnd mark) = true := by cases mark <;> rfl
  obtain ⟨n', hStop⟩ := Scan.step_of_isClosedBy n openedAt ⟨outer, openedAt'⟩ [⟨.selector, 0⟩]
    hMark hEnds
  obtain ⟨n'', hClose⟩ := Scan.step_of_isClosedBy n' openedAt' ⟨.selector, 0⟩ [] hLast hClosed
  have hRun : (⟨[], n'', ⟨.selector, 0⟩, []⟩ : Scan).run = .ok [⟨.eof, [], n''⟩] := by
    rw [Scan.run]
    rfl
  have hAll := hLead.trans (hPasses.trans (.step hStop (.step hClose .done)))
  refine ⟨_, Mode.uncommented ts ++ [⟨.stringEnd mark, [mark.char], n⟩], ⟨kind, [d], n'⟩,
    hAll.run_eq hRun, ?_, hWritten _ rfl, rfl⟩
  rw [TokenReader.visible_append_eof, List.filter_append, List.filter_append]
  have hBoth : [(⟨.stringEnd mark, [mark.char], n⟩ : Token), ⟨kind, [d], n'⟩].filter
      (fun token => !token.kind.isComment) =
        [⟨.stringEnd mark, [mark.char], n⟩, ⟨kind, [d], n'⟩] := by
    have hMarkVisible : (Token.Kind.stringEnd mark).isComment = false := rfl
    simp [hVisible, hMarkVisible]
  rw [hBoth, List.append_assoc]
  rfl

end

/-- An attribute without namespace that is compared, up to the mark that opens a string. -/
theorem opensString_attribute (mark : QuoteMark) (rest : Text) :
    ∃ a i o q, OpensString mark .attribute ("[a=".toList ++ mark.char :: rest) [a, i, o, q] rest ∧
      a = ⟨.attributeStart, ['['], 0⟩ ∧ (i.kind = .identifier ∧ i.text = ['a']) ∧
      (o.kind = .attributeOperator ∧ o.text = ['=']) ∧ q.kind = .stringStart mark := by
  have hName : Mode.attribute.recognize? ('a' :: ([] ++ '=' :: mark.char :: rest)) =
      some (.identifier, 1) := by
    have hLength : identifierLength ('a' :: ([] ++ '=' :: mark.char :: rest)) = ['a'].length :=
      identifierLength_word rfl (by simp) (nameLength_cons_eq_zero (by decide) (by decide))
    rw [List.nil_append] at hLength
    rw [Mode.recognize?_eq_attributeSign? (by decide)]
    simp [Mode.attributeSign?, Mode.nonempty, Mode.withLead, hLength]
  have hMark : Mode.attribute.recognize? (mark.char :: rest) = some (.stringStart mark, 1) := by
    cases mark <;> rfl
  obtain ⟨n₁, hOpen⟩ := @Scan.step_of_opened? .selector .attribute .attributeStart '['
    ('a' :: '=' :: mark.char :: rest) 0 0 [] rfl rfl rfl
  obtain ⟨n₂, hNamed⟩ := Scan.step_of_recognize? n₁ 0 [⟨.selector, 0⟩] hName rfl rfl
  obtain ⟨n₃, hSigned⟩ := @Scan.step_of_recognize? .attribute .attributeOperator '=' []
    (mark.char :: rest) n₂ 0 [⟨.selector, 0⟩] rfl rfl rfl
  obtain ⟨n₄, hStart⟩ := Scan.step_of_opened? n₃ 0 [⟨.selector, 0⟩] hMark rfl rfl
  exact ⟨_, _, _, _, ⟨n₄, n₃, 0, .step hOpen (.step hNamed (.step hSigned (.step hStart .done)))⟩,
    rfl, ⟨rfl, rfl⟩, ⟨rfl, rfl⟩, rfl⟩

/-- A search, up to the mark that opens a string. -/
theorem opensString_contains (mark : QuoteMark) (rest : Text) :
    ∃ a o q, OpensString mark .argument (":contains(".toList ++ mark.char :: rest) [a, o, q] rest ∧
      a = ⟨.pseudoClass, ":contains".toList, 0⟩ ∧ o.kind = .parenthesesStart ∧
      q.kind = .stringStart mark := by
  have hMark : Mode.argument.recognize? (mark.char :: rest) = some (.stringStart mark, 1) := by
    cases mark <;> rfl
  obtain ⟨n₁, hNamed⟩ := step_functional .contains (mark.char :: rest)
  obtain ⟨n₂, hOpen⟩ := @Scan.step_of_opened? .selector .argument .parenthesesStart '('
    (mark.char :: rest) n₁ 0 [] rfl rfl rfl
  obtain ⟨n₃, hStart⟩ := Scan.step_of_opened? n₂ n₁ [⟨.selector, 0⟩] hMark rfl rfl
  exact ⟨_, _, _, ⟨n₃, n₂, n₁, .step hNamed (.step hOpen (.step hStart .done))⟩, rfl, rfl, rfl⟩

namespace Selector

open SelectorXPath.Grammar

variable {mark : QuoteMark} {limit : Nat} {inside text : Text} {offset : Nat}

/-- A part that is all of the source is the list of that part alone. -/
theorem parse_of_part {source : Text} {t : Token} {ts tokens : List Token} {part : Simple}
    (hTokens : tokenize source = .ok tokens) (hVisible : TokenReader.visible tokens = t :: ts)
    (h : WritesPart WritesList (t :: ts) part) (hNesting : part.nesting = 0) :
    parse source limit = .ok [.single ⟨t.offset, [part]⟩] := by
  refine parse_eq_ok_iff.mpr ⟨tokens, hTokens, hVisible ▸ .of_part h, ?_⟩
  simp [listNesting, Complex.nesting, Compound.nesting, partsNesting, hNesting]

/-- As the value of an attribute a string has one text, and every inside that spells it is read. -/
theorem parse_compared_iff :
    parse ("[a=".toList ++ mark.char :: (inside ++ [mark.char, ']'])) limit =
        .ok [.single ⟨offset, [.attribute ⟨['a'], .absent, some ⟨.equals, text⟩⟩]⟩] ↔
      offset = 0 ∧ mark.Spells inside text := by
  obtain ⟨a, i, o, q, hLead, rfl, ⟨hName, hNamed⟩, ⟨hSign, hSigned⟩, hStart⟩ :=
    opensString_attribute mark (inside ++ [mark.char, ']'])
  have hSeen (rest : List Token) :
      Mode.uncommented [⟨.attributeStart, ['['], 0⟩, i, o, q] ++ rest =
        ⟨.attributeStart, ['['], 0⟩ :: i :: o :: q :: rest := by
    simp [Mode.uncommented, hName, hSign, hStart, Token.Kind.isComment]
  constructor
  · intro h
    obtain ⟨tokens, hTokens, hWritten, -⟩ := parse_eq_ok_iff.mp h
    obtain ⟨ss, us, text', hVisible, hString, hSpells⟩ :=
      spells_of_tokenize hLead hTokens (by cases mark <;> decide)
    rw [hVisible, hSeen] at hWritten
    obtain ⟨rfl, rfl, hTail⟩ := hWritten.attribute_tail rfl hName hSign hStart hString
    exact ⟨rfl, hSpells hTail⟩
  · rintro ⟨rfl, hSpells⟩
    have hLast : Mode.attribute.recognize? [']'] = some (.attributeEnd, 1) := rfl
    obtain ⟨tokens, ss, stop, hTokens, hVisible, hString, hStop⟩ :=
      tokenize_of_spells hLead hSpells hLast rfl rfl
    rw [hSeen] at hVisible
    have hComparison : WritesComparison (o :: q :: ss) (some ⟨.equals, text⟩) := by
      have hValue := WritesComparison.present hSign (by rw [hSigned]; rfl) Blank.nil
        (.string hStart hString) Blank.nil
      rwa [List.append_nil] at hValue
    have hPlain : WritesName [i] (.absent, some ['a']) := by
      have hLocal := WritesLocalName.name hName
      rw [hNamed, unescape_of_isNameChar (List.all_eq_true.mp (by decide))] at hLocal
      exact .plain hLocal
    have hAttribute : WritesAttribute
        (⟨.attributeStart, ['['], 0⟩ :: ([] ++ [i] ++ [] ++ (o :: q :: ss) ++ [stop]))
        ⟨['a'], .absent, some ⟨.equals, text⟩⟩ :=
      .intro rfl Blank.nil hPlain Blank.nil hComparison hStop
    exact parse_of_part hTokens hVisible (.attributeTest hAttribute) rfl

/-- The same of the argument of `:contains()`. -/
theorem parse_sought_iff :
    parse (":contains(".toList ++ mark.char :: (inside ++ [mark.char, ')'])) limit =
        .ok [.single ⟨offset, [.contains text]⟩] ↔
      offset = 0 ∧ mark.Spells inside text := by
  obtain ⟨a, o, q, hLead, rfl, hOpen, hStart⟩ :=
    opensString_contains mark (inside ++ [mark.char, ')'])
  have hSeen (rest : List Token) :
      Mode.uncommented [⟨.pseudoClass, ":contains".toList, 0⟩, o, q] ++ rest =
        ⟨.pseudoClass, ":contains".toList, 0⟩ :: o :: q :: rest := by
    simp [Mode.uncommented, hOpen, hStart, Token.Kind.isComment]
  constructor
  · intro h
    obtain ⟨tokens, hTokens, hWritten, -⟩ := parse_eq_ok_iff.mp h
    obtain ⟨ss, us, text', hVisible, hString, hSpells⟩ :=
      spells_of_tokenize hLead hTokens (by cases mark <;> decide)
    rw [hVisible, hSeen] at hWritten
    obtain ⟨rfl, rfl, hTail⟩ := hWritten.contains_tail rfl hStart hString
    exact ⟨rfl, hSpells hTail⟩
  · rintro ⟨rfl, hSpells⟩
    have hLast : Mode.argument.recognize? [')'] = some (.parenthesesEnd, 1) := rfl
    obtain ⟨tokens, ss, stop, hTokens, hVisible, hString, hStop⟩ :=
      tokenize_of_spells hLead hSpells hLast rfl rfl
    rw [hSeen] at hVisible
    have hEnclosed : Encloses ⟨.pseudoClass, ":contains".toList, 0⟩ o stop .contains :=
      ⟨rfl, Mode.pseudoName_of_isKeyword (Mode.isKeyword_functionalClass .contains) rfl, hOpen,
        hStop⟩
    have hText : WritesText (q :: ss) text := by
      have hValue := WritesText.intro Blank.nil (.string hStart hString) Blank.nil
      rwa [List.append_nil] at hValue
    exact parse_of_part hTokens hVisible (.contains hEnclosed hText) rfl

/-- Strings are a bijection. An attribute is compared with a text between two marks, and a text
between them is searched for, exactly if the characters between the marks spell it. Every text is
spelled in one way, and nothing spells two texts. -/
theorem parse_string_iff (mark : QuoteMark) (limit : Nat) :
    (∀ inside text offset,
      (parse ("[a=".toList ++ mark.char :: (inside ++ [mark.char, ']'])) limit =
          .ok [.single ⟨offset, [.attribute ⟨['a'], .absent, some ⟨.equals, text⟩⟩]⟩] ↔
        offset = 0 ∧ mark.Spells inside text) ∧
      (parse (":contains(".toList ++ mark.char :: (inside ++ [mark.char, ')'])) limit =
          .ok [.single ⟨offset, [.contains text]⟩] ↔
        offset = 0 ∧ mark.Spells inside text)) ∧
    (∀ text, ∃! inside, mark.Spells inside text) ∧
    ∀ inside text text', mark.Spells inside text → mark.Spells inside text' → text = text' :=
  ⟨fun _ _ _ => ⟨parse_compared_iff, parse_sought_iff⟩, QuoteMark.Spells.existsUnique mark,
    fun _ _ _ => QuoteMark.Spells.text_unique⟩

end Selector

end SelectorXPath
