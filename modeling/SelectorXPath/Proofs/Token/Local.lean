import SelectorXPath.Proofs.Text.Endings
import SelectorXPath.Proofs.Token.Pieces
import SelectorXPath.Proofs.Token.Recognized

/-! Tokens do not depend on what stands behind them, as long as it begins with a character that they
could not go on with. What a backslash escapes is left to be read together with the backslash, and
strings and comments go on up to the marks that close them. A blank may make a token longer, but
then the token means the same. -/

namespace SelectorXPath

open SelectorXPath.Text

/-- What the grammar takes from the text of a token: the name without its escapes where there is
one. White space is all the same, and no selector is written with a pseudo-element. -/
def Token.Kind.meaning : Token.Kind → Text → Text
  | .whitespace, _ | .pseudoElement, _ => []
  | .identifier, text => unescape text
  | .classSelector, text | .idSelector, text | .pseudoClass, text => unescape (text.drop 1)
  | _, text => text

namespace Mode

open Token

variable {b c : Char} {p t u u' : Text} {kind : Kind} {n : Nat}

/-- A token with this length that a reader finds at the start of a text in two parts lies inside the
text. If it lies inside of the first part, it is the same with another second part. If it is all of
the first part, a blank behind it is no part of it or of no importance. -/
structure IsLocal (read : Text → Option (Kind × Nat)) (p u : Text) (kind : Kind) (n : Nat) :
    Prop where
  pos : 0 < n
  length_le : n ≤ (p ++ u).length
  swap : n ≤ p.length → ∀ u', Seam (p.drop n) u' → read (p ++ u') = some (kind, n)
  blank : n = p.length → ∀ b, isBlank b = true → read (p ++ [b]) = some (kind, n) ∨
    read (p ++ [b]) = some (kind, n + 1) ∧ kind.meaning (p ++ [b]) = kind.meaning p

/-- A token of a fixed length, which is not longer than the first part. -/
theorem isLocal_of_const {read : Text → Option (Kind × Nat)} (hPos : 0 < n) (hInside : n ≤ p.length)
    (h : ∀ u', read (p ++ u') = some (kind, n)) : IsLocal read p u kind n where
  pos := hPos
  length_le := by
    rw [List.length_append]
    omega
  swap _ u' _ := h u'
  blank _ b _ := Or.inl (h [b])

/-- A token that reaches into the second part. -/
theorem isLocal_of_lt {read : Text → Option (Kind × Nat)} (hLength : n ≤ (p ++ u).length)
    (h : p.length < n) : IsLocal read p u kind n where
  pos := Nat.lt_of_le_of_lt (Nat.zero_le _) h
  length_le := hLength
  swap hInside := absurd hInside (Nat.not_le_of_lt h)
  blank hAll := absurd hAll (Nat.ne_of_gt h)

theorem trivia?_eq_none_iff : trivia? (c :: t) = none ↔
    isBlank c = false ∧ ¬ (c = '/' ∧ t.head? = some '*') := by
  unfold trivia?
  cases hBlank : isBlank c with
  | true => simp [blankLength, hBlank]
  | false =>
      have hLength : blankLength (c :: t) = 0 := by simp [blankLength, hBlank]
      rw [hLength]
      cases t with
      | nil => simp
      | cons d t =>
          by_cases hSlash : c = '/'
          · by_cases hStar : d = '*' <;> simp [hSlash, hStar]
          · simp [hSlash]

/-- A mark behind the text makes no comment of it, for it completes no opening mark of one. -/
theorem trivia?_none_swap (h : trivia? (c :: (t ++ u)) = none)
    (hMark : ∀ c ∈ u'.head?, isMark c = true) : trivia? (c :: (t ++ u')) = none := by
  obtain ⟨hBlank, hOpen⟩ := trivia?_eq_none_iff.mp h
  refine trivia?_eq_none_iff.mpr ⟨hBlank, fun ⟨hSlash, hStar⟩ => ?_⟩
  cases t with
  | nil => exact (isMark_iff.mp (hMark '*' hStar)).2.2.2 rfl
  | cons d t => exact hOpen ⟨hSlash, hStar⟩

/-- White space goes on only with blanks, and a comment is opened by two characters. -/
theorem isLocal_trivia? (h : trivia? (c :: (t ++ u)) = some (kind, n)) :
    IsLocal trivia? (c :: t) u kind n := by
  unfold trivia? at h
  split at h
  · rename_i length hLength
    cases h
    have hBlank : blankLength (c :: (t ++ u)) ≤ (c :: (t ++ u)).length := length_takeWhile_le _
    refine ⟨Nat.succ_pos _, by rwa [hLength] at hBlank, fun hInside u' hSeam => ?_,
      fun hAll b hBlank => Or.inr ⟨?_, rfl⟩⟩
    · have hSame : blankLength (c :: t ++ u') = length + 1 := by
        rw [blankLength_swap (u := u) (by rwa [List.cons_append, hLength])
          (by rwa [List.cons_append, hLength]), List.cons_append, hLength]
      simp only [trivia?, hSame]
    · have hMore : blankLength (c :: t ++ [b]) = length + 1 + 1 := by
        rw [Nat.succ_eq_add_one, hAll] at hLength
        rw [hAll]
        exact blankLength_append_blank (p := c :: t) hLength hBlank
      simp only [trivia?, hMore]
  · split at h
    · rename_i hText
      obtain ⟨rfl, hMore⟩ := List.cons.inj hText
      cases h
      cases t with
      | nil =>
          rw [List.nil_append] at hMore
          refine isLocal_of_lt ?_ (by simp)
          rw [hMore]
          simp
      | cons d t =>
          obtain ⟨rfl, -⟩ := List.cons.inj hMore
          exact isLocal_of_const (by simp) (by simp) fun _ => rfl
    · cases h

theorem stringStart?_cons (t : Text) : stringStart? (c :: t) =
    if c = '"' then some (.stringStart .double, 1)
    else if c = '\'' then some (.stringStart .single, 1) else none := by
  by_cases hDouble : c = '"'
  · simp [stringStart?, hDouble]
  · by_cases hSingle : c = '\'' <;> simp [stringStart?, hDouble, hSingle]

/-- One character decides. -/
theorem isLocal_stringStart? (h : stringStart? (c :: (t ++ u)) = some (kind, n)) :
    IsLocal stringStart? (c :: t) u kind n := by
  have hOne : n = 1 := by
    unfold stringStart? at h
    split at h <;> cases h <;> rfl
  refine isLocal_of_const (by omega) (by rw [List.length_cons]; omega) fun u' => ?_
  rw [List.cons_append, stringStart?_cons, ← h, stringStart?_cons]

/-- Names and numbers behind a sign. -/
theorem isLocal_withLead {read : Text → Option (Kind × Nat)} {length : Text → Nat} {t : Text}
    (kind' : Kind) (lead : Text) (hLength : length (t ++ u) ≤ (t ++ u).length)
    (hSwap : length (t ++ u) ≠ 0 → length (t ++ u) ≤ t.length → ∀ u',
      Seam (t.drop (length (t ++ u))) u' → length (t ++ u') = length (t ++ u))
    (hBlank : t ≠ [] → length t = t.length → ∀ b, isBlank b = true →
      length (t ++ [b]) = t.length ∨ length (t ++ [b]) = t.length + 1 ∧
        kind'.meaning (lead ++ (t ++ [b])) = kind'.meaning (lead ++ t))
    (hRead : length (t ++ u) ≠ 0 → length (t ++ u) ≤ t.length → ∀ u',
      read (lead ++ (t ++ u')) = withLead kind' lead.length (length (t ++ u')))
    (h : withLead kind' lead.length (length (t ++ u)) = some (kind, n)) :
    IsLocal read (lead ++ t) u kind n := by
  obtain ⟨hNe, rfl, rfl⟩ := withLead_eq_some_iff.mp h
  constructor
  · omega
  · rw [List.append_assoc, List.length_append]
    omega
  · intro hInside u' hSeam
    rw [List.length_append] at hInside
    have hInner : length (t ++ u) ≤ t.length := by omega
    rw [List.drop_append, List.drop_eq_nil_of_le (by omega), List.nil_append,
      Nat.add_sub_cancel_left] at hSeam
    rw [List.append_assoc, hRead hNe hInner, hSwap hNe hInner u' hSeam, h]
  · intro hAll b hWhite
    rw [List.length_append, Nat.add_left_cancel_iff] at hAll
    have hSome : t ≠ [] := by
      rintro rfl
      exact hNe hAll
    have hAlone : length t = t.length := by
      rw [← hAll, ← hSwap hNe (Nat.le_of_eq hAll) [] (.nil _), List.append_nil]
    rw [List.append_assoc, hRead hNe (Nat.le_of_eq hAll), hAll]
    have hPos := List.length_pos_of_ne_nil hSome
    rcases hBlank hSome hAlone b hWhite with hSame | ⟨hMore, hMeaning⟩
    · exact Or.inl (withLead_eq_some_iff.mpr ⟨by omega, rfl, by rw [hSame]⟩)
    · exact Or.inr
        ⟨withLead_eq_some_iff.mpr ⟨by omega, rfl, by rw [hMore, Nat.add_assoc]⟩, hMeaning⟩

/-- A reader that does the same with every text behind is local too. -/
theorem IsLocal.congr {read read' : Text → Option (Kind × Nat)} (h : IsLocal read p u kind n)
    (hSame : ∀ u', (∀ c ∈ u'.head?, isMark c = true) → read' (p ++ u') = read (p ++ u')) :
    IsLocal read' p u kind n :=
  ⟨h.pos, h.length_le, fun hInside u' hSeam =>
    (hSame u' hSeam.mark).trans (h.swap hInside u' hSeam), fun hAll b hBlank => by
    rw [hSame [b] (isMark_head hBlank [])]
    exact h.blank hAll b hBlank⟩

/-- What the first of two readers finds, or else what the second does. -/
theorem IsLocal.orElse {read read' : Text → Option (Kind × Nat)}
    (hNone : read (p ++ u) = none → ∀ u', (∀ c ∈ u'.head?, isMark c = true) →
      read (p ++ u') = none)
    (h : read (p ++ u) = some (kind, n) → IsLocal read p u kind n)
    (h' : read' (p ++ u) = some (kind, n) → IsLocal read' p u kind n)
    (hRead : (read (p ++ u) <|> read' (p ++ u)) = some (kind, n)) :
    IsLocal (fun t => read t <|> read' t) p u kind n := by
  cases hCase : read (p ++ u) with
  | none =>
      rw [hCase] at hRead
      refine (h' hRead).congr fun u' hMark => ?_
      rw [hNone hCase u' hMark]
      rfl
  | some found =>
      rw [hCase] at hRead
      have hLocal := h (hCase.trans hRead)
      have hFirst {t : Text} {found : Kind × Nat} (h : read t = some found) :
          (read t <|> read' t) = some found := by
        rw [h]
        rfl
      refine ⟨hLocal.pos, hLocal.length_le, fun hInside u' hSeam => ?_, fun hAll b hBlank => ?_⟩
      · exact hFirst (hLocal.swap hInside u' hSeam)
      · exact (hLocal.blank hAll b hBlank).imp hFirst (And.imp_left hFirst)

/-- Signs that are tokens by themselves where selectors are read. -/
def lonelySigns : List Char :=
  ['*', '|', '>', '+', '~', ',', '[', '(', ')', ']']

theorem selectorSign?_colon {d : Char} (t : Text) (h : d ≠ ':') :
    selectorSign? (':' :: d :: t) = withLead .pseudoClass 1 (identifierLength (d :: t)) := by
  simp [selectorSign?, h]

theorem selectorSign?_of_not_mem (t : Text) (h : c ∉ ':' :: '.' :: '#' :: lonelySigns) :
    selectorSign? (c :: t) = nonempty .identifier (identifierLength (c :: t)) := by
  simp only [lonelySigns, List.mem_cons, List.not_mem_nil, not_or, or_false] at h
  simp [selectorSign?, h]

/-- Everything that is a sign with an identifier behind it is local, as identifiers are. -/
theorem isLocal_identifier {t : Text} {read : Text → Option (Kind × Nat)} (kind' : Kind)
    (lead : Text)
    (hMeaning : ∀ t t', unescape t = unescape t' →
      kind'.meaning (lead ++ t) = kind'.meaning (lead ++ t'))
    (hRead : identifierLength (t ++ u) ≠ 0 → identifierLength (t ++ u) ≤ t.length → ∀ u',
      read (lead ++ (t ++ u')) = withLead kind' lead.length (identifierLength (t ++ u')))
    (h : withLead kind' lead.length (identifierLength (t ++ u)) = some (kind, n)) :
    IsLocal read (lead ++ t) u kind n :=
  isLocal_withLead kind' lead (identifierLength_le _)
    (fun hNe hInside _ hSeam => identifierLength_swap hInside (fun _ => hNe) hSeam)
    (fun hSome hAll _ hBlank => (identifierLength_append_blank hSome hAll hBlank).imp_right
      (And.imp_right (hMeaning _ _))) hRead h

/-- The sign in front tells which of the readers above is asked. -/
theorem isLocal_selectorSign? (h : selectorSign? (c :: (t ++ u)) = some (kind, n)) :
    IsLocal selectorSign? (c :: t) u kind n := by
  by_cases hColon : c = ':'
  · subst hColon
    match t with
    | [] =>
        rw [List.nil_append] at h
        match u with
        | [] => cases h
        | d :: u =>
            -- One colon is no token, so this one reaches behind the first part.
            by_cases hSecond : d = ':'
            · subst hSecond
              obtain ⟨hNe, -, rfl⟩ := withLead_eq_some_iff.mp h
              have hLength := identifierLength_le u
              exact isLocal_of_lt (by simp; omega) (by rw [List.length_singleton]; omega)
            · rw [selectorSign?_colon u hSecond] at h
              obtain ⟨hNe, -, rfl⟩ := withLead_eq_some_iff.mp h
              have hLength := identifierLength_le (d :: u)
              exact isLocal_of_lt (by simp at hLength ⊢; omega)
                (by rw [List.length_singleton]; omega)
    | d :: t =>
        by_cases hSecond : d = ':'
        · subst hSecond
          exact isLocal_identifier .pseudoElement [':', ':'] (fun _ _ _ => rfl) (fun _ _ _ => rfl) h
        · rw [List.cons_append, selectorSign?_colon _ hSecond] at h
          exact isLocal_identifier (t := d :: t) .pseudoClass [':'] (fun _ _ hSame => hSame)
            (fun _ _ u' => selectorSign?_colon (t ++ u') hSecond) h
  by_cases hDot : c = '.'
  · subst hDot
    exact isLocal_identifier .classSelector ['.'] (fun _ _ hSame => hSame) (fun _ _ _ => rfl) h
  by_cases hHash : c = '#'
  · subst hHash
    exact isLocal_withLead .idSelector ['#'] (nameLength_le _)
      (fun _ hInside _ hSeam => nameLength_swap hInside hSeam)
      (fun hSome hAll _ hBlank => nameLength_append_blank hSome hAll hBlank) (fun _ _ _ => rfl) h
  by_cases hLonely : c ∈ lonelySigns
  · simp only [lonelySigns, List.mem_cons, List.not_mem_nil, or_false] at hLonely
    rcases hLonely with rfl | rfl | rfl | rfl | rfl | rfl | rfl | rfl | rfl | rfl <;> cases h <;>
      exact isLocal_of_const (by simp) (by simp) fun _ => rfl
  · have hNone : c ∉ ':' :: '.' :: '#' :: lonelySigns := by simp [hColon, hDot, hHash, hLonely]
    rw [selectorSign?_of_not_mem _ hNone] at h
    exact isLocal_identifier (t := c :: t) .identifier [] (fun _ _ hSame => hSame)
      (fun _ _ u' => selectorSign?_of_not_mem (t ++ u') hNone) h

theorem isLocal_selectorToken? (h : selectorToken? (c :: (t ++ u)) = some (kind, n)) :
    IsLocal selectorToken? (c :: t) u kind n :=
  IsLocal.orElse (fun hNone _ hMark => trivia?_none_swap hNone hMark) isLocal_trivia?
    isLocal_selectorSign? h

/-- A number ends inside of the text, or a mark ends it. -/
theorem isLocal_number (h : nonempty .number (numberLength (p ++ u)) = some (kind, n)) :
    IsLocal (fun t => nonempty .number (numberLength t)) p u kind n :=
  isLocal_withLead .number [] (numberLength_le _)
    (fun _ hInside _ hSeam => numberLength_swap hInside hSeam.mark)
    (fun _ hAll _ hBlank => Or.inl (numberLength_append_blank hAll hBlank)) (fun _ _ _ => rfl) h

/-- Where no number is, none is with another second part. -/
theorem number_none_swap (h : nonempty .number (numberLength (p ++ u)) = none) (u' : Text)
    (hMark : ∀ c ∈ u'.head?, isMark c = true) :
    nonempty .number (numberLength (p ++ u')) = none := by
  have hZero : numberLength (p ++ u) = 0 := by simpa [nonempty, withLead] using h
  have hInside : numberLength (p ++ u) ≤ p.length := by
    rw [hZero]
    exact Nat.zero_le _
  rw [numberLength_swap hInside hMark, h]

/-- What begins no string begins none with another text behind. -/
theorem stringStart?_none_swap (h : stringStart? (c :: (t ++ u)) = none) (u' : Text) :
    stringStart? (c :: (t ++ u')) = none := by
  rw [stringStart?_cons, ← stringStart?_cons (t ++ u), h]

/-- Between parentheses numbers are tried before identifiers. Where no number begins, none begins
with another text behind. -/
theorem isLocal_argumentToken? (h : argumentToken? (c :: (t ++ u)) = some (kind, n)) :
    IsLocal argumentToken? (c :: t) u kind n := by
  refine IsLocal.orElse (fun hNone u' _ => stringStart?_none_swap hNone u')
    isLocal_stringStart? ?_ h
  intro hRest
  exact IsLocal.orElse (p := c :: t) number_none_swap isLocal_number isLocal_selectorToken? hRest

def operatorStarts : List Char :=
  ['~', '|', '^', '$', '*']

/-- Where no sign stands, no number and identifier begin both. The number may as well be tried
first. -/
theorem attributeSign?_of_not_mem (t : Text) (h : c ∉ ']' :: '=' :: operatorStarts) :
    attributeSign? (c :: t) =
      (nonempty .number (numberLength (c :: t)) <|>
        nonempty .identifier (identifierLength (c :: t))) := by
  simp only [operatorStarts, List.mem_cons, List.not_mem_nil, not_or, or_false] at h
  have hRead : attributeSign? (c :: t) =
      (nonempty .identifier (identifierLength (c :: t)) <|>
        nonempty .number (numberLength (c :: t))) := by simp [attributeSign?, h]
  rw [hRead]
  by_cases hNumber : numberLength (c :: t) = 0
  · simp [hNumber, nonempty, withLead]
  · rw [identifierLength_of_numberLength hNumber]
    simp [nonempty, withLead]

/-- An equals sign behind one of these characters belongs to it. -/
theorem attributeSign?_operator (t : Text) (h : c ∈ operatorStarts) :
    attributeSign? (c :: '=' :: t) = some (.attributeOperator, 2) := by
  simp only [operatorStarts, List.mem_cons, List.not_mem_nil, or_false] at h
  rcases h with rfl | rfl | rfl | rfl | rfl <;> rfl

/-- What such a character is without an equals sign behind it. -/
theorem attributeSign?_of_operatorStart (h : c ∈ operatorStarts) (hNext : t.head? ≠ some '=') :
    attributeSign? (c :: t) =
      if c = '*' then some (.universal, 1) else if c = '|' then some (.namespaceSeparator, 1)
      else none := by
  have hLengths : ∀ c ∈ ['~', '^', '$'], ∀ t,
      identifierLength (c :: t) = 0 ∧ numberLength (c :: t) = 0 := by
    intro c hMem t
    simp only [List.mem_cons, List.not_mem_nil, or_false] at hMem
    rcases hMem with rfl | rfl | rfl <;>
      simp [identifierLength, plainIdentifierLength, nameStartLength, isNameStart, isAsciiLetter,
        isBeyondAscii, escapeLength, numberLength, digitsLength, isAsciiDigit]
  simp only [operatorStarts, List.mem_cons, List.not_mem_nil, or_false] at h
  cases t with
  | nil =>
      rcases h with rfl | rfl | rfl | rfl | rfl
      all_goals simp [attributeSign?, hLengths, nonempty, withLead]
  | cons d t =>
      have hEquals : d ≠ '=' := fun hSame => hNext (by rw [hSame]; rfl)
      rcases h with rfl | rfl | rfl | rfl | rfl
      all_goals simp [attributeSign?, hEquals, hLengths, nonempty, withLead]

/-- Operators, and the signs of a name that begin like one. -/
theorem isLocal_operatorStart (hStart : c ∈ operatorStarts)
    (h : attributeSign? (c :: (t ++ u)) = some (kind, n)) :
    IsLocal attributeSign? (c :: t) u kind n := by
  by_cases hNext : (t ++ u).head? = some '='
  · cases t with
    | nil =>
        obtain ⟨u, rfl⟩ := List.head?_eq_some_iff.mp hNext
        rw [List.nil_append, attributeSign?_operator u hStart] at h
        cases h
        exact isLocal_of_lt (by simp) (by simp)
    | cons d t =>
        obtain rfl : d = '=' := by simpa using hNext
        rw [List.cons_append, attributeSign?_operator _ hStart] at h
        cases h
        exact isLocal_of_const (by simp) (by simp) fun u' => attributeSign?_operator _ hStart
  · rw [attributeSign?_of_operatorStart hStart hNext] at h
    obtain rfl : n = 1 := by
      split at h
      · cases h
        rfl
      · split at h <;> cases h
        rfl
    have hOther (u' : Text) (hMark : ∀ c ∈ u'.head?, isMark c = true) :
        attributeSign? (c :: t ++ u') = some (kind, 1) := by
      have hNext' : (t ++ u').head? ≠ some '=' := by
        cases t with
        | nil => exact fun hHead => (isMark_iff.mp (hMark '=' hHead)).2.2.1 rfl
        | cons d t => exact hNext
      rw [List.cons_append, attributeSign?_of_operatorStart hStart hNext', h]
    refine ⟨Nat.one_pos, by simp, fun _ u' hSeam => hOther u' hSeam.mark, fun _ b hBlank => ?_⟩
    exact Or.inl (hOther [b] (isMark_head hBlank []))

/-- A mark is no equals sign, so that no operator is completed behind the seam. -/
theorem isLocal_attributeSign? (h : attributeSign? (c :: (t ++ u)) = some (kind, n)) :
    IsLocal attributeSign? (c :: t) u kind n := by
  by_cases hStart : c ∈ operatorStarts
  · exact isLocal_operatorStart hStart h
  by_cases hBracket : c = ']'
  · subst hBracket
    cases h
    exact isLocal_of_const (by simp) (by simp) fun _ => rfl
  by_cases hEquals : c = '='
  · subst hEquals
    cases h
    exact isLocal_of_const (by simp) (by simp) fun _ => rfl
  · have hNone : c ∉ ']' :: '=' :: operatorStarts := by simp [hStart, hBracket, hEquals]
    rw [attributeSign?_of_not_mem _ hNone] at h
    have hName (h : nonempty .identifier (identifierLength (c :: t ++ u)) = some (kind, n)) :
        IsLocal (fun t => nonempty .identifier (identifierLength t)) (c :: t) u kind n :=
      isLocal_identifier (t := c :: t) .identifier [] (fun _ _ hSame => hSame) (fun _ _ _ => rfl) h
    have hLocal : IsLocal (fun t => nonempty .number (numberLength t) <|>
        nonempty .identifier (identifierLength t)) (c :: t) u kind n :=
      IsLocal.orElse number_none_swap isLocal_number hName h
    exact hLocal.congr fun u' _ => attributeSign?_of_not_mem (t ++ u') hNone

/-- Between brackets numbers are tried last. -/
theorem isLocal_attributeToken? (h : attributeToken? (c :: (t ++ u)) = some (kind, n)) :
    IsLocal attributeToken? (c :: t) u kind n := by
  refine IsLocal.orElse (fun hNone _ hMark => trivia?_none_swap hNone hMark) isLocal_trivia? ?_ h
  intro hRest
  exact IsLocal.orElse (fun hNone u' _ => stringStart?_none_swap hNone u') isLocal_stringStart?
    isLocal_attributeSign? hRest

/-- Characters that only begin strings and numbers. -/
theorem selectorToken?_eq_none (h : c ∈ '"' :: '\'' :: '-' :: AnPlusB.asciiDigits)
    (hName : identifierLength (c :: t) = 0) : selectorToken? (c :: t) = none := by
  have hAll : ∀ c ∈ '"' :: '\'' :: '-' :: AnPlusB.asciiDigits,
      isBlank c = false ∧ c ≠ '/' ∧ c ∉ ':' :: '.' :: '#' :: lonelySigns :=
    List.all_iff_forall_prop.mp (by decide)
  obtain ⟨hBlank, hSlash, hSigns⟩ := hAll c h
  rw [selectorToken?, trivia?_of_not_isBlank hBlank hSlash, selectorSign?_of_not_mem t hSigns,
    hName]
  rfl

/-- Strings and selectors begin with different characters. -/
theorem stringStart?_of_selectorToken? (h : (selectorToken? (c :: t)).isSome = true) :
    stringStart? (c :: t) = none := by
  by_cases hMark : c ∈ ['"', '\'']
  · simp only [List.mem_cons, List.not_mem_nil, or_false] at hMark
    have hName : identifierLength (c :: t) = 0 := by
      rcases hMark with rfl | rfl <;>
        simp [identifierLength, plainIdentifierLength, nameStartLength, isNameStart,
          isAsciiLetter, isBeyondAscii, escapeLength]
    have hMem : c ∈ '"' :: '\'' :: '-' :: AnPlusB.asciiDigits := by
      rcases hMark with rfl | rfl <;> simp
    rw [selectorToken?_eq_none hMem hName] at h
    cases h
  · simp only [List.mem_cons, List.not_mem_nil, or_false, not_or] at hMark
    simp [stringStart?, hMark]

/-- Numbers and selectors do too, because a minus sign in front of a digit begins no identifier. -/
theorem numberLength_of_selectorToken? (h : (selectorToken? (c :: t)).isSome = true) :
    numberLength (c :: t) = 0 := by
  by_cases hNumber : numberLength (c :: t) = 0
  · exact hNumber
  · obtain ⟨d, more, hDigit, hText⟩ := head_of_numberLength hNumber
    have hMem : c ∈ '"' :: '\'' :: '-' :: AnPlusB.asciiDigits := by
      rcases hText with hText | hText <;> obtain ⟨rfl, -⟩ := List.cons.inj hText
      · simp [AnPlusB.mem_digits hDigit]
      · simp
    rw [selectorToken?_eq_none hMem (identifierLength_of_numberLength hNumber)] at h
    cases h

/-- What begins a token outside of all brackets begins the same one between parentheses. -/
theorem argumentToken?_of_selectorToken? (h : selectorToken? (c :: t) = some (kind, n)) :
    argumentToken? (c :: t) = some (kind, n) := by
  have hSome : (selectorToken? (c :: t)).isSome = true := by rw [h]; rfl
  rw [argumentToken?, stringStart?_of_selectorToken? hSome, nonempty,
    numberLength_of_selectorToken? hSome, h]
  rfl

/-- Modes that hold any text up to what closes them. -/
def holdsText : Mode → Bool
  | .string _ | .comment => true
  | _ => false

theorem HoldsSelectors.holdsText {mode : Mode} (h : mode.HoldsSelectors) :
    mode.holdsText = false := by
  rcases h with rfl | rfl <;> rfl

/-- A token inside of a string is the same with another text behind, unless it is a run of
characters that may go on there. -/
theorem stringToken?_swap {mark : QuoteMark}
    (h : stringToken? mark (c :: (t ++ u)) = some (kind, n)) :
    0 < n ∧ n ≤ (c :: (t ++ u)).length ∧ (n ≤ (c :: t).length →
      (Mode.string mark).isClosedBy kind = true ∨ (c :: t).drop n ≠ [] → ∀ u',
        stringToken? mark (c :: (t ++ u')) = some (kind, n)) := by
  rw [stringToken?_cons] at h
  by_cases hMark : c = mark.char
  · rw [if_pos hMark] at h
    cases h
    exact ⟨by simp, by simp, fun _ _ u' => by rw [stringToken?_cons, if_pos hMark]⟩
  rw [if_neg hMark] at h
  by_cases hSlash : c = '\\'
  · rw [if_pos hSlash] at h
    split at h
    · rename_i hProtected
      cases h
      have hSome : t ++ u ≠ [] := by
        intro hNil
        rw [hNil] at hProtected
        simp at hProtected
      refine ⟨by simp, ?_, fun hInside _ u' => ?_⟩
      · have hPos := List.length_pos_iff.mpr hSome
        rw [List.length_cons]
        omega
      · cases t with
        | nil => simp at hInside
        | cons d t =>
            rw [stringToken?_cons, if_neg hMark, if_pos hSlash]
            exact if_pos hProtected
    · cases h
  · rw [if_neg hSlash] at h
    cases h
    have hRun := length_takeWhile_le (f := fun d => d ≠ '\\' ∧ d ≠ mark.char) (t ++ u)
    refine ⟨by omega, by rw [List.length_cons]; omega, fun hInside hEnd u' => ?_⟩
    rw [List.length_cons, Nat.add_comm 1] at hInside
    have hMore : t.drop ((t ++ u).takeWhile fun d => d ≠ '\\' ∧ d ≠ mark.char).length ≠ [] := by
      rcases hEnd with hClosed | hMore
      · cases mark <;> cases hClosed
      · rwa [Nat.add_comm, List.drop_succ_cons] at hMore
    rw [stringToken?_cons, if_neg hMark, if_neg hSlash,
      takeWhile_swap (Nat.le_of_succ_le_succ hInside) fun hNil => absurd hNil hMore]

theorem commentLength_le (t : Text) : commentLength t ≤ t.length := by
  fun_induction commentLength t with
  | case1 => simp
  | case2 => simp
  | case3 c t _ ih => simpa using ih

theorem commentLength_close (t : Text) : commentLength ('*' :: '/' :: t) = 0 := by
  rw [commentLength]

/-- The text of a comment goes on with every character that does not begin the closing mark. -/
theorem commentLength_cons (t : Text) (h : ¬ (c = '*' ∧ t.head? = some '/')) :
    commentLength (c :: t) = commentLength t + 1 := by
  rw [commentLength]
  rintro more rfl rfl
  exact h ⟨rfl, rfl⟩

/-- A text without the mark that closes a comment goes on to its end. -/
theorem commentLength_of_not_infix (t : Text) (h : ¬ ['*', '/'] <:+: t) :
    commentLength t = t.length := by
  fun_induction commentLength t with
  | case1 => rfl
  | case2 more => exact absurd ⟨[], more, rfl⟩ h
  | case3 c t _ ih =>
      exact congrArg (· + 1) (ih fun hInside => h (hInside.trans (List.suffix_cons c t).isInfix))

/-- A closing mark in front of `rest` is not completed by the one that follows. -/
theorem not_close_append {t : Text} (rest : Text) (h : ¬ (c = '*' ∧ t.head? = some '/')) :
    ¬ (c = '*' ∧ (t ++ '*' :: '/' :: rest).head? = some '/') := by
  cases t with
  | nil => simp
  | cons d t => exact h

/-- Behind any text of a comment the closing mark is found where it stands. -/
theorem commentLength_append_close (t rest : Text) :
    commentLength (t ++ '*' :: '/' :: rest) = commentLength t := by
  induction t with
  | nil => exact commentLength_close rest
  | cons c t ih =>
      by_cases hClose : c = '*' ∧ t.head? = some '/'
      · obtain ⟨rfl, hSlash⟩ := hClose
        obtain ⟨more, rfl⟩ := List.head?_eq_some_iff.mp hSlash
        exact (commentLength_close _).trans (commentLength_close more).symm
      · rw [List.cons_append, commentLength_cons _ (not_close_append rest hClose),
          commentLength_cons _ hClose, ih]

/-- The text of a comment that ends with the mark behind it, which lies in the first part. -/
theorem commentLength_swap (h : ∃ more, p.drop (commentLength (p ++ u)) = '*' :: '/' :: more) :
    commentLength (p ++ u') = commentLength (p ++ u) := by
  induction p with
  | nil =>
      obtain ⟨more, hMore⟩ := h
      rw [List.drop_nil] at hMore
      cases hMore
  | cons c p ih =>
      rw [List.cons_append] at h ⊢
      rw [List.cons_append]
      by_cases hClose : c = '*' ∧ (p ++ u).head? = some '/'
      · obtain ⟨rfl, hSlash⟩ := hClose
        cases p with
        | nil =>
            obtain ⟨u, rfl⟩ := List.head?_eq_some_iff.mp hSlash
            obtain ⟨more, hMore⟩ := h
            rw [List.nil_append, commentLength_close] at hMore
            cases hMore
        | cons d p =>
            obtain rfl : d = '/' := by simpa using hSlash
            rw [List.cons_append, List.cons_append, commentLength_close, commentLength_close]
      · rw [commentLength_cons _ hClose] at h ⊢
        rw [List.drop_succ_cons] at h
        have hClose' : ¬ (c = '*' ∧ (p ++ u').head? = some '/') := by
          rintro ⟨hStar, hSlash⟩
          cases p with
          | nil =>
              obtain ⟨more, hMore⟩ := h
              rw [List.drop_nil] at hMore
              cases hMore
          | cons d p => exact hClose ⟨hStar, hSlash⟩
        rw [commentLength_cons _ hClose', ih h]

theorem commentToken?_of_ne (t : Text) (h : ∀ more, t ≠ '*' :: '/' :: more) :
    commentToken? t = nonempty .commentText (commentLength t) :=
  commentToken?.eq_2 t fun more hText => h more hText

theorem commentToken?_close (t : Text) : commentToken? ('*' :: '/' :: t) = some (.commentEnd, 2) :=
  rfl

theorem commentToken?_cons (t : Text) (h : ¬ (c = '*' ∧ t.head? = some '/')) :
    commentToken? (c :: t) = some (.commentText, commentLength t + 1) := by
  rw [commentToken?_of_ne, commentLength_cons t h]
  · simp [nonempty, withLead]
  · rintro more hText
    obtain ⟨rfl, rfl⟩ := List.cons.inj hText
    exact h ⟨rfl, rfl⟩

/-- The text of a comment is the same with another text behind if its closing mark stands in front
of the seam. -/
theorem commentToken?_swap (h : commentToken? (c :: (t ++ u)) = some (kind, n)) :
    0 < n ∧ n ≤ (c :: (t ++ u)).length ∧ (n ≤ (c :: t).length →
      (Mode.comment.isClosedBy kind = true ∨
        ∃ more, (c :: t).drop n = '*' :: '/' :: more) → ∀ u',
        commentToken? (c :: (t ++ u')) = some (kind, n)) := by
  by_cases hClose : c = '*' ∧ (t ++ u).head? = some '/'
  · obtain ⟨rfl, hSlash⟩ := hClose
    obtain ⟨more, hMore⟩ := List.head?_eq_some_iff.mp hSlash
    rw [hMore, commentToken?_close] at h
    cases h
    refine ⟨Nat.two_pos, by rw [hMore]; simp, fun hInside _ u' => ?_⟩
    cases t with
    | nil => simp at hInside
    | cons d t =>
        obtain ⟨rfl, -⟩ := List.cons.inj hMore
        exact commentToken?_close _
  · rw [commentToken?_cons _ hClose] at h
    cases h
    have hLength := commentLength_le (t ++ u)
    refine ⟨Nat.succ_pos _, by rw [List.length_cons]; omega, fun hInside hEnd u' => ?_⟩
    obtain ⟨more, hMore⟩ :
        ∃ more, (c :: t).drop (commentLength (t ++ u) + 1) = '*' :: '/' :: more := by
      rcases hEnd with hClosed | hMore
      · cases hClosed
      · exact hMore
    rw [List.drop_succ_cons] at hMore
    have hClose' : ¬ (c = '*' ∧ (t ++ u').head? = some '/') := by
      rintro ⟨hStar, hSlash⟩
      cases t with
      | nil =>
          rw [List.drop_nil] at hMore
          cases hMore
      | cons d t => exact hClose ⟨hStar, hSlash⟩
    rw [commentToken?_cons _ hClose', commentLength_swap ⟨more, hMore⟩]

/-- What is left of a text behind a token does not leave it open where the text goes on: inside of a
string the text does, and inside of a comment the mark that closes it. -/
def IsHeld (mode : Mode) (left : Text) : Prop :=
  (∀ mark, mode = .string mark → left ≠ []) ∧
    (mode = .comment → ∃ more, left = '*' :: '/' :: more)

/-- The next token of any mode is the same whatever stands behind the text, if that is nothing which
the token would go on with. -/
theorem recognize?_swap {mode : Mode} (h : mode.recognize? (c :: (t ++ u)) = some (kind, n)) :
    0 < n ∧ n ≤ (c :: (t ++ u)).length ∧ (n ≤ (c :: t).length →
      (mode.isClosedBy kind = true ∨ mode.IsHeld ((c :: t).drop n)) → ∀ u',
      Seam ((c :: t).drop n) u' → mode.recognize? (c :: (t ++ u')) = some (kind, n)) := by
  cases mode with
  | selector =>
      have hLocal := isLocal_selectorToken? h
      exact ⟨hLocal.pos, hLocal.length_le, fun hInside _ => hLocal.swap hInside⟩
  | «attribute» =>
      have hLocal := isLocal_attributeToken? h
      exact ⟨hLocal.pos, hLocal.length_le, fun hInside _ => hLocal.swap hInside⟩
  | argument =>
      have hLocal := isLocal_argumentToken? h
      exact ⟨hLocal.pos, hLocal.length_le, fun hInside _ => hLocal.swap hInside⟩
  | string mark =>
      obtain ⟨hPos, hLength, hSwap⟩ := stringToken?_swap h
      refine ⟨hPos, hLength, fun hInside hEnd u' _ => hSwap hInside ?_ u'⟩
      exact hEnd.imp_right fun hHeld => hHeld.1 mark rfl
  | comment =>
      obtain ⟨hPos, hLength, hSwap⟩ := commentToken?_swap h
      refine ⟨hPos, hLength, fun hInside hEnd u' _ => hSwap hInside ?_ u'⟩
      exact hEnd.imp_right fun hHeld => hHeld.2 rfl

/-- A blank behind a token is no part of it, or it does not change what the token means. In a string
or a comment this is so behind the mark that closes it. -/
theorem recognize?_append_blank {mode : Mode}
    (h : mode.recognize? (c :: t) = some (kind, (c :: t).length))
    (hEnd : mode.holdsText = false ∨ mode.isClosedBy kind = true) (hBlank : isBlank b = true) :
    mode.recognize? (c :: (t ++ [b])) = some (kind, (c :: t).length) ∨
      mode.recognize? (c :: (t ++ [b])) = some (kind, (c :: t).length + 1) ∧
        kind.meaning (c :: (t ++ [b])) = kind.meaning (c :: t) := by
  have hAlone : mode.recognize? (c :: (t ++ [])) = some (kind, (c :: t).length) := by
    rwa [List.append_nil]
  cases mode with
  | selector => exact (isLocal_selectorToken? hAlone).blank rfl b hBlank
  | «attribute» => exact (isLocal_attributeToken? hAlone).blank rfl b hBlank
  | argument => exact (isLocal_argumentToken? hAlone).blank rfl b hBlank
  | string mark =>
      obtain ⟨-, -, hSwap⟩ := stringToken?_swap hAlone
      exact Or.inl (hSwap (Nat.le_refl _) (Or.inl (hEnd.resolve_left nofun)) [b])
  | comment =>
      obtain ⟨-, -, hSwap⟩ := commentToken?_swap hAlone
      exact Or.inl (hSwap (Nat.le_refl _) (Or.inl (hEnd.resolve_left nofun)) [b])

/-- A token lies inside of the text that it is found in. -/
theorem length_of_recognize? {mode : Mode} (h : mode.recognize? (c :: t) = some (kind, n)) :
    0 < n ∧ n ≤ (c :: t).length := by
  have hSwap := recognize?_swap (t := []) (u := t) h
  exact ⟨hSwap.1, hSwap.2.1⟩

end Mode

end SelectorXPath
