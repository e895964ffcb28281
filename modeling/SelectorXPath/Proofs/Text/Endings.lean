import SelectorXPath.Proofs.Text.Stops

/-! A blank behind a name. It is no part of the name, unless the name ends in an escape by code:
then it may end the escape, or complete the line break that ends it, and the name stands for the
same. -/

namespace SelectorXPath.Text

variable {p t u : Text} {b c : Char}

theorem isMark_of_isBlank (h : isBlank b = true) : isMark b = true := by
  simp only [isBlank, Bool.or_eq_true, decide_eq_true_eq] at h
  rcases h with (((rfl | rfl) | rfl) | rfl) | rfl <;> decide

/-- A blank ends what stands in front of it like any other mark. -/
theorem isMark_head (hBlank : isBlank b = true) (t : Text) :
    ∀ c ∈ (b :: t).head?, isMark c = true := by
  rintro _ ⟨⟩
  exact isMark_of_isBlank hBlank

theorem isBlank_of_isLineEnd (h : isLineEnd c = true) : isBlank c = true := by
  simp only [isLineEnd, Bool.or_eq_true, decide_eq_true_eq] at h
  rcases h with (rfl | rfl) | rfl <;> decide

/-- Whether an escape is one by code is decided by the character behind the backslash. -/
theorem length_hexDigits_cons (c : Char) (t : Text) :
    (hexDigits (c :: t)).length = 0 ↔ hexValue? c = none := by
  rw [length_hexDigits, List.take_succ_cons, List.takeWhile_cons]
  cases hexValue? c <;> simp

/-- A backslash begins an escape if a character stands behind it that does not end the line. -/
theorem escapeLength_ne_zero_iff : escapeLength (c :: t) ≠ 0 ↔
    c = '\\' ∧ ∃ d ∈ t.head?, isLineEnd d = false := by
  by_cases hSlash : c = '\\'
  · subst hSlash
    cases t with
    | nil => simp [escapeLength]
    | cons d t =>
        rw [escapeLength]
        cases hCount : (hexDigits (d :: t)).length with
        | zero => simp
        | succ digits =>
            have hLine : isLineEnd d = false := by
              cases hLine : isLineEnd d with
              | false => rfl
              | true =>
                  have hNone := hexValue?_of_isMark (isMark_of_isBlank (isBlank_of_isLineEnd hLine))
                  rw [(length_hexDigits_cons d t).mpr hNone] at hCount
                  cases hCount
            simp [hLine]
  · simp [escapeLength_of_ne t hSlash, hSlash]

/-- More text may lengthen an escape, but it takes none away. -/
theorem escapeLength_append_ne_zero (h : escapeLength (c :: t) ≠ 0) (u : Text) :
    escapeLength (c :: (t ++ u)) ≠ 0 := by
  obtain ⟨hSlash, d, hHead, hLine⟩ := escapeLength_ne_zero_iff.mp h
  obtain ⟨t, rfl⟩ := List.head?_eq_some_iff.mp hHead
  exact escapeLength_ne_zero_iff.mpr ⟨hSlash, d, rfl, hLine⟩

/-- What can begin an identifier still can, with more text behind it. -/
theorem nameStartLength_append_ne_zero (h : nameStartLength t ≠ 0) (u : Text) :
    nameStartLength (t ++ u) ≠ 0 := by
  cases t with
  | nil => exact absurd rfl h
  | cons c t =>
      rw [nameStartLength] at h
      rw [List.cons_append, nameStartLength]
      split
      · exact Nat.one_ne_zero
      · rename_i hStart
        rw [if_neg hStart] at h
        exact escapeLength_append_ne_zero h u

/-- The first character decides whether there is an identifier. -/
theorem plainIdentifierLength_ne_zero_iff :
    plainIdentifierLength t ≠ 0 ↔ nameStartLength t ≠ 0 := by
  cases hStart : nameStartLength t with
  | zero => simp [plainIdentifierLength_of_nameStartLength hStart]
  | succ n => simp [plainIdentifierLength_eq_add hStart]

/-- A dash begins no plain identifier, so the forms with dashes do not overlap with it. -/
theorem head?_ne_dash_of_nameStartLength (h : nameStartLength t ≠ 0) : t.head? ≠ some '-' := by
  intro hDash
  obtain ⟨t, rfl⟩ := List.head?_eq_some_iff.mp hDash
  rw [nameStartLength, escapeLength_of_ne t (by decide)] at h
  exact h rfl

/-- What begins an identifier begins one whatever stands behind it. -/
theorem identifierLength_ne_zero_iff : identifierLength t ≠ 0 ↔
    (∃ more, t = '-' :: '-' :: more) ∨ nameStartLength t ≠ 0 ∨
      ∃ more, t = '-' :: more ∧ nameStartLength more ≠ 0 := by
  cases t with
  | nil => simp [identifierLength, plainIdentifierLength, nameStartLength]
  | cons c t =>
      by_cases hDash : c = '-'
      · subst hDash
        by_cases hSecond : t.head? = some '-'
        · obtain ⟨t, rfl⟩ := List.head?_eq_some_iff.mp hSecond
          simp [identifierLength]
        · have hStart : nameStartLength ('-' :: t) = 0 := by
            rw [nameStartLength, escapeLength_of_ne t (by decide)]
            rfl
          rw [identifierLength_dash hSecond, hStart]
          constructor
          · intro h
            refine Or.inr (Or.inr ⟨t, rfl, plainIdentifierLength_ne_zero_iff.mp fun hZero => ?_⟩)
            exact h (if_pos hZero)
          · rintro (⟨more, hText⟩ | h | ⟨more, hText, h⟩)
            · rw [(List.cons.inj hText).2] at hSecond
              exact absurd rfl hSecond
            · exact absurd rfl h
            · obtain ⟨-, rfl⟩ := List.cons.inj hText
              rw [if_neg (plainIdentifierLength_ne_zero_iff.mpr h)]
              exact Nat.succ_ne_zero _
      · rw [identifierLength_plain t hDash, plainIdentifierLength_ne_zero_iff]
        simp [hDash]

/-- An identifier does not vanish when the text goes on. -/
theorem identifierLength_append_ne_zero (h : identifierLength t ≠ 0) (u : Text) :
    identifierLength (t ++ u) ≠ 0 := by
  rw [identifierLength_ne_zero_iff] at h ⊢
  rcases h with ⟨more, rfl⟩ | h | ⟨more, rfl, h⟩
  · exact Or.inl ⟨more ++ u, rfl⟩
  · exact Or.inr (Or.inl (nameStartLength_append_ne_zero h u))
  · exact Or.inr (Or.inr ⟨more ++ u, rfl, nameStartLength_append_ne_zero h u⟩)

/-- The first character of an identifier is one of a name. -/
theorem nameCharLength_of_nameStartLength (h : nameStartLength t ≠ 0) :
    nameCharLength t = nameStartLength t := by
  cases t with
  | nil => rfl
  | cons c t =>
      rw [nameStartLength] at h
      rw [nameCharLength, nameStartLength]
      by_cases hStart : isNameStart c = true
      · simp [isNameChar, hStart]
      · rw [if_neg hStart] at h
        obtain ⟨rfl, -⟩ := escapeLength_ne_zero_iff.mp h
        rfl

theorem plainIdentifierLength_eq_nameLength (h : nameStartLength t ≠ 0) :
    plainIdentifierLength t = nameLength t := by
  obtain ⟨n, hStart⟩ := Nat.exists_eq_succ_of_ne_zero h
  rw [plainIdentifierLength_eq_add hStart,
    nameLength_eq_add ((nameCharLength_of_nameStartLength h).trans hStart)]

/-- A dash goes on with a name, wherever it stands. -/
theorem nameLength_dash (t : Text) : nameLength ('-' :: t) = nameLength t + 1 := by
  have hChar : nameCharLength ('-' :: t) = 1 := rfl
  rw [nameLength_eq_add hChar, List.drop_succ_cons, List.drop_zero, Nat.add_comm]

/-- An identifier is a name that begins like one. -/
theorem identifierLength_eq_nameLength (h : identifierLength t ≠ 0) :
    identifierLength t = nameLength t := by
  rcases identifierLength_ne_zero_iff.mp h with ⟨more, rfl⟩ | hStart | ⟨more, rfl, hStart⟩
  · rw [identifierLength, nameLength_dash, nameLength_dash]
    omega
  · cases t with
    | nil => exact absurd rfl hStart
    | cons c t =>
        have hDash : c ≠ '-' := by
          rintro rfl
          exact head?_ne_dash_of_nameStartLength hStart rfl
        rw [identifierLength_plain t hDash, plainIdentifierLength_eq_nameLength hStart]
  · rw [identifierLength_dash (head?_ne_dash_of_nameStartLength hStart),
      if_neg (plainIdentifierLength_ne_zero_iff.mpr hStart),
      plainIdentifierLength_eq_nameLength hStart, nameLength_dash]

/-- A blank is no digit and ends the code. -/
theorem hexDigits_append_blank (t : Text) (hBlank : isBlank b = true) :
    hexDigits (t ++ [b]) = hexDigits t := by
  have hInside : (hexDigits (t ++ [])).length ≤ t.length := by
    rw [List.append_nil]
    exact length_hexDigits_le t
  rw [hexDigits_swap hInside (isMark_head hBlank []), List.append_nil]

/-- One more blank belongs to the escape, or to what stands behind it. -/
theorem escapeEnd_append_blank (h : escapeEnd t = t.length) (hBlank : isBlank b = true) :
    escapeEnd (t ++ [b]) = t.length ∨ escapeEnd (t ++ [b]) = t.length + 1 := by
  match t with
  | [] =>
      rw [List.nil_append, escapeEnd_of_head? [] (by simp), if_pos hBlank]
      exact Or.inr rfl
  | [c] =>
      by_cases hLine : c = '\r' ∧ b = '\n'
      · obtain ⟨rfl, rfl⟩ := hLine
        exact Or.inr rfl
      · rw [escapeEnd_of_head? [] (by simp)] at h
        rw [List.singleton_append, escapeEnd_cons [] hLine]
        exact Or.inl h
  | c :: d :: t =>
      by_cases hLine : c = '\r' ∧ d = '\n'
      · obtain ⟨rfl, rfl⟩ := hLine
        exact Or.inl h
      · rw [escapeEnd_cons t hLine] at h
        split at h <;> simp at h

/-- A blank behind an escape may belong to it. -/
theorem escapeLength_append_blank (hSome : t ≠ []) (h : escapeLength t = t.length)
    (hBlank : isBlank b = true) :
    escapeLength (t ++ [b]) = t.length ∨ escapeLength (t ++ [b]) = t.length + 1 := by
  match t with
  | [] => exact absurd rfl hSome
  | [c] => exact absurd h (escapeLength_ne_one [c])
  | c :: d :: t =>
      have hNe : escapeLength (c :: d :: t) ≠ 0 := by
        rw [h]
        exact Nat.succ_ne_zero _
      obtain ⟨rfl, -⟩ := escapeLength_ne_zero_iff.mp hNe
      have hDigits := hexDigits_append_blank (d :: t) hBlank
      rw [List.cons_append] at hDigits
      rw [escapeLength] at h
      rw [List.cons_append, List.cons_append, escapeLength, hDigits]
      cases hCount : (hexDigits (d :: t)).length with
      | zero =>
          rw [hCount] at h
          exact Or.inl h
      | succ digits =>
          rw [hCount] at h
          simp only [List.length_cons] at h ⊢
          have hInside : digits ≤ t.length := by omega
          have hEnd : escapeEnd (t.drop digits) = (t.drop digits).length := by
            rw [List.length_drop]
            omega
          rw [List.drop_append_of_le_length hInside]
          rcases escapeEnd_append_blank hEnd hBlank with hMore | hMore
          · rw [hMore, List.length_drop]
            omega
          · rw [hMore, List.length_drop]
            omega

/-- A blank at the end of an escape does not change the character. -/
theorem escapedChar_append_blank (c d : Char) (t : Text) (hBlank : isBlank b = true) :
    escapedChar (c :: d :: t ++ [b]) = escapedChar (c :: d :: t) := by
  have hDigits := hexDigits_append_blank (d :: t) hBlank
  rw [List.cons_append] at hDigits
  rw [List.cons_append, List.cons_append, escapedChar, escapedChar, hDigits]

/-- The first character of a name is replaced by what it stands for. -/
theorem unescape_of_nameCharLength {n : Nat} (h : nameCharLength (c :: t) = n + 1) :
    unescape (c :: t) =
      (if isNameChar c then c else escapedChar (c :: t)) :: unescape (t.drop n) := by
  rw [nameCharLength] at h
  split at h
  · rename_i hName
    obtain rfl : n = 0 := by omega
    have hSlash : c ≠ '\\' := by
      rintro rfl
      cases hName
    rw [unescape, escapeLength_of_ne t hSlash, if_pos hName]
    rfl
  · rename_i hName
    rw [unescape, h, if_neg hName]

/-- A blank behind an escape that is a name may belong to it. -/
theorem nameLength_append_blank_of_escape (hName : isNameChar c = false)
    (h : escapeLength (c :: t) = t.length + 1) (hBlank : isBlank b = true) :
    nameLength (c :: t ++ [b]) = t.length + 1 ∨
      nameLength (c :: t ++ [b]) = t.length + 1 + 1 ∧
        unescape (c :: t ++ [b]) = unescape (c :: t) := by
  have hChar (t : Text) : nameCharLength (c :: t) = escapeLength (c :: t) := by
    rw [nameCharLength, if_neg (by simp [hName])]
  rcases escapeLength_append_blank (List.cons_ne_nil c t) h hBlank with hSame | hMore
  · rw [List.cons_append, ← hChar] at hSame
    refine Or.inl ?_
    rw [List.cons_append, nameLength_eq_add hSame, List.drop_succ_cons, List.drop_left,
      nameLength_of_isMark [] (isMark_of_isBlank hBlank)]
  · rw [List.cons_append, ← hChar] at hMore
    obtain ⟨d, t, rfl⟩ : ∃ d more, t = d :: more := by
      cases t with
      | nil => exact absurd h (escapeLength_ne_one [c])
      | cons d t => exact ⟨d, t, rfl⟩
    have hNil : (d :: t ++ [b]).drop (d :: t ++ [b]).length = [] := List.drop_length ..
    have hLength : (d :: t ++ [b]).length = (d :: t).length + 1 := List.length_append
    rw [hLength] at hNil
    refine Or.inr ⟨?_, ?_⟩
    · rw [List.cons_append, nameLength_eq_add hMore, List.drop_succ_cons, List.length_cons, hNil,
        nameLength]
    · have hEscaped := escapedChar_append_blank c d t hBlank
      rw [← hChar] at h
      rw [List.cons_append] at hEscaped ⊢
      rw [unescape_of_nameCharLength hMore, unescape_of_nameCharLength h, hEscaped,
        List.length_cons, hNil, List.drop_length]

/-- A blank behind the last character of a name may belong to it. -/
theorem nameLength_append_blank_of_last (h : nameCharLength (c :: t) = t.length + 1)
    (hBlank : isBlank b = true) :
    nameLength (c :: t ++ [b]) = t.length + 1 ∨
      nameLength (c :: t ++ [b]) = t.length + 1 + 1 ∧
        unescape (c :: t ++ [b]) = unescape (c :: t) := by
  by_cases hName : isNameChar c = true
  · rw [nameCharLength, if_pos hName] at h
    obtain rfl : t = [] := List.eq_nil_of_length_eq_zero (by omega)
    have hOne : nameCharLength [c, b] = 0 + 1 := by rw [nameCharLength, if_pos hName]
    refine Or.inl ?_
    rw [List.singleton_append, nameLength_eq_add hOne, List.drop_succ_cons, List.drop_zero,
      nameLength_of_isMark [] (isMark_of_isBlank hBlank)]
    rfl
  · rw [nameCharLength, if_neg hName] at h
    exact nameLength_append_blank_of_escape (by simpa using hName) h hBlank

/-- A character of a name with others behind it does not see the end of the name. -/
theorem nameCharLength_append_blank {n : Nat} (h : nameCharLength (c :: t) = n + 1)
    (hRest : t.drop n ≠ []) (hSlash : t.drop n ≠ ['\\']) (hBlank : isBlank b = true) :
    nameCharLength (c :: (t ++ [b])) = n + 1 := by
  have hSeam : Seam ((c :: t).drop (nameCharLength (c :: t ++ []))) [b] := by
    rw [List.append_nil, h, List.drop_succ_cons]
    exact ⟨isMark_head hBlank [], fun _ _ _ => hRest, fun _ => hSlash⟩
  rw [← List.cons_append, nameCharLength_swap ?_ hSeam, List.append_nil, h]
  rw [List.append_nil]
  exact nameCharLength_le _

/-- A blank behind a name may belong to the escape that the name ends in, which then stands for the
same character. -/
theorem nameLength_append_blank {t : Text} (hSome : t ≠ []) (h : nameLength t = t.length)
    (hBlank : isBlank b = true) :
    nameLength (t ++ [b]) = t.length ∨
      nameLength (t ++ [b]) = t.length + 1 ∧ unescape (t ++ [b]) = unescape t := by
  fun_induction nameLength t with
  | case1 => exact absurd rfl hSome
  | case2 => cases h
  | case3 c t n hChar ih =>
      have hFirst := nameCharLength_le (c :: t)
      rw [hChar, List.length_cons] at hFirst
      have hMore : nameLength (t.drop n) = (t.drop n).length := by
        rw [List.length_cons] at h
        rw [List.length_drop]
        omega
      by_cases hRest : t.drop n = []
      · obtain rfl : n = t.length := by
          have hAll := List.drop_eq_nil_iff.mp hRest
          omega
        exact nameLength_append_blank_of_last hChar hBlank
      · have hSlash : t.drop n ≠ ['\\'] := by
          intro hSlash
          have hZero : nameLength ['\\'] = 0 := nameLength_of_nameCharLength rfl
          rw [hSlash, hZero] at hMore
          cases hMore
        have hChar' := nameCharLength_append_blank hChar hRest hSlash hBlank
        have hDrop : (t ++ [b]).drop n = t.drop n ++ [b] := List.drop_append_of_le_length (by omega)
        have hLength : (t.drop n).length = t.length - n := List.length_drop
        rw [List.cons_append, nameLength_eq_add hChar', List.drop_succ_cons, hDrop,
          unescape_of_nameCharLength hChar', unescape_of_nameCharLength hChar, hDrop,
          List.length_cons]
        have hFirstChar : escapedChar (c :: (t ++ [b])) = escapedChar (c :: t) := by
          cases t with
          | nil => exact absurd List.drop_nil hRest
          | cons d t => exact escapedChar_append_blank c d t hBlank
        rcases ih hRest hMore with hSame | ⟨hLonger, hUnescaped⟩
        · rw [hSame]
          omega
        · rw [hLonger, hUnescaped, hFirstChar]
          exact Or.inr ⟨by omega, rfl⟩

/-- White space takes up one more blank. -/
theorem blankLength_append_blank (h : blankLength (p ++ u) = p.length) (hBlank : isBlank b = true) :
    blankLength (p ++ [b]) = p.length + 1 := by
  induction p with
  | nil => simp [blankLength, hBlank]
  | cons c p ih =>
      rw [blankLength, List.cons_append, List.takeWhile_cons] at h
      rw [blankLength, List.cons_append, List.takeWhile_cons]
      split at h
      · rename_i hFirst
        rw [if_pos hFirst, List.length_cons, List.length_cons, ← blankLength,
          ih (Nat.succ.inj h)]
      · cases h

/-- A blank is no part of the number in front of it. -/
theorem numberLength_append_blank (h : numberLength p = p.length) (hBlank : isBlank b = true) :
    numberLength (p ++ [b]) = p.length := by
  have hInside : numberLength (p ++ []) ≤ p.length := by
    rw [List.append_nil]
    exact numberLength_le p
  rw [numberLength_swap hInside (isMark_head hBlank []), List.append_nil, h]

/-- The same is true of an identifier. -/
theorem identifierLength_append_blank (hSome : t ≠ []) (h : identifierLength t = t.length)
    (hBlank : isBlank b = true) :
    identifierLength (t ++ [b]) = t.length ∨
      identifierLength (t ++ [b]) = t.length + 1 ∧ unescape (t ++ [b]) = unescape t := by
  have hNe : identifierLength t ≠ 0 := by
    rw [h]
    exact fun hZero => hSome (List.eq_nil_of_length_eq_zero hZero)
  rw [identifierLength_eq_nameLength hNe] at h
  rw [identifierLength_eq_nameLength (identifierLength_append_ne_zero hNe [b])]
  exact nameLength_append_blank hSome h hBlank

end SelectorXPath.Text
