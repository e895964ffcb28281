import SelectorXPath.Proofs.Positions
import SelectorXPath.Text.Basic

/-! What stands behind a text is no part of what the text ends with, if it begins with a character
that could not be taken for more of the same. Only two things at the end of a text are open to any
such character: a backslash, which would escape it, and an escape by code, which would end with a
blank. So the lengths of names and numbers do not change when what stands behind them is replaced.
-/

namespace SelectorXPath.Text

/-- Characters that are no part of names, numbers and escapes, and do not end a sign that is written
with two characters. -/
def isMark (c : Char) : Bool :=
  !isNameChar c && c ≠ '\\' && c ≠ '=' && c ≠ '*'

/-- `after` can stand behind a text of which `left` is still to be read, and what has been read of
it stays as it is. -/
structure Seam (left after : Text) : Prop where
  mark : ∀ c ∈ after.head?, isMark c = true
  blank : ∀ c ∈ after.head?, isBlank c = true → left ≠ []
  backslash : after ≠ [] → left ≠ ['\\']

/-- Nothing at all can stand behind any text. -/
theorem Seam.nil (left : Text) : Seam left [] :=
  ⟨by simp, by simp, by simp⟩

variable {p t u u' left : Text} {c : Char}

/-- A mark goes on with no name, begins no escape and completes no sign of two characters. -/
theorem isMark_iff : isMark c = true ↔
    isNameChar c = false ∧ c ≠ '\\' ∧ c ≠ '=' ∧ c ≠ '*' := by
  simp [isMark, and_assoc]

theorem isAsciiDigit_of_isMark (h : isMark c = true) : isAsciiDigit c = false := by
  obtain ⟨hName, -⟩ := isMark_iff.mp h
  simp only [isNameChar, Bool.or_eq_false_iff] at hName
  exact hName.1.2

theorem isNameStart_of_isMark (h : isMark c = true) : isNameStart c = false := by
  obtain ⟨hName, -⟩ := isMark_iff.mp h
  simp only [isNameChar, Bool.or_eq_false_iff] at hName
  exact hName.1.1

theorem ne_dash_of_isMark (h : isMark c = true) : c ≠ '-' := by
  rintro rfl
  cases h

/-- A mark ends the code of an escape. -/
theorem hexValue?_of_isMark (h : isMark c = true) : hexValue? c = none := by
  have hDigit := isAsciiDigit_of_isMark h
  have hLetter : isAsciiLetter c = false := by
    have hStart := isNameStart_of_isMark h
    simp only [isNameStart, Bool.or_eq_false_iff] at hStart
    exact hStart.1.1
  simp only [isAsciiDigit, isAsciiLetter, Bool.and_eq_false_iff, Bool.or_eq_false_iff,
    decide_eq_false_iff_not] at hDigit hLetter
  have hNumber : ¬ ('0' ≤ c ∧ c ≤ '9') := by
    rintro ⟨hFrom, hTo⟩
    exact hDigit.elim (absurd hFrom) (absurd hTo)
  have hLower : ¬ ('a' ≤ c ∧ c ≤ 'f') := by
    rintro ⟨hFrom, hTo⟩
    exact hLetter.1.elim (absurd hFrom) (absurd (Char.le_trans hTo (by decide)))
  have hUpper : ¬ ('A' ≤ c ∧ c ≤ 'F') := by
    rintro ⟨hFrom, hTo⟩
    exact hLetter.2.elim (absurd hFrom) (absurd (Char.le_trans hTo (by decide)))
  rw [hexValue?, if_neg hNumber, if_neg hLower, if_neg hUpper]

/-- Less may be left to be read, as long as it does not begin an escape. -/
theorem Seam.of_drop {n : Nat} (h : Seam (left.drop n) u) (hSlash : left ≠ ['\\'] ∨ n = 0) :
    Seam left u where
  mark := h.mark
  blank c hHead hBlank hNil := h.blank c hHead hBlank (by rw [hNil, List.drop_nil])
  backslash hSome := by
    rcases hSlash with hSlash | rfl
    · exact hSlash
    · exact h.backslash hSome

/-- A run that ends inside of `p` ends there with any text behind that does not go on with it. -/
theorem takeWhile_swap {f : Char → Bool} (hInside : ((p ++ u).takeWhile f).length ≤ p.length)
    (hHead : p.drop ((p ++ u).takeWhile f).length = [] → ∀ c ∈ u'.head?, f c = false) :
    (p ++ u').takeWhile f = (p ++ u).takeWhile f := by
  induction p with
  | nil =>
      have hNone : u.takeWhile f = [] := List.eq_nil_of_length_eq_zero (Nat.le_zero.mp hInside)
      rw [List.nil_append, List.nil_append, hNone]
      cases u' with
      | nil => rfl
      | cons c u' => simp [hHead List.drop_nil c rfl]
  | cons c p ih =>
      rw [List.cons_append, List.takeWhile_cons] at hInside hHead
      rw [List.cons_append, List.cons_append, List.takeWhile_cons, List.takeWhile_cons]
      split
      · rename_i hChar
        rw [if_pos hChar, List.length_cons, List.length_cons] at hInside
        rw [if_pos hChar, List.length_cons, List.drop_succ_cons] at hHead
        rw [ih (Nat.le_of_succ_le_succ hInside) hHead]
      · rfl

/-- The same of a run that is limited in length, such as the digits of a code. -/
theorem takeWhile_take_swap {f : Char → Bool} (n : Nat)
    (hInside : (((p ++ u).take n).takeWhile f).length ≤ p.length)
    (hHead : ∀ c ∈ u'.head?, f c = false) :
    ((p ++ u').take n).takeWhile f = ((p ++ u).take n).takeWhile f := by
  induction p generalizing n with
  | nil =>
      have hNone : (u.take n).takeWhile f = [] :=
        List.eq_nil_of_length_eq_zero (Nat.le_zero.mp hInside)
      rw [List.nil_append, List.nil_append, hNone]
      cases n with
      | zero => rfl
      | succ n =>
          cases u' with
          | nil => rfl
          | cons c u' => simp [hHead c rfl]
  | cons c p ih =>
      cases n with
      | zero => rfl
      | succ n =>
          rw [List.cons_append, List.take_succ_cons, List.takeWhile_cons] at hInside
          rw [List.cons_append, List.cons_append, List.take_succ_cons, List.take_succ_cons,
            List.takeWhile_cons, List.takeWhile_cons]
          split
          · rename_i hChar
            rw [if_pos hChar, List.length_cons, List.length_cons] at hInside
            rw [ih n (Nat.le_of_succ_le_succ hInside)]
          · rfl

theorem length_takeWhile_le {f : Char → Bool} (t : Text) : (t.takeWhile f).length ≤ t.length :=
  (List.takeWhile_prefix f).length_le

theorem take_length_takeWhile {f : Char → Bool} (t : Text) :
    t.take (t.takeWhile f).length = t.takeWhile f :=
  (List.prefix_iff_eq_take.mp (List.takeWhile_prefix f)).symm

/-- Where the longest run of characters ends, another character goes on, or nothing. -/
theorem eq_false_of_drop_takeWhile {f : Char → Bool} {t : Text} :
    ∀ c ∈ (t.drop (t.takeWhile f).length).head?, f c = false := by
  have hDrop : t.drop (t.takeWhile f).length = t.dropWhile f := by
    have hLeft : (t.takeWhile f ++ t.dropWhile f).drop (t.takeWhile f).length = t.dropWhile f :=
      List.drop_left
    rwa [List.takeWhile_append_dropWhile] at hLeft
  intro c hc
  have hNot := t.head?_dropWhile_not f
  rw [← hDrop, hc] at hNot
  exact hNot

/-- White space is measured the same with another text behind the seam. -/
theorem blankLength_swap (hInside : blankLength (p ++ u) ≤ p.length)
    (h : Seam (p.drop (blankLength (p ++ u))) u') :
    blankLength (p ++ u') = blankLength (p ++ u) := by
  rw [blankLength, blankLength, takeWhile_swap hInside]
  intro hNil c hHead
  cases hBlank : isBlank c with
  | true => exact absurd hNil (h.blank c hHead hBlank)
  | false => rfl

/-- Digits are measured the same with another text behind the seam; any mark ends them. -/
theorem digitsLength_swap (hInside : digitsLength (p ++ u) ≤ p.length)
    (hMark : ∀ c ∈ u'.head?, isMark c = true) :
    digitsLength (p ++ u') = digitsLength (p ++ u) := by
  rw [digitsLength, digitsLength,
    takeWhile_swap hInside fun _ c hHead => isAsciiDigit_of_isMark (hMark c hHead)]

theorem digitsLength_le (t : Text) : digitsLength t ≤ t.length :=
  length_takeWhile_le t

theorem numberLength_cons (t : Text) (h : c ≠ '-') :
    numberLength (c :: t) = digitsLength (c :: t) := by
  simp [numberLength, h]

/-- A sign in front of the digits makes no difference. -/
theorem numberLength_swap (hInside : numberLength (p ++ u) ≤ p.length)
    (hMark : ∀ c ∈ u'.head?, isMark c = true) :
    numberLength (p ++ u') = numberLength (p ++ u) := by
  cases p with
  | nil =>
      rw [List.nil_append] at hInside ⊢
      rw [List.nil_append, Nat.le_zero.mp hInside]
      cases u' with
      | nil => rfl
      | cons c u' =>
          rw [numberLength_cons u' (ne_dash_of_isMark (hMark c rfl))]
          simp [digitsLength, isAsciiDigit_of_isMark (hMark c rfl)]
  | cons c p =>
      rw [List.cons_append] at hInside ⊢
      rw [List.cons_append]
      by_cases hDash : c = '-'
      · subst hDash
        have hDigits : digitsLength (p ++ u) ≤ p.length := by
          rw [numberLength, List.length_cons] at hInside
          split at hInside
          · rename_i hZero
            rw [hZero]
            exact Nat.zero_le _
          · omega
        rw [numberLength, numberLength, digitsLength_swap hDigits hMark]
      · rw [numberLength_cons _ hDash] at hInside ⊢
        rw [numberLength_cons _ hDash]
        exact digitsLength_swap (p := c :: p) hInside hMark

theorem numberLength_le (t : Text) : numberLength t ≤ t.length := by
  unfold numberLength
  split
  · rename_i more
    have hDigits := digitsLength_le more
    split
    · omega
    · rw [List.length_cons]
      omega
  · exact digitsLength_le t

theorem length_hexDigits (t : Text) : (hexDigits t).length =
    ((t.take 6).takeWhile fun c => (hexValue? c).isSome).length := by
  rw [hexDigits]
  apply List.filterMap_length_eq_length.mpr
  exact List.all_eq_true.mp List.all_takeWhile

/-- What an escape by code consists of, behind its backslash. -/
theorem take_hexDigits (t : Text) : t.take (hexDigits t).length =
    (t.take 6).takeWhile fun c => (hexValue? c).isSome := by
  have hPrefix := (List.takeWhile_prefix fun c => (hexValue? c).isSome).trans (List.take_prefix 6 t)
  rw [length_hexDigits]
  exact (List.prefix_iff_eq_take.mp hPrefix).symm

/-- The digits of a code in front of the seam are the same with another text behind it. -/
theorem hexDigits_swap (hInside : (hexDigits (p ++ u)).length ≤ p.length)
    (hMark : ∀ c ∈ u'.head?, isMark c = true) : hexDigits (p ++ u') = hexDigits (p ++ u) := by
  rw [length_hexDigits] at hInside
  rw [hexDigits, hexDigits, takeWhile_take_swap 6 hInside]
  intro c hHead
  rw [hexValue?_of_isMark (hMark c hHead)]
  rfl

theorem length_hexDigits_le (t : Text) : (hexDigits t).length ≤ t.length := by
  rw [length_hexDigits]
  exact Nat.le_trans (length_takeWhile_le _) (List.length_take_le' 6 t)

theorem escapeEnd_cons {c d : Char} (t : Text) (h : ¬ (c = '\r' ∧ d = '\n')) :
    escapeEnd (c :: d :: t) = if isBlank c then 1 else 0 := by
  unfold escapeEnd
  split
  · rename_i hText
    simp only [List.cons.injEq] at hText
    exact absurd ⟨hText.1, hText.2.1⟩ h
  · rename_i hText
    obtain ⟨rfl, -⟩ := List.cons.inj hText
    rfl
  · rename_i hText
    cases hText

/-- One character that no line feed stands behind. -/
theorem escapeEnd_of_head? {c : Char} (t : Text) (h : c = '\r' → t.head? ≠ some '\n') :
    escapeEnd (c :: t) = if isBlank c then 1 else 0 := by
  cases t with
  | nil => simp [escapeEnd]
  | cons d t => exact escapeEnd_cons t fun ⟨hReturn, hFeed⟩ => h hReturn (by rw [hFeed]; rfl)

theorem escapeEnd_le (t : Text) : escapeEnd t ≤ t.length := by
  unfold escapeEnd
  split
  · simp
  · split <;> simp
  · simp

/-- The blank of an escape is the same. A carriage return at the seam is what the seam is for. -/
theorem escapeEnd_swap (hInside : escapeEnd (p ++ u) ≤ p.length)
    (h : Seam (p.drop (escapeEnd (p ++ u))) u') : escapeEnd (p ++ u') = escapeEnd (p ++ u) := by
  match p with
  | [] =>
      rw [List.nil_append] at hInside ⊢
      rw [List.nil_append, Nat.le_zero.mp hInside]
      cases u' with
      | nil => rfl
      | cons c u' =>
          have hBlank : isBlank c = false := by
            cases hBlank : isBlank c with
            | true => exact absurd List.drop_nil (h.blank c rfl hBlank)
            | false => rfl
          have hReturn : c ≠ '\r' := by
            rintro rfl
            cases hBlank
          rw [escapeEnd_of_head? u' (absurd · hReturn), hBlank]
          rfl
  | [c] =>
      rw [List.singleton_append] at hInside h ⊢
      have hFeed : c = '\r' → u.head? ≠ some '\n' := by
        rintro rfl hFeed
        obtain ⟨u, rfl⟩ := List.head?_eq_some_iff.mp hFeed
        exact absurd hInside (Nat.not_succ_le_self 1)
      have hFeed' : c = '\r' → u'.head? ≠ some '\n' := by
        rintro rfl hFeed'
        rw [escapeEnd_of_head? u hFeed] at h
        exact h.blank '\n' hFeed' (by decide) rfl
      rw [List.singleton_append, escapeEnd_of_head? u hFeed, escapeEnd_of_head? u' hFeed']
  | c :: d :: p =>
      by_cases hLine : c = '\r' ∧ d = '\n'
      · obtain ⟨rfl, rfl⟩ := hLine
        rfl
      · rw [List.cons_append, List.cons_append, List.cons_append, List.cons_append,
          escapeEnd_cons _ hLine, escapeEnd_cons _ hLine]

theorem escapeLength_of_ne (t : Text) (h : c ≠ '\\') : escapeLength (c :: t) = 0 := by
  simp [escapeLength, h]

/-- An escape lies inside of its text. -/
theorem escapeLength_le (t : Text) : escapeLength t ≤ t.length := by
  unfold escapeLength
  split
  · rename_i c t
    split
    · split <;> simp
    · rename_i digits hDigits
      have hLength := length_hexDigits_le (c :: t)
      have hEnd := escapeEnd_le (t.drop digits)
      rw [hDigits, List.length_cons] at hLength
      rw [List.length_drop] at hEnd
      simp only [List.length_cons]
      omega
  · simp

/-- A backslash alone is no escape. -/
theorem escapeLength_ne_one (t : Text) : escapeLength t ≠ 1 := by
  unfold escapeLength
  split
  · split
    · split <;> simp
    · omega
  · simp

/-- An escape with a character of its own in front of the seam. -/
theorem escapeLength_backslash_swap {d : Char}
    (hInside : escapeLength ('\\' :: d :: (p ++ u)) ≤ p.length + 2)
    (h : Seam (('\\' :: d :: p).drop (escapeLength ('\\' :: d :: (p ++ u)))) u') :
    escapeLength ('\\' :: d :: (p ++ u')) = escapeLength ('\\' :: d :: (p ++ u)) := by
  rw [escapeLength] at hInside h ⊢
  cases hCount : (hexDigits (d :: (p ++ u))).length with
  | zero =>
      have hDigits : hexDigits (d :: p ++ u') = hexDigits (d :: p ++ u) := by
        refine hexDigits_swap ?_ h.mark
        rw [List.cons_append, hCount]
        exact Nat.zero_le _
      rw [List.cons_append, List.cons_append] at hDigits
      rw [escapeLength, hDigits, hCount]
  | succ digits =>
      rw [hCount] at hInside h
      simp only at hInside h
      have hFirst : digits ≤ p.length := by omega
      have hDigits : hexDigits (d :: p ++ u') = hexDigits (d :: p ++ u) := by
        refine hexDigits_swap ?_ h.mark
        rw [List.cons_append, hCount, List.length_cons]
        omega
      have hEnd : escapeEnd (p.drop digits ++ u') = escapeEnd (p.drop digits ++ u) := by
        rw [List.drop_append_of_le_length hFirst] at hInside h
        refine escapeEnd_swap ?_ ?_
        · rw [List.length_drop]
          omega
        · rwa [Nat.add_right_comm, List.drop_succ_cons, List.drop_succ_cons,
            ← List.drop_drop] at h
      rw [List.cons_append, List.cons_append] at hDigits
      rw [escapeLength, hDigits, hCount]
      simp only
      rw [List.drop_append_of_le_length hFirst, List.drop_append_of_le_length hFirst, hEnd]

/-- Escapes are measured the same with another text behind the seam. -/
theorem escapeLength_swap (hNe : p ≠ []) (hInside : escapeLength (p ++ u) ≤ p.length)
    (h : Seam (p.drop (escapeLength (p ++ u))) u') :
    escapeLength (p ++ u') = escapeLength (p ++ u) := by
  obtain ⟨c, p, rfl⟩ := List.exists_cons_of_ne_nil hNe
  by_cases hSlash : c = '\\'
  · subst hSlash
    cases p with
    | nil =>
        rw [List.singleton_append] at hInside h ⊢
        have hZero : escapeLength ('\\' :: u) = 0 := by
          have hOne := escapeLength_ne_one ('\\' :: u)
          rw [List.length_singleton] at hInside
          omega
        rw [hZero] at h
        cases u' with
        | nil => exact hZero.symm
        | cons d u' => exact absurd rfl (h.backslash (List.cons_ne_nil d u'))
    | cons d p => exact escapeLength_backslash_swap hInside h
  · rw [List.cons_append, List.cons_append, escapeLength_of_ne _ hSlash]
    exact (escapeLength_of_ne _ hSlash).symm

theorem nameCharLength_le (t : Text) : nameCharLength t ≤ t.length := by
  cases t with
  | nil => simp [nameCharLength]
  | cons c t =>
      rw [nameCharLength]
      split
      · simp
      · exact escapeLength_le _

/-- What is behind a mark is nothing that a name could go on with. -/
theorem nameCharLength_of_isMark (t : Text) (h : isMark c = true) :
    nameCharLength (c :: t) = 0 := by
  obtain ⟨hName, hSlash, -⟩ := isMark_iff.mp h
  rw [nameCharLength, hName, escapeLength_of_ne t hSlash]
  rfl

/-- No name begins with a mark. -/
theorem nameLength_of_isMark (t : Text) (h : isMark c = true) : nameLength (c :: t) = 0 := by
  rw [nameLength, nameCharLength_of_isMark t h]

/-- A character of a name, plain or escaped, is the same. -/
theorem nameCharLength_swap (hInside : nameCharLength (p ++ u) ≤ p.length)
    (h : Seam (p.drop (nameCharLength (p ++ u))) u') :
    nameCharLength (p ++ u') = nameCharLength (p ++ u) := by
  cases p with
  | nil =>
      rw [List.nil_append] at hInside ⊢
      rw [List.nil_append, Nat.le_zero.mp hInside]
      cases u' with
      | nil => rfl
      | cons c u' => exact nameCharLength_of_isMark u' (h.mark c rfl)
  | cons c p =>
      rw [List.cons_append, nameCharLength] at hInside h ⊢
      rw [List.cons_append, nameCharLength]
      split
      · rfl
      · rename_i hName
        rw [if_neg hName] at hInside h
        exact escapeLength_swap (p := c :: p) (List.cons_ne_nil c p) hInside h

theorem nameLength_le (t : Text) : nameLength t ≤ t.length := by
  fun_induction nameLength t with
  | case1 => simp
  | case2 => simp
  | case3 c t n hChar ih =>
      have hLength := nameCharLength_le (c :: t)
      rw [hChar, List.length_cons] at hLength
      rw [List.length_drop] at ih
      rw [List.length_cons]
      omega

/-- A name goes on behind its first character. -/
theorem nameLength_eq_add {n : Nat} (h : nameCharLength t = n + 1) :
    nameLength t = n + 1 + nameLength (t.drop (n + 1)) := by
  cases t with
  | nil => cases h
  | cons c t => rw [nameLength, h, List.drop_succ_cons]

theorem nameLength_of_nameCharLength (h : nameCharLength t = 0) : nameLength t = 0 := by
  cases t with
  | nil => rw [nameLength]
  | cons c t => rw [nameLength, h]

/-- A text that is left to be read behind a part of it is no backslash, if more is read than the
part, since nothing is read of a backslash alone. -/
theorem drop_ne_backslash {n : Nat} (hInside : nameLength (p.drop n ++ u) ≤ (p.drop n).length) :
    p.drop n ≠ ['\\'] ∨ nameLength (p.drop n ++ u) = 0 := by
  by_cases hSame : p.drop n = ['\\']
  · refine Or.inr (nameLength_of_nameCharLength ?_)
    rw [hSame] at hInside ⊢
    cases hMore : nameCharLength (['\\'] ++ u) with
    | zero => rfl
    | succ m =>
        have hOne := escapeLength_ne_one ('\\' :: u)
        have hEscape : nameCharLength (['\\'] ++ u) = escapeLength ('\\' :: u) := rfl
        rw [nameLength_eq_add hMore, List.length_singleton] at hInside
        omega
  · exact Or.inl hSame

/-- A name stays as long as it is, whatever the text that it does not reach is replaced by. -/
theorem nameLength_swap {p u u' : Text} (hInside : nameLength (p ++ u) ≤ p.length)
    (h : Seam (p.drop (nameLength (p ++ u))) u') : nameLength (p ++ u') = nameLength (p ++ u) := by
  cases hChar : nameCharLength (p ++ u) with
  | zero =>
      rw [nameLength_of_nameCharLength hChar] at h ⊢
      refine nameLength_of_nameCharLength ?_
      rw [nameCharLength_swap (by rw [hChar]; exact Nat.zero_le _) (by rwa [hChar]), hChar]
  | succ n =>
      rw [nameLength_eq_add hChar] at hInside h ⊢
      have hFirst : n + 1 ≤ p.length := by omega
      rw [List.drop_append_of_le_length hFirst] at hInside h ⊢
      rw [← List.drop_drop] at h
      have hRest : nameLength (p.drop (n + 1) ++ u) ≤ (p.drop (n + 1)).length := by
        rw [List.length_drop]
        omega
      have hSeam : Seam (p.drop (n + 1)) u' := h.of_drop (drop_ne_backslash hRest)
      have hFirst' : nameCharLength (p ++ u') = n + 1 := by
        rw [nameCharLength_swap (by rw [hChar]; exact hFirst) (by rwa [hChar]), hChar]
      rw [nameLength_eq_add hFirst', List.drop_append_of_le_length hFirst, nameLength_swap hRest h]
termination_by p.length
decreasing_by
  rw [List.length_drop]
  omega

theorem nameStartLength_le (t : Text) : nameStartLength t ≤ t.length := by
  cases t with
  | nil => simp [nameStartLength]
  | cons c t =>
      rw [nameStartLength]
      split
      · simp
      · exact escapeLength_le _

theorem nameStartLength_of_isMark (t : Text) (h : isMark c = true) :
    nameStartLength (c :: t) = 0 := by
  rw [nameStartLength, isNameStart_of_isMark h, escapeLength_of_ne t (isMark_iff.mp h).2.1]
  rfl

/-- What begins an identifier is the same. -/
theorem nameStartLength_swap (hInside : nameStartLength (p ++ u) ≤ p.length)
    (h : Seam (p.drop (nameStartLength (p ++ u))) u') :
    nameStartLength (p ++ u') = nameStartLength (p ++ u) := by
  cases p with
  | nil =>
      rw [List.nil_append] at hInside ⊢
      rw [List.nil_append, Nat.le_zero.mp hInside]
      cases u' with
      | nil => rfl
      | cons c u' => exact nameStartLength_of_isMark u' (h.mark c rfl)
  | cons c p =>
      rw [List.cons_append, nameStartLength] at hInside h ⊢
      rw [List.cons_append, nameStartLength]
      split
      · rfl
      · rename_i hName
        rw [if_neg hName] at hInside h
        exact escapeLength_swap (p := c :: p) (List.cons_ne_nil c p) hInside h

theorem plainIdentifierLength_le (t : Text) : plainIdentifierLength t ≤ t.length := by
  have hStart := nameStartLength_le t
  rw [plainIdentifierLength]
  split
  · exact Nat.zero_le _
  · rename_i n hLength
    have hName := nameLength_le (t.drop (n + 1))
    rw [List.length_drop] at hName
    omega

/-- A plain identifier is one character and a name. -/
theorem plainIdentifierLength_eq_add {n : Nat} (h : nameStartLength t = n + 1) :
    plainIdentifierLength t = n + 1 + nameLength (t.drop (n + 1)) := by
  rw [plainIdentifierLength, h]

theorem plainIdentifierLength_of_nameStartLength (h : nameStartLength t = 0) :
    plainIdentifierLength t = 0 := by
  rw [plainIdentifierLength, h]

/-- An identifier is measured the same, being a character that begins one and a name behind it. -/
theorem plainIdentifierLength_swap (hInside : plainIdentifierLength (p ++ u) ≤ p.length)
    (h : Seam (p.drop (plainIdentifierLength (p ++ u))) u') :
    plainIdentifierLength (p ++ u') = plainIdentifierLength (p ++ u) := by
  cases hStart : nameStartLength (p ++ u) with
  | zero =>
      rw [plainIdentifierLength_of_nameStartLength hStart] at h ⊢
      refine plainIdentifierLength_of_nameStartLength ?_
      rw [nameStartLength_swap (by rw [hStart]; exact Nat.zero_le _) (by rwa [hStart]), hStart]
  | succ n =>
      rw [plainIdentifierLength_eq_add hStart] at hInside h ⊢
      have hFirst : n + 1 ≤ p.length := by omega
      rw [List.drop_append_of_le_length hFirst] at hInside h ⊢
      rw [← List.drop_drop] at h
      have hRest : nameLength (p.drop (n + 1) ++ u) ≤ (p.drop (n + 1)).length := by
        rw [List.length_drop]
        omega
      have hSeam : Seam (p.drop (n + 1)) u' := h.of_drop (drop_ne_backslash hRest)
      have hStart' : nameStartLength (p ++ u') = n + 1 := by
        rw [nameStartLength_swap (by rw [hStart]; exact hFirst) (by rwa [hStart]), hStart]
      rw [plainIdentifierLength_eq_add hStart', List.drop_append_of_le_length hFirst,
        nameLength_swap hRest h]

theorem identifierLength_le (t : Text) : identifierLength t ≤ t.length := by
  unfold identifierLength
  split
  · rename_i t
    have hName := nameLength_le t
    simp only [List.length_cons]
    omega
  · rename_i t _
    have hPlain := plainIdentifierLength_le t
    split
    · exact Nat.zero_le _
    · rw [List.length_cons]
      omega
  · exact plainIdentifierLength_le t

theorem identifierLength_plain (t : Text) (h : c ≠ '-') :
    identifierLength (c :: t) = plainIdentifierLength (c :: t) := by
  unfold identifierLength
  split <;> simp_all

/-- A single dash belongs to the identifier behind it, and begins none without it. -/
theorem identifierLength_dash (h : t.head? ≠ some '-') :
    identifierLength ('-' :: t) =
      if plainIdentifierLength t = 0 then 0 else plainIdentifierLength t + 1 := by
  rw [identifierLength.eq_2 _ (fun more hText => h (by rw [hText]; rfl))]
  split <;> simp_all

/-- No identifier begins with a mark. -/
theorem identifierLength_of_isMark (t : Text) (h : isMark c = true) :
    identifierLength (c :: t) = 0 := by
  rw [identifierLength_plain t (ne_dash_of_isMark h)]
  exact plainIdentifierLength_of_nameStartLength (nameStartLength_of_isMark t h)

/-- Behind two dashes there is a name, which may be empty. -/
theorem identifierLength_twoDashes_swap
    (hInside : identifierLength ('-' :: '-' :: (p ++ u)) ≤ p.length + 2)
    (h : Seam (('-' :: '-' :: p).drop (identifierLength ('-' :: '-' :: (p ++ u)))) u') :
    identifierLength ('-' :: '-' :: (p ++ u')) = identifierLength ('-' :: '-' :: (p ++ u)) := by
  rw [identifierLength] at hInside h ⊢
  rw [identifierLength]
  rw [Nat.add_comm, List.drop_succ_cons, List.drop_succ_cons] at h
  rw [nameLength_swap (by omega) h]

/-- Behind one dash there has to be an identifier without one. -/
theorem identifierLength_dash_swap (hSecond : (p ++ u).head? ≠ some '-')
    (hInside : identifierLength ('-' :: (p ++ u)) ≤ p.length + 1)
    (hSome : u' ≠ [] → identifierLength ('-' :: (p ++ u)) ≠ 0)
    (h : Seam (('-' :: p).drop (identifierLength ('-' :: (p ++ u)))) u') :
    identifierLength ('-' :: (p ++ u')) = identifierLength ('-' :: (p ++ u)) := by
  have hSecond' : (p ++ u').head? ≠ some '-' := by
    cases p with
    | nil =>
        cases u' with
        | nil => simp
        | cons d u' => simpa using ne_dash_of_isMark (h.mark d rfl)
    | cons d p => exact hSecond
  rw [identifierLength_dash hSecond] at hInside hSome h ⊢
  rw [identifierLength_dash hSecond']
  by_cases hZero : plainIdentifierLength (p ++ u) = 0
  · obtain rfl : u' = [] := by
      cases u' with
      | nil => rfl
      | cons d u' => exact absurd (if_pos hZero) (hSome (List.cons_ne_nil d u'))
    rw [plainIdentifierLength_swap (by rw [hZero]; exact Nat.zero_le _) (.nil _)]
  · rw [if_neg hZero] at hInside
    rw [if_neg hZero, List.drop_succ_cons] at h
    rw [plainIdentifierLength_swap (by omega) h]

/-- An identifier stays as long as it is, whatever stands behind it instead. Where there is none, a
dash and a backslash may become one. -/
theorem identifierLength_swap (hInside : identifierLength (p ++ u) ≤ p.length)
    (hSome : u' ≠ [] → identifierLength (p ++ u) ≠ 0)
    (h : Seam (p.drop (identifierLength (p ++ u))) u') :
    identifierLength (p ++ u') = identifierLength (p ++ u) := by
  cases p with
  | nil =>
      rw [List.nil_append] at hInside ⊢
      rw [List.nil_append, Nat.le_zero.mp hInside]
      cases u' with
      | nil => rfl
      | cons c u' => exact identifierLength_of_isMark u' (h.mark c rfl)
  | cons c p =>
      by_cases hDash : c = '-'
      · subst hDash
        by_cases hSecond : (p ++ u).head? = some '-'
        · cases p with
          | nil =>
              obtain ⟨u, rfl⟩ := List.head?_eq_some_iff.mp hSecond
              rw [List.singleton_append, identifierLength, List.length_singleton] at hInside
              omega
          | cons d p =>
              obtain rfl : d = '-' := by simpa using hSecond
              exact identifierLength_twoDashes_swap hInside h
        · exact identifierLength_dash_swap hSecond hInside hSome h
      · rw [List.cons_append] at hInside h ⊢
        rw [List.cons_append, identifierLength_plain _ hDash]
        rw [identifierLength_plain _ hDash] at hInside h ⊢
        exact plainIdentifierLength_swap (p := c :: p) hInside h

/-- Digits that are counted are there. -/
theorem head_of_digitsLength (h : digitsLength t ≠ 0) :
    ∃ d more, isAsciiDigit d = true ∧ t = d :: more := by
  cases t with
  | nil => exact absurd rfl h
  | cons d more =>
      refine ⟨d, more, ?_, rfl⟩
      cases hDigit : isAsciiDigit d with
      | true => rfl
      | false => exact absurd (by simp [digitsLength, hDigit]) h

/-- A number begins with a digit, behind a dash or not. -/
theorem head_of_numberLength (h : numberLength t ≠ 0) :
    ∃ d more, isAsciiDigit d = true ∧ (t = d :: more ∨ t = '-' :: d :: more) := by
  unfold numberLength at h
  split at h
  · rename_i t
    have hDigits : digitsLength t ≠ 0 := by
      intro hZero
      rw [hZero] at h
      exact h rfl
    obtain ⟨d, more, hDigit, rfl⟩ := head_of_digitsLength hDigits
    exact ⟨d, more, hDigit, Or.inr rfl⟩
  · obtain ⟨d, more, hDigit, rfl⟩ := head_of_digitsLength h
    exact ⟨d, more, hDigit, Or.inl rfl⟩

/-- A digit begins no identifier, so numbers and identifiers do not compete. -/
theorem plainIdentifierLength_digit {d : Char} (more : Text) (h : isAsciiDigit d = true) :
    plainIdentifierLength (d :: more) = 0 := by
  have hAll : ∀ d ∈ AnPlusB.asciiDigits,
      isNameStart d = false ∧ d ≠ '\\' := List.all_iff_forall_prop.mp (by decide)
  obtain ⟨hStart, hSlash⟩ := hAll d (AnPlusB.mem_digits h)
  have hLength : nameStartLength (d :: more) = 0 := by
    simp [nameStartLength, hStart, escapeLength, hSlash]
  rw [plainIdentifierLength, hLength]

/-- Where a number begins no identifier does. -/
theorem identifierLength_of_numberLength (h : numberLength t ≠ 0) : identifierLength t = 0 := by
  obtain ⟨d, more, hDigit, hText⟩ := head_of_numberLength h
  have hDash : d ≠ '-' := by
    rintro rfl
    cases hDigit
  rcases hText with rfl | rfl
  · rw [identifierLength_plain more hDash, plainIdentifierLength_digit more hDigit]
  · rw [identifierLength_dash (by simpa using hDash), plainIdentifierLength_digit more hDigit]
    rfl

end SelectorXPath.Text
