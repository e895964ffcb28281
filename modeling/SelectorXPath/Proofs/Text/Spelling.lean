import Mathlib.Data.List.TakeWhile
import SelectorXPath.Text.Basic

/-! A spelling for every text as a name, and one as the inside of a string. In a name each character
is escaped, whatever it is: by its code in six digits and the blank that ends them, or, where no
code names it, by a backslash alone. What an escape swallows then never depends on the text behind
it. In a string only the marks and backslashes are protected, since nothing else may be. -/

namespace SelectorXPath.Text

def codeDigits (n : Nat) : List Nat :=
  [n / 1048576 % 16, n / 65536 % 16, n / 4096 % 16, n / 256 % 16, n / 16 % 16, n % 16]

/-- A character, escaped. No code names the character zero. -/
def escaped (c : Char) : Text :=
  if c = '\x00' then ['\\', c]
  else '\\' :: ((codeDigits c.toNat).map Nat.digitChar ++ [' '])

def nameSpelling (name : Text) : Text :=
  name.flatMap escaped

/-- The characters of a string between double quotation marks that need no backslash. -/
def isQuotable (c : Char) : Bool :=
  c ≠ '\\' ∧ c ≠ '"'

def quotable (c : Char) : Text :=
  if isQuotable c then [c] else ['\\', c]

theorem takeWhile_eq_nil {f : Char → Bool} {t : Text} (h : ∀ d ∈ t.head?, f d = false) :
    t.takeWhile f = [] := by
  cases t with
  | nil => rfl
  | cons d t => simp [h d rfl]

/-- A run of characters of one class, up to one that is not of it. -/
theorem takeWhile_run {f : Char → Bool} {run rest : Text} (hRun : ∀ d ∈ run, f d = true)
    (hRest : ∀ d ∈ rest.head?, f d = false) : (run ++ rest).takeWhile f = run := by
  rw [List.takeWhile_append_of_pos hRun, takeWhile_eq_nil hRest, List.append_nil]

/-- Digits are written in lower case and read back. -/
theorem hexValue?_digitChar : ∀ d < 16, hexValue? (Nat.digitChar d) = some d := by
  decide

theorem filterMap_hexValue? {digits : List Nat} (h : ∀ d ∈ digits, d < 16) :
    (digits.map Nat.digitChar).filterMap hexValue? = digits := by
  induction digits with
  | nil => rfl
  | cons d digits ih =>
      rw [List.map_cons, List.filterMap_cons_some (hexValue?_digitChar d (h d (by simp))),
        ih fun e he => h e (by simp [he])]

theorem codeDigits_lt {n d : Nat} (h : d ∈ codeDigits n) : d < 16 := by
  simp only [codeDigits, List.mem_cons, List.not_mem_nil, or_false] at h
  omega

/-- Six digits are enough for every code. -/
theorem codeDigits_value {n : Nat} (h : n < 16777216) :
    (codeDigits n).foldl (fun n d => 16 * n + d) 0 = n := by
  simp only [codeDigits, List.foldl_cons, List.foldl_nil]
  omega

/-- The digits in front of the blank are read back. -/
theorem hexDigits_codeDigits (n : Nat) (rest : Text) :
    hexDigits ((codeDigits n).map Nat.digitChar ++ ' ' :: rest) = codeDigits n := by
  have hLength : ((codeDigits n).map Nat.digitChar).length = 6 := rfl
  have hSome : ∀ d ∈ codeDigits n, hexValue? (Nat.digitChar d) = some d :=
    fun d hd => hexValue?_digitChar d (codeDigits_lt hd)
  have hWhile : ((codeDigits n).map Nat.digitChar).takeWhile (fun c => (hexValue? c).isSome) =
      (codeDigits n).map Nat.digitChar := by
    refine List.takeWhile_eq_self_iff.mpr fun c hc => ?_
    obtain ⟨d, hd, rfl⟩ := List.mem_map.mp hc
    simp [hSome d hd]
  rw [hexDigits, List.take_left' hLength, hWhile, filterMap_hexValue? fun d hd => codeDigits_lt hd]

/-- An escaped character is an escape whatever stands behind it, because all six digits are
written. -/
theorem escapeLength_escaped (c : Char) (rest : Text) :
    escapeLength (escaped c ++ rest) = (escaped c).length := by
  unfold escaped
  split
  · rename_i hZero
    subst hZero
    rfl
  · have hDigits := hexDigits_codeDigits c.toNat rest
    simp only [codeDigits, List.map_cons, List.map_nil, List.cons_append, List.nil_append]
      at hDigits
    simp [escapeLength, codeDigits, hDigits, escapeEnd, isBlank]

/-- An escaped character stands for that character, whatever stands behind it. -/
theorem escapedChar_escaped (c : Char) (rest : Text) : escapedChar (escaped c ++ rest) = c := by
  unfold escaped
  split
  · rename_i hZero
    subst hZero
    rfl
  · rename_i hSome
    have hDigits := hexDigits_codeDigits c.toNat rest
    have hBound : c.toNat < 16777216 := by
      have := c.valid
      simp only [UInt32.isValidChar, Nat.isValidChar] at this
      have : c.val.toNat = c.toNat := rfl
      omega
    have hValue := codeDigits_value hBound
    have hCode : ofCode c.toNat = c := by
      have hNonzero : c.toNat ≠ 0 := fun h => hSome (by rw [← Char.ofNat_toNat c, h])
      rw [ofCode, if_pos ⟨hNonzero, c.valid⟩, Char.ofNat_toNat]
    simp only [codeDigits, List.map_cons, List.map_nil, List.cons_append, List.nil_append]
      at hDigits hValue ⊢
    simp [escapedChar, hDigits, hValue, hCode]

theorem escaped_eq_cons (c : Char) : ∃ t, escaped c = '\\' :: t := by
  unfold escaped
  split
  · exact ⟨[c], rfl⟩
  · exact ⟨_, rfl⟩

theorem length_escaped_pos (c : Char) : 0 < (escaped c).length := by
  obtain ⟨t, h⟩ := escaped_eq_cons c
  simp [h]

/-- An escape is one character of a name, wherever it stands. -/
theorem nameCharLength_escaped (c : Char) (rest : Text) :
    nameCharLength (escaped c ++ rest) = (escaped c).length := by
  obtain ⟨t, h⟩ := escaped_eq_cons c
  have hLength := escapeLength_escaped c rest
  rw [h, List.cons_append] at hLength ⊢
  exact hLength

theorem nameLength_escaped (c : Char) (rest : Text) :
    nameLength (escaped c ++ rest) = (escaped c).length + nameLength rest := by
  obtain ⟨t, h⟩ := escaped_eq_cons c
  have hLength := nameCharLength_escaped c rest
  rw [h, List.cons_append] at hLength ⊢
  rw [nameLength, hLength, List.length_cons]
  simp

/-- The recognition of names steps over a spelled name as a whole, and goes on behind it. -/
theorem nameLength_nameSpelling (name rest : Text) :
    nameLength (nameSpelling name ++ rest) = (nameSpelling name).length + nameLength rest := by
  induction name with
  | nil => simp [nameSpelling]
  | cons c name ih =>
      rw [nameSpelling, List.flatMap_cons, ← nameSpelling, List.append_assoc, nameLength_escaped,
        ih, List.length_append]
      omega

/-- The spelling of a name is an identifier, if there is any character in it. -/
theorem identifierLength_nameSpelling {name rest : Text} (h : name ≠ [])
    (hRest : nameLength rest = 0) :
    identifierLength (nameSpelling name ++ rest) = (nameSpelling name).length := by
  obtain ⟨c, name, rfl⟩ := List.exists_cons_of_ne_nil h
  obtain ⟨t, hFirst⟩ := escaped_eq_cons c
  have hStart := escapeLength_escaped c (nameSpelling name ++ rest)
  have hMore := nameLength_nameSpelling name rest
  rw [nameSpelling, List.flatMap_cons, ← nameSpelling, List.append_assoc, List.length_append]
  rw [hFirst, List.cons_append] at hStart ⊢
  have hPlain : nameStartLength ('\\' :: (t ++ (nameSpelling name ++ rest))) = t.length + 1 :=
    hStart
  have hIdentifier : identifierLength ('\\' :: (t ++ (nameSpelling name ++ rest))) =
      plainIdentifierLength ('\\' :: (t ++ (nameSpelling name ++ rest))) := rfl
  rw [hIdentifier]
  simp only [plainIdentifierLength, hPlain]
  simp [hMore, hRest]

/-- A name is read back from its spelling. -/
theorem unescape_nameSpelling (name : Text) : unescape (nameSpelling name) = name := by
  induction name with
  | nil => simp [nameSpelling, unescape]
  | cons c name ih =>
      obtain ⟨t, h⟩ := escaped_eq_cons c
      have hLength := escapeLength_escaped c (nameSpelling name)
      have hChar := escapedChar_escaped c (nameSpelling name)
      rw [nameSpelling, List.flatMap_cons, ← nameSpelling]
      rw [h, List.cons_append] at hLength hChar ⊢
      rw [unescape, hLength, List.length_cons]
      simp [hChar, ih]

/-- A character that neither continues a name nor begins an escape. -/
theorem nameLength_cons_eq_zero {c : Char} {t : Text} (hName : isNameChar c = false)
    (hEscape : c ≠ '\\') : nameLength (c :: t) = 0 := by
  have hLength : nameCharLength (c :: t) = 0 := by
    rw [nameCharLength, if_neg (by simp [hName]), escapeLength]
    intro d t h
    exact absurd (List.cons.inj h).1 hEscape
  rw [nameLength, hLength]

/-- Characters that need no escape are recognised one by one. -/
theorem nameLength_append_of_isNameChar {word : Text} (rest : Text)
    (h : ∀ c ∈ word, isNameChar c = true) :
    nameLength (word ++ rest) = word.length + nameLength rest := by
  induction word with
  | nil => simp
  | cons c word ih =>
      have hFirst : nameCharLength (c :: (word ++ rest)) = 1 := by
        simp [nameCharLength, h c]
      rw [List.cons_append, nameLength, hFirst]
      simp [ih fun d hd => h d (by simp [hd])]
      omega

/-- A word that begins like an identifier and needs no escapes. -/
theorem identifierLength_word {c : Char} {word rest : Text} (hFirst : isNameStart c = true)
    (hWord : ∀ d ∈ word, isNameChar d = true) (hRest : nameLength rest = 0) :
    identifierLength (c :: (word ++ rest)) = (c :: word).length := by
  have hDash : c ≠ '-' := by
    rintro rfl
    cases hFirst
  have hStart : nameStartLength (c :: (word ++ rest)) = 1 := by simp [nameStartLength, hFirst]
  have hMore := nameLength_append_of_isNameChar rest hWord
  rw [identifierLength]
  · rw [plainIdentifierLength, hStart]
    simp [hMore, hRest]
    omega
  · intro t h
    exact hDash (List.cons.inj h).1
  · intro t h
    exact hDash (List.cons.inj h).1

/-- Words of the grammar: identifiers in lower case without escapes. -/
def isKeyword : Text → Bool
  | [] => false
  | c :: t => isNameStart c && t.all isNameChar && lower (c :: t) = c :: t

/-- A word that is spelled without escapes and in lower case is the same for the scan and for the
grammar. -/
theorem isKeyword_iff {word : Text} : isKeyword word = true ↔ ∃ c t, word = c :: t ∧
    (isNameStart c = true ∧ ∀ d ∈ t, isNameChar d = true) ∧ lower word = word := by
  cases word with
  | nil => simp [isKeyword]
  | cons c t =>
      simp only [isKeyword, Bool.and_eq_true, List.all_eq_true, decide_eq_true_eq]
      constructor
      · exact fun h => ⟨c, t, rfl, h⟩
      · rintro ⟨d, u, hText, h⟩
        obtain ⟨rfl, rfl⟩ := List.cons.inj hText
        exact h

/-- A word without escapes stands for itself. -/
theorem unescape_of_isNameChar {t : Text} (h : ∀ c ∈ t, isNameChar c = true) :
    unescape t = t := by
  induction t with
  | nil => rw [unescape]
  | cons c t ih =>
      have hLength : escapeLength (c :: t) = 0 := by
        unfold escapeLength
        split
        · rename_i hText
          have hEscape := h c (by simp)
          rw [(List.cons.inj hText).1] at hEscape
          cases hEscape
        · rfl
      rw [unescape, hLength]
      simp [ih fun d hd => h d (by simp [hd])]

/-- A word of the grammar stands for itself. -/
theorem lower_unescape_of_isKeyword {word : Text} (h : isKeyword word = true) :
    lower (unescape word) = word := by
  obtain ⟨c, t, rfl, ⟨hFirst, hMore⟩, hLower⟩ := isKeyword_iff.mp h
  rw [unescape_of_isNameChar, hLower]
  intro d hd
  rcases List.mem_cons.mp hd with rfl | hd
  · simp [isNameChar, hFirst]
  · exact hMore d hd

end SelectorXPath.Text
