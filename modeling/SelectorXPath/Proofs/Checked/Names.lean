import SelectorXPath.Proofs.Checked.Text
import SelectorXPath.Proofs.Text.Endings

/-!
# Names, cut out of bytes

The recognition and the decoding of names, once more with offsets in bytes and with every cut of a
text made by an operation that can fail. None of them does, and the results are those of
`SelectorXPath.Text`: a length in bytes is the size of as many characters as the length there says.
-/

namespace SelectorXPath.Checked

open SelectorXPath.Text

/-- The size of the first `n` characters of a text. No characters at all are no match. -/
def reach? (t : Text) (n : Nat) : Option Nat :=
  if n = 0 then none else some (byteLength (t.take n))

def isHexDigit (c : Char) : Bool :=
  (hexValue? c).isSome

/-- The size of the escape in front. Its digits are counted as bytes, and what ends them is looked
for behind as many bytes. -/
def escape : Text → Checked (Option Nat)
  | '\\' :: first :: t =>
    if isLineEnd first then some none
    else if isHexDigit first then do
      let digits := (((bytes (first :: t)).take 6).takeWhile (onByte isHexDigit)).length
      let tail ← fromByte? (first :: t) digits
      return some (1 + digits + escapeEnd tail)
    else some (some (1 + first.utf8Size))
  | _ => some none

def nameChar : Text → Checked (Option Nat)
  | [] => some none
  | c :: t => if isNameChar c then some (some c.utf8Size) else escape (c :: t)

def nameStart : Text → Checked (Option Nat)
  | [] => some none
  | c :: t => if isNameStart c then some (some c.utf8Size) else escape (c :: t)

/-- The offset behind the name characters that begin at the offset `length`. -/
def nameEnd (rest : Text) : (turns length : Nat) → Checked Nat
  | 0, _ => none
  | turns + 1, length => do
    let tail ← fromByte? rest length
    match ← nameChar tail with
    | some step => nameEnd rest turns (length + step)
    | none => return length

def name (rest : Text) : Checked (Option Nat) := do
  let length ← nameEnd rest (rest.length + 1) 0
  return if length = 0 then none else some length

/-- The offset behind an identifier that goes on at the offset `start`. -/
def identifierEnd (rest : Text) (start : Nat) : Checked (Option Nat) := do
  let tail ← fromByte? rest start
  let length ← name tail
  return some (start + length.getD 0)

def plainIdentifier (rest : Text) (dash : Nat) : Checked (Option Nat) := do
  let tail ← fromByte? rest dash
  match ← nameStart tail with
  | some first => identifierEnd rest (dash + first)
  | none => return none

def identifier : Text → Checked (Option Nat)
  | '-' :: '-' :: t => identifierEnd ('-' :: '-' :: t) 2
  | '-' :: t => plainIdentifier ('-' :: t) 1
  | t => plainIdentifier t 0

def plainNumber (rest : Text) (sign : Nat) : Checked (Option Nat) := do
  let tail ← fromByte? rest sign
  let digits := ((bytes tail).takeWhile (onByte isAsciiDigit)).length
  return if digits = 0 then none else some (sign + digits)

def number : Text → Checked (Option Nat)
  | '-' :: t => plainNumber ('-' :: t) 1
  | t => plainNumber t 0

def decoded : Text → Text
  | [] => []
  | c :: t => if isHexDigit c then [escapedChar ('\\' :: c :: t)] else c :: t

/-- Decodes `rest` behind what has been decoded already. -/
def unescapeFrom : (turns : Nat) → (done rest : Text) → Checked Text
  | 0, _, _ => none
  | turns + 1, done, rest =>
    match firstByte? (· = '\\') rest with
    | none => some (done ++ rest)
    | some offset => do
      let plain ← uptoByte? rest offset
      let rest ← fromByte? rest offset
      match ← escape rest with
      | none =>
        let rest ← fromByte? rest 1
        unescapeFrom turns (done ++ plain ++ ['\\']) rest
      | some length =>
        let body ← between? rest 1 length
        let rest ← fromByte? rest length
        unescapeFrom turns (done ++ plain ++ decoded body) rest

def unescape (raw : Text) : Checked Text :=
  unescapeFrom (raw.length + 1) [] raw

theorem reach?_zero (t : Text) : reach? t 0 = none :=
  rfl

/-- A match has at least one character, and its size is that of its characters. -/
theorem reach?_succ (t : Text) (n : Nat) : reach? t (n + 1) = some (byteLength (t.take (n + 1))) :=
  rfl

/-- A size of zero means that there are no characters, because every one of them takes a byte. -/
theorem byteLength_take_eq_zero_iff {t : Text} {n : Nat} (h : n ≤ t.length) :
    byteLength (t.take n) = 0 ↔ n = 0 := by
  cases n with
  | zero => simp [byteLength]
  | succ n =>
    cases t with
    | nil => simp at h
    | cons c t =>
      have hSize := c.utf8Size_pos
      simp only [List.take_succ_cons, byteLength]
      omega

/-- A size of zero bytes says, as a length of zero characters does, that there is no match. -/
theorem reach?_eq_ite {t : Text} {n : Nat} (h : n ≤ t.length) :
    reach? t n = if byteLength (t.take n) = 0 then none else some (byteLength (t.take n)) := by
  simp only [reach?, byteLength_take_eq_zero_iff h]

/-- The size of two matches one behind the other is the sum of theirs. -/
theorem byteLength_take_add (t : Text) (m n : Nat) :
    byteLength (t.take (m + n)) = byteLength (t.take m) + byteLength ((t.drop m).take n) := by
  rw [List.take_add, byteLength_append]

/-- Two pieces behind each other reach as far as both together. -/
theorem reach?_add (t : Text) {m : Nat} (h : m ≠ 0) (n : Nat) :
    reach? t (m + n) = some (byteLength (t.take m) + byteLength ((t.drop m).take n)) := by
  rw [← byteLength_take_add]
  exact if_neg (by omega)

theorem ascii_of_isBlank {c : Char} (h : isBlank c = true) : c.toNat < 128 := by
  simp only [isBlank, Bool.or_eq_true, decide_eq_true_eq] at h
  rcases h with (((rfl | rfl) | rfl) | rfl) | rfl <;> decide

theorem ascii_of_isAsciiDigit {c : Char} (h : isAsciiDigit c = true) : c.toNat < 128 := by
  simp only [isAsciiDigit, Bool.and_eq_true, decide_eq_true_eq] at h
  exact Nat.lt_of_le_of_lt (Char.le_def.mp h.2) (by decide)

/-- Digits take one byte, so that they can be counted as bytes. -/
theorem ascii_of_isHexDigit {c : Char} (h : isHexDigit c = true) : c.toNat < 128 := by
  have hRange : c ≤ '9' ∨ c ≤ 'f' ∨ c ≤ 'F' := by
    unfold isHexDigit hexValue? at h
    split at h
    · rename_i hDigit
      exact .inl hDigit.2
    · split at h
      · rename_i hLower
        exact .inr (.inl hLower.2)
      · split at h
        · rename_i hUpper
          exact .inr (.inr hUpper.2)
        · cases h
  rcases hRange with hLe | hLe | hLe
  · exact Nat.lt_of_le_of_lt (Char.le_def.mp hLe) (by decide)
  · exact Nat.lt_of_le_of_lt (Char.le_def.mp hLe) (by decide)
  · exact Nat.lt_of_le_of_lt (Char.le_def.mp hLe) (by decide)

/-- What ends an escape by code is made of blanks. -/
theorem isBlank_of_mem_escapeEnd {t : Text} {c : Char} (h : c ∈ t.take (escapeEnd t)) :
    isBlank c = true := by
  unfold escapeEnd at h
  split at h
  · have hPair : c = '\r' ∨ c = '\n' := by simpa using h
    rcases hPair with rfl | rfl <;> decide
  · rename_i d t _
    split at h
    · rename_i hBlank
      obtain rfl : c = d := by simpa using h
      exact hBlank
    · simp at h
  · simp at h

/-- Digits counted as bytes are as many as digits counted as characters. -/
theorem length_digitBytes (t : Text) :
    (((bytes t).take 6).takeWhile (onByte isHexDigit)).length = (hexDigits t).length := by
  rw [length_hexDigits, ← List.take_takeWhile, List.length_take,
    length_takeWhile_bytes fun c => ascii_of_isHexDigit, ← List.length_take, List.take_takeWhile]
  rfl

/-- The characters that are counted as digits are digits. -/
theorem isHexDigit_of_mem_take {t : Text} {c : Char} (h : c ∈ t.take (hexDigits t).length) :
    isHexDigit c = true := by
  rw [take_hexDigits] at h
  exact List.mem_takeWhile_imp h

theorem exists_length_hexDigits {c : Char} (t : Text) (h : isHexDigit c = true) :
    ∃ digits, (hexDigits (c :: t)).length = digits + 1 := by
  refine Nat.exists_eq_succ_of_ne_zero fun hZero => ?_
  simp [isHexDigit, (length_hexDigits_cons c t).mp hZero] at h

/-- An escape by code: its digits take a byte each, and so does the blank that ends it. -/
theorem escape_of_isHexDigit {c : Char} (t : Text) (h : isHexDigit c = true) :
    escape ('\\' :: c :: t) = some (reach? ('\\' :: c :: t) (escapeLength ('\\' :: c :: t))) := by
  have hLine : isLineEnd c = false := by
    cases hEnd : isLineEnd c with
    | false => rfl
    | true =>
      have hNone := hexValue?_of_isMark (isMark_of_isBlank (isBlank_of_isLineEnd hEnd))
      simp [isHexDigit, hNone] at h
  obtain ⟨digits, hDigits⟩ := exists_length_hexDigits t h
  have hSize : byteLength ((c :: t).take (digits + 1)) = digits + 1 := by
    rw [← hDigits, byteLength_of_ascii fun d hd => ascii_of_isHexDigit (isHexDigit_of_mem_take hd),
      List.length_take_of_le (length_hexDigits_le _)]
  have hTail : fromByte? (c :: t) (digits + 1) = some (t.drop digits) := by
    have hCut := fromByte?_take (c :: t) (digits + 1)
    rwa [hSize] at hCut
  have hEnding : byteLength ((t.drop digits).take (escapeEnd (t.drop digits))) =
      escapeEnd (t.drop digits) := by
    rw [byteLength_of_ascii fun d hd => ascii_of_isBlank (isBlank_of_mem_escapeEnd hd),
      List.length_take_of_le (escapeEnd_le _)]
  have hLength : escapeLength ('\\' :: c :: t) = digits + 1 + escapeEnd (t.drop digits) + 1 := by
    rw [escapeLength, hDigits]
    dsimp only
    omega
  have hReach : byteLength (('\\' :: c :: t).take (digits + 1 + escapeEnd (t.drop digits) + 1)) =
      1 + (digits + 1) + escapeEnd (t.drop digits) := by
    rw [List.take_succ_cons, byteLength, List.take_add, byteLength_append, hSize,
      List.drop_succ_cons, hEnding]
    exact (Nat.add_assoc ..).symm
  rw [escape, hLine, h, length_digitBytes, hDigits, hLength, reach?_succ, hReach]
  simp [hTail]

/-- Escapes have the size of the characters that the recognition of escapes counts. No slice falls
inside a character. -/
theorem escape_eq (t : Text) : escape t = some (reach? t (escapeLength t)) := by
  match t with
  | [] => rfl
  | [c] =>
    by_cases hSlash : c = '\\'
    · subst hSlash
      rfl
    · rw [escapeLength_of_ne [] hSlash]
      simp [escape, reach?_zero]
  | c :: d :: t =>
    by_cases hSlash : c = '\\'
    · subst hSlash
      cases hHex : isHexDigit d with
      | true => exact escape_of_isHexDigit t hHex
      | false =>
        have hNone : hexValue? d = none := by simpa [isHexDigit] using hHex
        rw [escapeLength, (length_hexDigits_cons d t).mpr hNone, escape, hHex]
        cases isLineEnd d <;> rfl
    · rw [escapeLength_of_ne (d :: t) hSlash]
      simp [escape, hSlash, reach?_zero]

theorem nameChar_eq (t : Text) : nameChar t = some (reach? t (nameCharLength t)) := by
  cases t with
  | nil => rfl
  | cons c t =>
    rw [nameChar, nameCharLength]
    split
    · rfl
    · exact escape_eq (c :: t)

theorem nameStart_eq (t : Text) : nameStart t = some (reach? t (nameStartLength t)) := by
  cases t with
  | nil => rfl
  | cons c t =>
    rw [nameStart, nameStartLength]
    split
    · rfl
    · exact escape_eq (c :: t)

/-- The loop goes on where it stands between two characters, and ends behind the name. Each turn
but the last takes a character or more. -/
theorem nameEnd_eq {turns : Nat} (front t : Text) (h : t.length < turns) :
    nameEnd (front ++ t) turns (byteLength front) =
      some (byteLength front + byteLength (t.take (nameLength t))) := by
  induction turns generalizing front t with
  | zero => exact absurd h (Nat.not_lt_zero _)
  | succ turns ih =>
    rw [nameEnd, fromByte?_append]
    simp only [Option.bind_eq_bind, Option.bind_some, nameChar_eq]
    cases hChar : nameCharLength t with
    | zero =>
      rw [nameLength_of_nameCharLength hChar]
      rfl
    | succ n =>
      have hInside : n + 1 ≤ t.length := hChar ▸ nameCharLength_le t
      have hShorter : (t.drop (n + 1)).length < turns := by
        rw [List.length_drop]
        omega
      have hNext := ih (front ++ t.take (n + 1)) (t.drop (n + 1)) hShorter
      rw [List.append_assoc, List.take_append_drop, byteLength_append] at hNext
      rw [nameLength_eq_add hChar, byteLength_take_add t (n + 1), ← Nat.add_assoc]
      exact hNext

/-- The loop over the characters of a name ends, and it ends where the name does. -/
theorem name_eq (t : Text) : name t = some (reach? t (nameLength t)) := by
  have hEnd := nameEnd_eq [] t (Nat.lt_succ_self _)
  simp only [List.nil_append, byteLength, Nat.zero_add] at hEnd
  simp only [name, hEnd, reach?_eq_ite (nameLength_le t), Option.bind_eq_bind, Option.bind_some]
  rfl

/-- An identifier goes on with as many name characters as follow what it begins with. -/
theorem identifierEnd_eq (t : Text) (n : Nat) :
    identifierEnd t (byteLength (t.take (n + 1))) =
      some (reach? t (n + 1 + nameLength (t.drop (n + 1)))) := by
  have hMore : (reach? (t.drop (n + 1)) (nameLength (t.drop (n + 1)))).getD 0 =
      byteLength ((t.drop (n + 1)).take (nameLength (t.drop (n + 1)))) := by
    cases nameLength (t.drop (n + 1)) <;> rfl
  simp only [identifierEnd, fromByte?_take, name_eq, Option.bind_eq_bind, Option.bind_some, hMore,
    reach?_add t (Nat.succ_ne_zero n)]
  rfl

theorem plainIdentifier_eq (front t : Text) :
    plainIdentifier (front ++ t) (byteLength front) =
      some (if plainIdentifierLength t = 0 then none
        else reach? (front ++ t) (front.length + plainIdentifierLength t)) := by
  simp only [plainIdentifier, fromByte?_append, nameStart_eq, Option.bind_eq_bind,
    Option.bind_some]
  cases hStart : nameStartLength t with
  | zero =>
    rw [plainIdentifierLength_of_nameStartLength hStart]
    rfl
  | succ n =>
    have hTake : (front ++ t).take (front.length + n + 1) = front ++ t.take (n + 1) := by
      rw [Nat.add_assoc, List.take_length_add_append]
    have hDrop : (front ++ t).drop (front.length + n + 1) = t.drop (n + 1) := by
      rw [Nat.add_assoc, List.drop_length_add_append]
    have hEnd := identifierEnd_eq (front ++ t) (front.length + n)
    rw [hTake, hDrop, byteLength_append] at hEnd
    rw [plainIdentifierLength_eq_add hStart, if_neg (by omega), ← Nat.add_assoc]
    exact hEnd

/-- Identifiers have the size of their characters. -/
theorem identifier_eq (t : Text) : identifier t = some (reach? t (identifierLength t)) := by
  unfold identifier
  split
  · rename_i t
    exact identifierEnd_eq ('-' :: '-' :: t) 1
  · rename_i t hDash
    have hHead : t.head? ≠ some '-' := fun hHead => by
      obtain ⟨more, rfl⟩ := List.head?_eq_some_iff.mp hHead
      exact hDash more rfl
    have hPlain := plainIdentifier_eq ['-'] t
    rw [identifierLength_dash hHead]
    refine hPlain.trans (congrArg some ?_)
    split
    · rfl
    · rw [Nat.add_comm]
      rfl
  · rename_i hPair hDash
    have hPlain := plainIdentifier_eq [] t
    have hLength : identifierLength t = plainIdentifierLength t := by
      cases t with
      | nil => rfl
      | cons c t => exact identifierLength_plain t fun hc => hDash t (by rw [hc])
    rw [hLength]
    refine hPlain.trans (congrArg some ?_)
    split
    · rename_i hZero
      rw [hZero]
      rfl
    · rw [List.length_nil, Nat.zero_add]
      rfl

theorem plainNumber_eq (front t : Text) :
    plainNumber (front ++ t) (byteLength front) =
      some (if digitsLength t = 0 then none
        else reach? (front ++ t) (front.length + digitsLength t)) := by
  have hSize : byteLength (t.take (digitsLength t)) = digitsLength t := by
    have hDigits : t.take (digitsLength t) = t.takeWhile isAsciiDigit := take_length_takeWhile t
    rw [hDigits, byteLength_of_ascii fun c hc => ascii_of_isAsciiDigit (List.mem_takeWhile_imp hc)]
    rfl
  simp only [plainNumber, fromByte?_append, Option.bind_eq_bind, Option.bind_some,
    length_takeWhile_bytes fun c => ascii_of_isAsciiDigit]
  change some (if digitsLength t = 0 then none else some (byteLength front + digitsLength t)) = _
  split
  · rfl
  · rename_i hSome
    rw [reach?, if_neg (by omega), List.take_length_add_append, byteLength_append, hSize]

/-- Numbers have the size of their characters. -/
theorem number_eq (t : Text) : number t = some (reach? t (numberLength t)) := by
  unfold number
  split
  · rename_i t
    refine (plainNumber_eq ['-'] t).trans (congrArg some ?_)
    rw [numberLength]
    cases digitsLength t with
    | zero => rfl
    | succ n =>
      rw [if_neg (Nat.succ_ne_zero n), Nat.add_comm]
      rfl
  · rename_i hDash
    have hLength : numberLength t = digitsLength t := by
      cases t with
      | nil => rfl
      | cons c t => exact numberLength_cons t fun hc => hDash t (by rw [hc])
    refine (plainNumber_eq [] t).trans (congrArg some ?_)
    rw [hLength]
    split
    · rename_i hZero
      rw [hZero]
      rfl
    · rw [List.length_nil, Nat.zero_add]
      rfl

/-- The part of an escape behind its backslash is all that its decoding has to see. -/
theorem decoded_of_escapeLength {t : Text} {n : Nat} (h : escapeLength ('\\' :: t) = n + 1) :
    decoded (t.take n) = [escapedChar ('\\' :: t)] := by
  match t with
  | [] => cases h
  | c :: t =>
    cases hHex : isHexDigit c with
    | false =>
      have hNone : hexValue? c = none := by simpa [isHexDigit] using hHex
      have hDigits := (length_hexDigits_cons c t).mpr hNone
      obtain rfl : n = 1 := by
        rw [escapeLength, hDigits] at h
        dsimp only at h
        split at h <;> omega
      simp [decoded, hHex, escapedChar, List.eq_nil_of_length_eq_zero hDigits]
    | true =>
      obtain ⟨digits, hDigits⟩ := exists_length_hexDigits t hHex
      obtain rfl : n = digits + escapeEnd (t.drop digits) + 1 := by
        rw [escapeLength, hDigits] at h
        dsimp only at h
        omega
      have hSame : hexDigits ((c :: t).take (digits + escapeEnd (t.drop digits) + 1)) =
          hexDigits (c :: t) := by
        have hInside : (hexDigits ((c :: t).take (digits + 1) ++ t.drop digits)).length ≤
            ((c :: t).take (digits + 1)).length := by
          have hText : (c :: t).take (digits + 1) ++ t.drop digits = c :: t :=
            List.take_append_drop (digits + 1) (c :: t)
          rw [hText, hDigits, List.length_take_of_le (hDigits ▸ length_hexDigits_le _)]
        have hMark : ∀ d ∈ ((t.drop digits).take (escapeEnd (t.drop digits))).head?,
            isMark d = true := fun d hd =>
          isMark_of_isBlank (isBlank_of_mem_escapeEnd (List.mem_of_mem_head? hd))
        rw [Nat.add_right_comm, List.take_add]
        exact (hexDigits_swap hInside hMark).trans
          (congrArg hexDigits (List.take_append_drop (digits + 1) (c :: t)))
      rw [List.take_succ_cons] at hSame ⊢
      rw [decoded, if_pos hHex, escapedChar, escapedChar, hSame]

/-- Text in front of the first backslash is decoded as it is. -/
theorem unescape_append {front : Text} (t : Text) (h : ∀ c ∈ front, c ≠ '\\') :
    Text.unescape (front ++ t) = front ++ Text.unescape t := by
  induction front with
  | nil => rfl
  | cons c front ih =>
    rw [List.cons_append, Text.unescape, escapeLength_of_ne _ (h c List.mem_cons_self)]
    exact congrArg (c :: ·) (ih fun d hd => h d (List.mem_cons_of_mem _ hd))

/-- Each turn but the last takes a backslash at least. -/
theorem unescapeFrom_eq {turns : Nat} (done rest : Text) (h : rest.length < turns) :
    unescapeFrom turns done rest = some (done ++ Text.unescape rest) := by
  induction turns generalizing done rest with
  | zero => exact absurd h (Nat.not_lt_zero _)
  | succ turns ih =>
    rw [unescapeFrom]
    cases hFirst : firstByte? (· = '\\') rest with
    | none =>
      have hPlain := firstByte?_of_none hFirst
      have hSame : Text.unescape (rest ++ []) = _ :=
        unescape_append [] fun c hc => by simpa using hPlain c hc
      rw [List.append_nil, Text.unescape, List.append_nil] at hSame
      rw [hSame]
    | some offset =>
      obtain ⟨front, _, back, rfl, hFront, hSlash, rfl⟩ := exists_of_firstByte? hFirst
      obtain rfl := of_decide_eq_true hSlash
      have hShort : back.length < turns := by
        rw [List.length_append, List.length_cons] at h
        omega
      rw [unescape_append _ fun c hc => by simpa using hFront c hc]
      simp only [uptoByte?_append, fromByte?_append, Option.bind_eq_bind, Option.bind_some,
        escape_eq]
      cases hEscape : escapeLength ('\\' :: back) with
      | zero =>
        have hCut : fromByte? ('\\' :: back) 1 = some back := fromByte?_cons '\\' back
        have hNext := ih (done ++ front ++ ['\\']) back hShort
        simp only [reach?_zero, hCut, Option.bind_some]
        rw [hNext, Text.unescape, hEscape]
        simp
      | succ n =>
        have hBody : between? ('\\' :: back) 1 (byteLength (('\\' :: back).take (n + 1))) =
            some (back.take n) := by
          have hCut := between?_append ['\\'] (back.take n) (back.drop n)
          rwa [List.append_assoc, List.take_append_drop] at hCut
        have hRest := fromByte?_take ('\\' :: back) (n + 1)
        have hShorter : (back.drop n).length < turns := by
          rw [List.length_drop]
          omega
        have hNext := ih (done ++ front ++ [escapedChar ('\\' :: back)]) (back.drop n) hShorter
        rw [List.drop_succ_cons] at hRest
        simp only [reach?_succ, hBody, hRest, Option.bind_some, decoded_of_escapeLength hEscape]
        rw [hNext, Text.unescape, hEscape]
        simp

/-- Decoding a name cuts it only between characters, and inside it. -/
theorem unescape_eq (raw : Text) : unescape raw = some (Text.unescape raw) :=
  unescapeFrom_eq [] raw (Nat.lt_succ_self _)

end SelectorXPath.Checked
