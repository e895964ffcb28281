import Mathlib.Data.List.TakeWhile
import Mathlib.Data.Nat.Digits.Defs
import SelectorXPath.Proofs.Text.Endings
import SelectorXPath.Proofs.Text.Spelling

/-! The decoding of names, step by step. A step takes an escape or one other character off the front
of a text and puts one character in its place, and what it takes does not depend on the steps before
it. The recognition of names steps over the same pieces, though it sees all the text behind a name
and the decoding only the name: an escape that ends inside of a name ends at the same place when the
text behind the name is cut off. -/

namespace SelectorXPath.Text

/-- The character that a code stands for. Zero, the surrogates and the numbers beyond the last code
stand for the replacement character. -/
inductive StandsFor : Nat → Char → Prop where
  | char {c : Char} (h : c ≠ '\x00') : StandsFor c.toNat c
  | replaced {code : Nat} (h : code = 0 ∨ 0xd800 ≤ code ∧ code ≤ 0xdfff ∨ 0x10ffff < code) :
      StandsFor code '\ufffd'

/-- The blank that belongs to an escape by code in front of `rest`: none if no blank follows, else
one, where a carriage return and a line feed are one. -/
inductive Swallows : (blank rest : Text) → Prop where
  | nothing {rest : Text} (h : ∀ c ∈ rest.head?, isBlank c = false) : Swallows [] rest
  | lineBreak {rest : Text} : Swallows ['\r', '\n'] rest
  | blank {c : Char} {rest : Text} (hBlank : isBlank c = true)
      (hLine : c = '\r' → rest.head? ≠ some '\n') : Swallows [c] rest

/-- One step of the decoding, in front of `rest`: the piece that it takes, and the character that
the piece stands for. -/
inductive Decodes : (piece : Text) → (c : Char) → (rest : Text) → Prop where
  /-- Any character but a backslash. -/
  | plain {c : Char} {rest : Text} (h : c ≠ '\\') : Decodes [c] c rest
  /-- A backslash with one to six hexadecimal digits, as many as there are, and one blank. -/
  | code {digits blank rest : Text} {values : List Nat} {c : Char}
      (hDigits : digits.map hexValue? = values.map some) (hSome : digits ≠ [])
      (hMost : digits.length ≤ 6)
      (hAll : digits.length < 6 → ∀ d ∈ (blank ++ rest).head?, hexValue? d = none)
      (hBlank : Swallows blank rest) (hCode : StandsFor (Nat.ofDigits 16 values.reverse) c) :
      Decodes ('\\' :: (digits ++ blank)) c rest
  /-- A backslash with any other character that does not end the line. -/
  | escaped {c : Char} {rest : Text} (hHex : hexValue? c = none) (hLine : isLineEnd c = false) :
      Decodes ['\\', c] c rest
  /-- A backslash in front of the end of a line or of the text. -/
  | dangling {rest : Text} (h : ∀ c ∈ rest.head?, isLineEnd c = true) : Decodes ['\\'] '\\' rest

/-- The steps that decode a text from the left to the right. -/
inductive Decoding : Text → List (Text × Char) → Prop where
  | nil : Decoding [] []
  | step {piece rest : Text} {c : Char} {steps : List (Text × Char)}
      (hStep : Decodes piece c rest) (hRest : Decoding rest steps) :
      Decoding (piece ++ rest) ((piece, c) :: steps)

/-- The pieces over which the recognition of a name steps. -/
def namePieces : Text → List Text
  | [] => []
  | c :: t =>
    match nameCharLength (c :: t) with
    | 0 => []
    | n + 1 => (c :: t.take n) :: namePieces (t.drop n)
termination_by t => t.length
decreasing_by simp only [List.length_cons, List.length_drop]; omega

/-- The pieces of an identifier without dashes in front. -/
def plainIdentifierPieces (t : Text) : List Text :=
  match nameStartLength t with
  | 0 => []
  | n + 1 => t.take (n + 1) :: namePieces (t.drop (n + 1))

/-- The pieces over which the recognition of an identifier steps. Each dash in front is one. -/
def identifierPieces : Text → List Text
  | '-' :: '-' :: t => ['-'] :: ['-'] :: namePieces t
  | '-' :: t => if plainIdentifierLength t = 0 then [] else ['-'] :: plainIdentifierPieces t
  | t => plainIdentifierPieces t

variable {t raw rest piece digits blank : Text} {c : Char} {values : List Nat}
variable {steps : List (Text × Char)}

/-- The character of a code is determined, and every code has one. -/
theorem standsFor_iff {code : Nat} : StandsFor code c ↔ c = ofCode code := by
  have hValid : code.isValidChar ↔ code < 0xd800 ∨ 0xdfff < code ∧ code < 0x110000 := Iff.rfl
  unfold ofCode
  constructor
  · rintro (hChar | hNone)
    · have hNonzero : c.toNat ≠ 0 := fun hZero => hChar (by rw [← Char.ofNat_toNat c, hZero])
      rw [if_pos ⟨hNonzero, c.valid⟩, Char.ofNat_toNat]
    · rw [if_neg (by omega)]
  · rintro rfl
    split
    · rename_i hCode
      have hCode' : (Char.ofNat code).toNat = code := by
        rw [Char.ofNat, dif_pos hCode.2]
        rfl
      have hChar : Char.ofNat code ≠ '\x00' := fun hZero => hCode.1 (by rw [← hCode', hZero]; rfl)
      have hStands := StandsFor.char hChar
      rwa [hCode'] at hStands
    · exact .replaced (by omega)

/-- Digits are read from the left, each time with one more place in front. -/
theorem foldl_eq_ofDigits (values : List Nat) :
    values.foldl (fun n d => 16 * n + d) 0 = Nat.ofDigits 16 values.reverse := by
  rw [List.foldl_eq_foldr_reverse, Nat.ofDigits_eq_foldr]
  simp only [Nat.cast_id, Nat.add_comm]

theorem length_of_digits (hDigits : digits.map hexValue? = values.map some) :
    digits.length = values.length := by
  simpa using congrArg List.length hDigits

/-- The digits in front of a character that is none, or the first six. -/
theorem hexDigits_append (hDigits : digits.map hexValue? = values.map some)
    (hMost : digits.length ≤ 6)
    (hAll : digits.length < 6 → ∀ d ∈ rest.head?, hexValue? d = none) :
    hexDigits (digits ++ rest) = values := by
  have hRun : ∀ d ∈ digits, (hexValue? d).isSome = true := by
    intro d hd
    obtain ⟨value, -, hValue⟩ := List.mem_map.mp (hDigits ▸ List.mem_map_of_mem hd)
    rw [← hValue]
    rfl
  have hRest : ∀ d ∈ (rest.take (6 - digits.length)).head?, (hexValue? d).isSome = false := by
    intro d hd
    by_cases hFewer : digits.length < 6
    · rw [List.head?_take, if_neg (by omega)] at hd
      rw [hAll hFewer d hd]
      rfl
    · rw [List.head?_take, if_pos (by omega)] at hd
      cases hd
  have hValues : digits.filterMap hexValue? = (digits.map hexValue?).filterMap id := by
    rw [List.filterMap_map]
    rfl
  rw [hexDigits, List.take_append, List.take_of_length_le hMost, takeWhile_run hRun hRest, hValues,
    hDigits]
  simp

/-- The blank that belongs to an escape is as long as the recognition of escapes takes it to be. -/
theorem Swallows.escapeEnd_eq (h : Swallows blank rest) :
    escapeEnd (blank ++ rest) = blank.length := by
  cases h with
  | nothing h =>
      cases rest with
      | nil => rfl
      | cons c rest =>
          have hBlank := h c rfl
          have hReturn : c ≠ '\r' := by
            rintro rfl
            cases hBlank
          rw [List.nil_append, escapeEnd_of_head? rest (absurd · hReturn), hBlank]
          rfl
  | lineBreak => rfl
  | blank hBlank hLine =>
      rw [List.singleton_append, escapeEnd_of_head? rest hLine, if_pos hBlank]
      rfl

/-- What ends an escape swallows what `escapeEnd` measures. -/
theorem swallows_escapeEnd (t : Text) : Swallows (t.take (escapeEnd t)) (t.drop (escapeEnd t)) := by
  match t with
  | [] => exact .nothing (by simp)
  | c :: t =>
      by_cases hLine : c = '\r' ∧ t.head? = some '\n'
      · obtain ⟨rfl, hFeed⟩ := hLine
        obtain ⟨t, rfl⟩ := List.head?_eq_some_iff.mp hFeed
        exact .lineBreak
      · have hLine' : c = '\r' → t.head? ≠ some '\n' := fun hReturn hFeed => hLine ⟨hReturn, hFeed⟩
        rw [escapeEnd_of_head? t hLine']
        split
        · rename_i hBlank
          exact .blank hBlank hLine'
        · rename_i hBlank
          exact .nothing fun d hd => by
            obtain rfl : c = d := by simpa using hd
            simpa using hBlank

/-- A step takes the escape in front and puts its character, or one character that begins none. -/
theorem Decodes.escape (h : Decodes piece c rest) :
    piece = [c] ∧ escapeLength (piece ++ rest) = 0 ∨
      piece ≠ [] ∧ escapeLength (piece ++ rest) = piece.length ∧
        escapedChar (piece ++ rest) = c := by
  cases h with
  | plain h => exact Or.inl ⟨rfl, escapeLength_of_ne rest h⟩
  | @code digits blank _ values _ hDigits hSome hMost hAll hBlank hCode =>
      have hFound := hexDigits_append hDigits hMost hAll
      have hCount := length_of_digits hDigits
      obtain ⟨d, digits, rfl⟩ := List.exists_cons_of_ne_nil hSome
      have hText : '\\' :: (d :: digits ++ blank) ++ rest =
          '\\' :: d :: (digits ++ (blank ++ rest)) := by simp
      rw [List.cons_append] at hFound
      rw [List.length_cons] at hCount
      refine Or.inr ⟨List.cons_ne_nil _ _, ?_, ?_⟩
      · rw [hText, escapeLength, hFound, ← hCount]
        simp only [List.drop_left, hBlank.escapeEnd_eq, List.length_cons, List.length_append]
        omega
      · rw [hText, escapedChar, hFound]
        cases values with
        | nil => cases hCount
        | cons value values =>
            rw [standsFor_iff.mp hCode, ← foldl_eq_ofDigits]
  | escaped hHex hLine =>
      have hNone := (length_hexDigits_cons c rest).mpr hHex
      refine Or.inr ⟨List.cons_ne_nil _ _, ?_, ?_⟩
      · rw [List.cons_append, List.singleton_append, escapeLength, hNone]
        simp [hLine]
      · rw [List.cons_append, List.singleton_append, escapedChar,
          List.eq_nil_of_length_eq_zero hNone]
  | dangling h =>
      refine Or.inl ⟨rfl, ?_⟩
      by_contra hSome
      obtain ⟨-, d, hHead, hLine⟩ := escapeLength_ne_zero_iff.mp hSome
      rw [h d hHead] at hLine
      cases hLine

/-- One step of the decoding is one step of the function that decodes. -/
theorem Decodes.unescape_eq (h : Decodes piece c rest) :
    unescape (piece ++ rest) = c :: unescape rest := by
  rcases h.escape with ⟨rfl, hNone⟩ | ⟨hSome, hLength, hChar⟩
  · rw [List.singleton_append] at hNone ⊢
    rw [unescape, hNone]
  · obtain ⟨d, piece, rfl⟩ := List.exists_cons_of_ne_nil hSome
    rw [List.cons_append] at hLength hChar ⊢
    rw [List.length_cons] at hLength
    rw [unescape, hLength, hChar]
    simp

/-- The text in front decides the step. -/
theorem Decodes.unique {piece' rest' : Text} {c' : Char} (h : Decodes piece c rest)
    (h' : Decodes piece' c' rest') (hText : piece ++ rest = piece' ++ rest') :
    piece = piece' ∧ c = c' ∧ rest = rest' := by
  have hLength : piece.length = piece'.length := by
    rcases h.escape with ⟨rfl, hNone⟩ | ⟨hSome, hLength, -⟩ <;>
      rcases h'.escape with ⟨rfl, hNone'⟩ | ⟨hSome', hLength', -⟩
    · rfl
    · rw [hText, hLength'] at hNone
      exact absurd (List.eq_nil_of_length_eq_zero hNone) hSome'
    · rw [hText, hNone'] at hLength
      exact absurd (List.eq_nil_of_length_eq_zero hLength.symm) hSome
    · rw [← hLength, ← hLength', hText]
  obtain ⟨rfl, rfl⟩ := List.append_inj hText hLength
  have hSame := h.unescape_eq.symm.trans h'.unescape_eq
  exact ⟨rfl, (List.cons.inj hSame).1, rfl⟩

/-- A character that begins no escape is a step by itself. -/
theorem decodes_of_escapeLength_eq_zero (h : escapeLength (c :: t) = 0) : Decodes [c] c t := by
  by_cases hSlash : c = '\\'
  · subst hSlash
    refine .dangling fun d hd => ?_
    by_contra hLine
    exact escapeLength_ne_zero_iff.mpr ⟨rfl, d, hd, Bool.eq_false_iff.mpr hLine⟩ h
  · exact .plain hSlash

/-- The digits of an escape, with their values. -/
theorem map_hexValue?_take (t : Text) :
    (t.take (hexDigits t).length).map hexValue? = (hexDigits t).map some := by
  rw [take_hexDigits, hexDigits]
  have hSome : ∀ c ∈ (t.take 6).takeWhile (fun c => (hexValue? c).isSome),
      (hexValue? c).isSome = true := fun c hc => by simpa using List.mem_takeWhile_imp hc
  generalize (t.take 6).takeWhile (fun c => (hexValue? c).isSome) = digits at hSome ⊢
  induction digits with
  | nil => rfl
  | cons c digits ih =>
      obtain ⟨hFirst, hMore⟩ := List.forall_mem_cons.mp hSome
      obtain ⟨value, hValue⟩ := Option.isSome_iff_exists.mp hFirst
      rw [List.map_cons, hValue, ih hMore, List.filterMap_cons_some hValue, List.map_cons]

/-- Behind fewer than six digits there is no other. -/
theorem hexValue?_of_drop (t : Text) (h : (hexDigits t).length < 6) :
    ∀ d ∈ (t.drop (hexDigits t).length).head?, hexValue? d = none := by
  have hAll : (hexDigits t).length = (t.takeWhile fun c => (hexValue? c).isSome).length := by
    rw [length_hexDigits, ← List.take_takeWhile, List.length_take] at h ⊢
    omega
  rw [hAll]
  intro d hd
  simpa using eq_false_of_drop_takeWhile d hd

/-- An escape is a step. -/
theorem decodes_of_escapeLength {n : Nat} (h : escapeLength (c :: t) = n + 1) :
    Decodes (c :: t.take n) (escapedChar (c :: t)) (t.drop n) := by
  have hNe : escapeLength (c :: t) ≠ 0 := by
    rw [h]
    exact Nat.succ_ne_zero n
  obtain ⟨rfl, d, hHead, hLine⟩ := escapeLength_ne_zero_iff.mp hNe
  obtain ⟨t, rfl⟩ := List.head?_eq_some_iff.mp hHead
  rw [escapeLength] at h
  cases hCount : (hexDigits (d :: t)).length with
  | zero =>
      rw [hCount, hLine] at h
      obtain rfl : n = 1 := by simpa using h.symm
      rw [escapedChar, List.eq_nil_of_length_eq_zero hCount]
      exact .escaped ((length_hexDigits_cons d t).mp hCount) hLine
  | succ digits =>
      have hMost : (hexDigits (d :: t)).length ≤ 6 := by
        rw [length_hexDigits, ← List.take_takeWhile]
        exact List.length_take_le _ _
      have hValues := map_hexValue?_take (d :: t)
      have hNext := hexValue?_of_drop (d :: t)
      rw [hCount, List.take_succ_cons] at hValues
      rw [hCount, List.drop_succ_cons] at hNext
      rw [hCount] at h hMost
      dsimp only at h
      obtain rfl : n = digits + 1 + escapeEnd (t.drop digits) := by omega
      have hPiece : (d :: t).take (digits + 1 + escapeEnd (t.drop digits)) =
          d :: t.take digits ++ (t.drop digits).take (escapeEnd (t.drop digits)) := by
        rw [List.take_add, List.take_succ_cons, List.drop_succ_cons]
      have hRest : (d :: t).drop (digits + 1 + escapeEnd (t.drop digits)) =
          (t.drop digits).drop (escapeEnd (t.drop digits)) := by
        rw [← List.drop_drop, List.drop_succ_cons]
      have hLength : (d :: t.take digits).length = digits + 1 := by
        have hInside := length_hexDigits_le (d :: t)
        rw [hCount, List.length_cons] at hInside
        rw [List.length_cons, List.length_take_of_le (by omega)]
      have hCode : StandsFor (Nat.ofDigits 16 (hexDigits (d :: t)).reverse)
          (escapedChar ('\\' :: d :: t)) := by
        rw [standsFor_iff, ← foldl_eq_ofDigits, escapedChar]
        cases hDigits : hexDigits (d :: t) with
        | nil => simp [hDigits] at hCount
        | cons value values => rfl
      rw [hPiece, hRest]
      refine .code hValues (List.cons_ne_nil _ _) (by omega) ?_ (swallows_escapeEnd _) hCode
      rw [List.take_append_drop, hLength]
      exact hNext

/-- The steps of a text are those of no other, and put what it stands for in its place. -/
theorem Decoding.unescape_eq (h : Decoding raw steps) : unescape raw = steps.map Prod.snd := by
  induction h with
  | nil => rw [unescape]; rfl
  | step hStep _ ih => rw [hStep.unescape_eq, ih, List.map_cons]

/-- The pieces are all of the text. -/
theorem Decoding.flatten_eq (h : Decoding raw steps) : (steps.map Prod.fst).flatten = raw := by
  induction h with
  | nil => rfl
  | step _ _ ih => rw [List.map_cons, List.flatten_cons, ih]

/-- A step takes at least one character. -/
theorem Decodes.ne_nil (h : Decodes piece c rest) : piece ≠ [] := by
  cases h <;> exact List.cons_ne_nil _ _

/-- A text is decoded in one way only: the first step is determined by the text, and so is what it
leaves. -/
theorem Decoding.unique {steps' : List (Text × Char)} (h : Decoding raw steps)
    (h' : Decoding raw steps') : steps = steps' := by
  induction h generalizing steps' with
  | nil =>
      generalize hText : ([] : Text) = raw at h'
      cases h' with
      | nil => rfl
      | step hStep => exact absurd (List.append_eq_nil_iff.mp hText.symm).1 hStep.ne_nil
  | @step piece rest c steps hStep _ ih =>
      generalize hText : piece ++ rest = raw at h'
      cases h' with
      | nil => exact absurd (List.append_eq_nil_iff.mp hText).1 hStep.ne_nil
      | step hStep' hRest' =>
          obtain ⟨rfl, rfl, rfl⟩ := hStep.unique hStep' hText
          rw [ih hRest']

/-- Every text can be decoded, be it a name or not. -/
theorem exists_decoding (raw : Text) : ∃ steps, Decoding raw steps := by
  fun_induction unescape raw with
  | case1 => exact ⟨[], .nil⟩
  | case2 c t h ih =>
      obtain ⟨steps, hSteps⟩ := ih
      exact ⟨_, .step (decodes_of_escapeLength_eq_zero h) hSteps⟩
  | case3 c t n h ih =>
      obtain ⟨steps, hSteps⟩ := ih
      have hDecoding := Decoding.step (decodes_of_escapeLength h) hSteps
      rw [List.cons_append, List.take_append_drop] at hDecoding
      exact ⟨_, hDecoding⟩

theorem head?_of_prefix {front : Text} (h : front <+: rest) : ∀ c ∈ front.head?, c ∈ rest.head? := by
  obtain ⟨more, rfl⟩ := h
  intro c hc
  obtain ⟨front, rfl⟩ := List.head?_eq_some_iff.mp hc
  rfl

/-- The blank behind an escape is the same in a text that ends sooner, as long as it lies inside. -/
theorem Swallows.of_prefix {front : Text} (h : Swallows blank rest) (hFront : front <+: rest) :
    Swallows blank front := by
  have hHead := head?_of_prefix hFront
  cases h with
  | nothing h => exact .nothing fun c hc => h c (hHead c hc)
  | lineBreak => exact .lineBreak
  | blank hBlank hLine => exact .blank hBlank fun hReturn hFeed => hLine hReturn (hHead _ hFeed)

/-- A step that takes an escape sees nothing of the text behind it but where the escape ends, so it
is the same step if that text is cut off somewhere. Where the cut is made at a backslash that begins
no escape, the backslash is still alone. -/
theorem Decodes.of_prefix {front : Text} (h : Decodes piece c rest) (hFront : front <+: rest) :
    Decodes piece c front := by
  have hHead := head?_of_prefix hFront
  cases h with
  | plain h => exact .plain h
  | @code digits blank _ values _ hDigits hSome hMost hAll hBlank hCode =>
      have hMore := head?_of_prefix ((List.prefix_append_right_inj blank).mpr hFront)
      exact .code hDigits hSome hMost (fun hFewer d hd => hAll hFewer d (hMore d hd))
        (hBlank.of_prefix hFront) hCode
  | escaped hHex hLine => exact .escaped hHex hLine
  | dangling h => exact .dangling fun d hd => h d (hHead d hd)

/-- One character of a name is one step, whatever it is decoded with. -/
theorem decodes_of_nameCharLength {n : Nat} (h : nameCharLength (c :: t) = n + 1) :
    c :: t.take n ≠ ['\\'] ∧ ∃ d, Decodes (c :: t.take n) d (t.drop n) := by
  rw [nameCharLength] at h
  split at h
  · rename_i hName
    obtain rfl : n = 0 := by omega
    have hSlash : c ≠ '\\' := by
      rintro rfl
      cases hName
    exact ⟨by simpa using hSlash, c, .plain hSlash⟩
  · refine ⟨fun hAlone => ?_, _, decodes_of_escapeLength h⟩
    have hLength := congrArg List.length hAlone
    have hInside := escapeLength_le (c :: t)
    rw [h, List.length_cons] at hInside
    rw [List.length_cons, List.length_take_of_le (by omega), List.length_singleton] at hLength
    exact escapeLength_ne_one (c :: t) (by omega)

/-- The name is decoded in these pieces: each of them becomes one character, none of them is a
backslash that begins no escape, and there is one at least. -/
structure DecodesIn (pieces : List Text) (name : Text) : Prop where
  decoding : ∃ steps, Decoding name steps ∧ steps.map Prod.fst = pieces
  length_eq : (unescape name).length = pieces.length
  not_dangling : ['\\'] ∉ pieces
  ne_nil : unescape name ≠ []

/-- The pieces that the recognition of names steps over are steps of the decoding, with no stray
backslash among them. -/
theorem exists_decoding_namePieces (t : Text) : ['\\'] ∉ namePieces t ∧
    ∃ steps, Decoding (t.take (nameLength t)) steps ∧ steps.map Prod.fst = namePieces t := by
  fun_induction namePieces t with
  | case1 =>
      rw [List.take_nil]
      exact ⟨List.not_mem_nil, [], .nil, rfl⟩
  | case2 c t h =>
      rw [nameLength_of_nameCharLength h]
      exact ⟨List.not_mem_nil, [], .nil, rfl⟩
  | case3 c t n h ih =>
      obtain ⟨hAlone, steps, hSteps, hPieces⟩ := ih
      obtain ⟨hPiece, d, hStep⟩ := decodes_of_nameCharLength h
      have hText : (c :: t).take (nameLength (c :: t)) =
          c :: t.take n ++ (t.drop n).take (nameLength (t.drop n)) := by
        rw [nameLength_eq_add h, List.take_add, List.take_succ_cons, List.drop_succ_cons]
      rw [hText]
      refine ⟨by simp [hAlone, Ne.symm hPiece], _, .step (hStep.of_prefix ?_) hSteps, ?_⟩
      · exact List.take_prefix _ _
      · rw [List.map_cons, hPieces]

/-- A name that is not empty is decoded in the pieces in which it was recognised. -/
theorem decodesIn_namePieces (h : nameLength t ≠ 0) :
    DecodesIn (namePieces t) (t.take (nameLength t)) := by
  obtain ⟨hAlone, steps, hSteps, hPieces⟩ := exists_decoding_namePieces t
  have hText := hSteps.unescape_eq
  refine ⟨⟨steps, hSteps, hPieces⟩, ?_, hAlone, ?_⟩
  · rw [hText, ← hPieces, List.length_map, List.length_map]
  · intro hNil
    rw [hText, List.map_eq_nil_iff] at hNil
    have hName := hSteps.flatten_eq
    rw [hNil] at hName
    have hLength := congrArg List.length hName
    rw [List.length_take_of_le (nameLength_le t)] at hLength
    exact h hLength.symm

/-- A dash in front of a name is a piece by itself. -/
theorem namePieces_dash (t : Text) : namePieces ('-' :: t) = ['-'] :: namePieces t := by
  have hChar : nameCharLength ('-' :: t) = 1 := rfl
  rw [namePieces, hChar]
  rfl

/-- An identifier without dashes is stepped over as the name that it is. -/
theorem plainIdentifierPieces_eq (h : nameStartLength t ≠ 0) :
    plainIdentifierPieces t = namePieces t := by
  cases t with
  | nil => exact absurd rfl h
  | cons c t =>
      obtain ⟨n, hStart⟩ := Nat.exists_eq_succ_of_ne_zero h
      rw [plainIdentifierPieces, namePieces, nameCharLength_of_nameStartLength h, hStart]
      rfl

theorem identifierPieces_plain (h : c ≠ '-') :
    identifierPieces (c :: t) = plainIdentifierPieces (c :: t) := by
  simp [identifierPieces, h]

theorem identifierPieces_dash (h : t.head? ≠ some '-') : identifierPieces ('-' :: t) =
    if plainIdentifierLength t = 0 then [] else ['-'] :: plainIdentifierPieces t := by
  cases t with
  | nil => rfl
  | cons c t =>
      have hFirst : c ≠ '-' := fun hDash => h (by rw [hDash]; rfl)
      simp [identifierPieces, hFirst]

/-- An identifier is stepped over as the name that it is. -/
theorem identifierPieces_eq_namePieces (h : identifierLength t ≠ 0) :
    identifierPieces t = namePieces t := by
  rcases identifierLength_ne_zero_iff.mp h with ⟨more, rfl⟩ | hStart | ⟨more, rfl, hStart⟩
  · rw [identifierPieces, namePieces_dash, namePieces_dash]
  · cases t with
    | nil => exact absurd rfl hStart
    | cons c t =>
        have hDash : c ≠ '-' := by
          rintro rfl
          exact head?_ne_dash_of_nameStartLength hStart rfl
        rw [identifierPieces_plain hDash, plainIdentifierPieces_eq hStart]
  · rw [identifierPieces_dash (head?_ne_dash_of_nameStartLength hStart),
      if_neg (plainIdentifierLength_ne_zero_iff.mpr hStart), plainIdentifierPieces_eq hStart,
      namePieces_dash]

/-- Every text is decoded by one sequence of steps and stands for the characters of these. A name or
an identifier that is found at the start of any text is decoded in the pieces that were stepped over
to find it. -/
theorem unescape_splits_names :
    (∀ raw, ∃! steps, Decoding raw steps) ∧
      (∀ raw steps, Decoding raw steps → unescape raw = steps.map Prod.snd) ∧
      (∀ buffer, nameLength buffer ≠ 0 →
        DecodesIn (namePieces buffer) (buffer.take (nameLength buffer))) ∧
      (∀ buffer, identifierLength buffer ≠ 0 →
        DecodesIn (identifierPieces buffer) (buffer.take (identifierLength buffer))) := by
  refine ⟨fun raw => ?_, fun raw steps h => h.unescape_eq, fun buffer h => decodesIn_namePieces h,
    fun buffer h => ?_⟩
  · obtain ⟨steps, hSteps⟩ := exists_decoding raw
    exact ⟨steps, hSteps, fun _ h => h.unique hSteps⟩
  · have hSame := identifierLength_eq_nameLength h
    rw [identifierPieces_eq_namePieces h, hSame]
    exact decodesIn_namePieces (hSame ▸ h)

/-- Dashes, an escape that swallows a line break in front of a digit, an escaped backslash, a
character of two bytes, and an escape by six digits that a blank and a letter follow. -/
theorem unescape_splits_names_of_dashes :
    identifierLength "--\\31\r\n2\\\\é\\0000410 b".toList ≠ 0 ∧
      DecodesIn ["-".toList, "-".toList, "\\31\r\n".toList, "2".toList, "\\\\".toList, "é".toList,
        "\\000041".toList, "0".toList] "--\\31\r\n2\\\\é\\0000410".toList := by
  have hSome : identifierLength "--\\31\r\n2\\\\é\\0000410 b".toList ≠ 0 := by decide +kernel
  have hPieces : identifierPieces "--\\31\r\n2\\\\é\\0000410 b".toList = ["-".toList, "-".toList,
      "\\31\r\n".toList, "2".toList, "\\\\".toList, "é".toList, "\\000041".toList, "0".toList] := by
    decide +kernel
  have hName : "--\\31\r\n2\\\\é\\0000410 b".toList.take
      (identifierLength "--\\31\r\n2\\\\é\\0000410 b".toList) =
        "--\\31\r\n2\\\\é\\0000410".toList := by
    decide +kernel
  have hSplits := unescape_splits_names.2.2.2 _ hSome
  rw [hPieces, hName] at hSplits
  exact ⟨hSome, hSplits⟩

end SelectorXPath.Text
