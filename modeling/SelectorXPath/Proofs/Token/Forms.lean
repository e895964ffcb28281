import SelectorXPath.Proofs.Text.Endings
import SelectorXPath.Token.Mode

/-! The forms of tokens. A token is a run of blanks, a sign, a name behind the sign of its kind, a
number, or a piece of a string or of a comment. What a recogniser finds is of one of these forms,
and the form says what the token begins with and how long it is; everything else about single
tokens follows from it. -/

namespace SelectorXPath

open SelectorXPath.Text

namespace Token

/-- What every token of the kind begins with. -/
def Kind.sign : Kind → Text
  | .universal => ['*']
  | .namespaceSeparator => ['|']
  | .classSelector => ['.']
  | .idSelector => ['#']
  | .pseudoClass => [':']
  | .pseudoElement => [':', ':']
  | .separator => [',']
  | .attributeStart => ['[']
  | .attributeEnd => [']']
  | .parenthesesStart => ['(']
  | .parenthesesEnd => [')']
  | .stringStart mark | .stringEnd mark => [mark.char]
  | .escapedChar => ['\\']
  | .commentStart => ['/', '*']
  | .commentEnd => ['*', '/']
  | _ => []

/-- The kinds of token that end with a name. -/
def Kind.isNamed : Kind → Bool
  | .identifier | .classSelector | .idSelector | .pseudoClass | .pseudoElement => true
  | _ => false

/-- The texts of a kind whose tokens are signs and nothing else. -/
def Kind.spellings (kind : Kind) : List Text :=
  match kind with
  | .combinator => [['>'], ['+'], ['~']]
  | .attributeOperator => [['='], ['~', '='], ['|', '='], ['^', '='], ['$', '='], ['*', '=']]
  | .universal | .namespaceSeparator | .separator | .attributeStart | .attributeEnd
  | .parenthesesStart | .parenthesesEnd | .stringStart _ | .stringEnd _ | .commentStart
  | .commentEnd => [kind.sign]
  | _ => []

theorem Kind.sign_prefix_of_mem_spellings {kind : Kind} {sign : Text} (h : sign ∈ kind.spellings) :
    kind.sign <+: sign := by
  cases kind <;> simp_all [spellings, Kind.sign]

theorem Kind.isNamed_of_mem_spellings {kind : Kind} {sign : Text} (h : sign ∈ kind.spellings) :
    kind.isNamed = false := by
  cases kind with
  | identifier | classSelector | idSelector | pseudoClass | pseudoElement => cases h
  | _ => rfl

/-- No sign begins with the character that escapes others. -/
theorem Kind.ne_backslash_of_mem_spellings {kind : Kind} {c : Char} {t : Text}
    (h : c :: t ∈ kind.spellings) : c ≠ '\\' := by
  rintro rfl
  cases kind with
  | stringStart mark | stringEnd mark =>
      cases mark <;> simp [spellings, Kind.sign, QuoteMark.char] at h
  | _ => simp [spellings, Kind.sign] at h

end Token

namespace Mode

open Token

variable {mode : Mode} {c : Char} {t rest : Text} {kind kind' : Kind} {lead length n : Nat}

/-- A sign alone is no token where something has to follow it. -/
theorem withLead_eq_some_iff :
    withLead kind lead length = some (kind', n) ↔
      length ≠ 0 ∧ kind' = kind ∧ n = lead + length := by
  unfold withLead
  split
  · simp_all
  · simp_all [eq_comm]

/-- The second reading is tried only where the first one finds nothing. -/
theorem orElse_eq_some {α : Type} {o o' : Option α} {a : α} (h : (o <|> o') = some a) :
    o = some a ∨ o' = some a := by
  cases o with
  | none => exact Or.inr h
  | some b => exact Or.inl h

/-- Inside of a string the first character tells which kind of token begins. -/
theorem stringToken?_cons (mark : QuoteMark) (c : Char) (t : Text) :
    stringToken? mark (c :: t) =
      if c = mark.char then some (.stringEnd mark, 1)
      else if c = '\\' then
        if t.head? = some mark.char ∨ t.head? = some '\\' then some (.escapedChar, 2) else none
      else some (.stringChars, 1 + (t.takeWhile fun d => d ≠ '\\' ∧ d ≠ mark.char).length) := by
  cases t <;> simp [stringToken?]

/-- Kinds that selectors are written with outside of all brackets. -/
def selectorKinds : List Kind :=
  [.whitespace, .commentStart, .pseudoElement, .pseudoClass, .classSelector, .idSelector,
    .universal, .namespaceSeparator, .combinator, .separator, .attributeStart, .parenthesesStart,
    .parenthesesEnd, .attributeEnd, .identifier]

/-- The kinds of token that a mode finds. -/
def kinds : Mode → List Kind
  | .selector => selectorKinds
  | .string mark => [.stringEnd mark, .escapedChar, .stringChars]
  | .attribute =>
    [.whitespace, .commentStart, .stringStart .single, .stringStart .double, .attributeEnd,
      .attributeOperator, .universal, .namespaceSeparator, .identifier, .number]
  | .argument => .stringStart .single :: .stringStart .double :: .number :: selectorKinds
  | .comment => [.commentEnd, .commentText]

/-- What a mode may find at the start of a text: the kinds of token, each with how the text goes on
and with the number of characters that the token takes. -/
inductive Form (mode : Mode) (t : Text) : Kind → Nat → Prop where
  | blanks (hMode : .whitespace ∈ mode.kinds) (h : blankLength t ≠ 0) :
      Form mode t .whitespace (blankLength t)
  | spelled {kind : Kind} {sign : Text} (hMode : kind ∈ mode.kinds)
      (hSign : sign ∈ kind.spellings) (hText : sign <+: t) : Form mode t kind sign.length
  | named {kind : Kind} {rest : Text} (hMode : kind ∈ mode.kinds) (hNamed : kind.isNamed = true)
      (hText : t = kind.sign ++ rest) (h : nameLength rest ≠ 0) :
      Form mode t kind (kind.sign.length + nameLength rest)
  | number (hMode : .number ∈ mode.kinds) (h : numberLength t ≠ 0) :
      Form mode t .number (numberLength t)
  | escaped {mark : QuoteMark} {c : Char} {rest : Text} (hMode : mode = .string mark)
      (hText : t = '\\' :: c :: rest) (hChar : c = mark.char ∨ c = '\\') :
      Form mode t .escapedChar 2
  | chars {mark : QuoteMark} {c : Char} {rest : Text} (hMode : mode = .string mark)
      (hText : t = c :: rest) (hChar : c ≠ '\\' ∧ c ≠ mark.char) :
      Form mode t .stringChars
        (1 + (rest.takeWhile fun d => d ≠ '\\' ∧ d ≠ mark.char).length)
  | comment (hMode : mode = .comment) (h : commentLength t ≠ 0) :
      Form mode t .commentText (commentLength t)

/-! ### The recognisers -/

/-- A token whose whole text is a sign has the form of one. -/
theorem form_of_sign (hMode : kind ∈ mode.kinds) (hSign : t.take n ∈ kind.spellings)
    (hLength : n ≤ t.length) : mode.Form t kind n := by
  have hForm : mode.Form t kind (t.take n).length := .spelled hMode hSign (List.take_prefix n t)
  rwa [List.length_take_of_le hLength] at hForm

/-- Where an identifier is looked for, all of a name is taken if there is one. -/
theorem form_of_identifier (hMode : kind ∈ mode.kinds) (hNamed : kind.isNamed = true)
    (h : withLead kind kind.sign.length (identifierLength rest) = some (kind', n)) :
    mode.Form (kind.sign ++ rest) kind' n := by
  obtain ⟨hNe, rfl, rfl⟩ := withLead_eq_some_iff.mp h
  have hLength := identifierLength_eq_nameLength hNe
  rw [hLength] at hNe ⊢
  exact .named hMode hNamed rfl hNe

theorem form_of_number (hMode : .number ∈ mode.kinds)
    (h : nonempty .number (numberLength t) = some (kind, n)) : mode.Form t kind n := by
  obtain ⟨hNe, rfl, rfl⟩ := withLead_eq_some_iff.mp h
  rw [Nat.zero_add]
  exact .number hMode hNe

/-- White space and comments are found in all modes that hold neither strings nor comments. -/
theorem form_of_trivia? (hMode : [.whitespace, .commentStart] ⊆ mode.kinds)
    (h : trivia? t = some (kind, n)) : mode.Form t kind n := by
  unfold trivia? at h
  split at h
  · rename_i length hLength
    cases h
    have hForm : mode.Form t .whitespace (blankLength t) :=
      .blanks (hMode (by simp)) (by omega)
    rwa [hLength] at hForm
  · split at h <;> cases h
    exact form_of_sign (hMode (by simp)) (by simp [Kind.spellings, Kind.sign]) (by simp)

theorem form_of_stringStart? (hMode : [.stringStart .single, .stringStart .double] ⊆ mode.kinds)
    (h : stringStart? t = some (kind, n)) : mode.Form t kind n := by
  unfold stringStart? at h
  split at h <;> cases h <;>
    exact form_of_sign (hMode (by simp)) (by simp [Kind.spellings, Kind.sign, QuoteMark.char])
      (by simp)

/-- What the sign in front decides: names behind a sign, lone signs, and names without one. -/
theorem form_of_selectorSign? (hMode : selectorKinds ⊆ mode.kinds)
    (h : selectorSign? t = some (kind, n)) : mode.Form t kind n := by
  have hName {rest : Text} (h : withLead .idSelector 1 (nameLength rest) = some (kind, n)) :
      mode.Form ('#' :: rest) kind n := by
    obtain ⟨hNe, rfl, rfl⟩ := withLead_eq_some_iff.mp h
    exact .named (hMode (by decide)) rfl rfl hNe
  unfold selectorSign? at h
  split at h <;> first
    | exact form_of_identifier (hMode (by decide)) rfl h
    | exact hName h
    | cases h
      exact form_of_sign (hMode (by decide)) (by simp [Kind.spellings, Kind.sign]) (by simp)

/-- Outside of every bracket a token is trivia, the start of a string, or decided by its sign. -/
theorem form_of_selectorToken? (hMode : selectorKinds ⊆ mode.kinds)
    (h : selectorToken? t = some (kind, n)) : mode.Form t kind n := by
  rcases orElse_eq_some h with h | h
  · exact form_of_trivia? (List.Subset.trans (by decide) hMode) h
  · exact form_of_selectorSign? hMode h

/-- The inside of a string ends at a mark or at a backslash, and no other mode finds its tokens. -/
theorem form_of_stringToken? {mark : QuoteMark} (h : stringToken? mark t = some (kind, n)) :
    (Mode.string mark).Form t kind n := by
  cases t with
  | nil => cases h
  | cons c t =>
      rw [stringToken?_cons] at h
      by_cases hMark : c = mark.char
      · rw [if_pos hMark] at h
        cases h
        exact form_of_sign (by simp [kinds]) (by simp [Kind.spellings, Kind.sign, hMark]) (by simp)
      rw [if_neg hMark] at h
      by_cases hSlash : c = '\\'
      · rw [if_pos hSlash] at h
        split at h
        · rename_i hNext
          cases h
          rw [hSlash]
          rcases hNext with hNext | hNext <;>
            obtain ⟨rest, rfl⟩ := List.head?_eq_some_iff.mp hNext
          · exact .escaped rfl rfl (Or.inl rfl)
          · exact .escaped rfl rfl (Or.inr rfl)
        · cases h
      · rw [if_neg hSlash] at h
        cases h
        exact .chars rfl rfl ⟨hSlash, hMark⟩

/-- Between brackets an operator of two characters wins over the sign it begins with. -/
theorem form_of_attributeSign? (h : attributeSign? t = some (kind, n)) :
    Mode.attribute.Form t kind n := by
  have hToken {t : Text} (h : (nonempty .identifier (identifierLength t) <|>
      nonempty .number (numberLength t)) = some (kind, n)) : Mode.attribute.Form t kind n := by
    rcases orElse_eq_some h with h | h
    · exact form_of_identifier (by decide) rfl h
    · exact form_of_number (by decide) h
  unfold attributeSign? at h
  split at h <;> first
    | exact hToken h
    | cases h
      exact form_of_sign (by decide) (by simp [Kind.spellings, Kind.sign]) (by simp)

/-- The inside of a comment ends at the mark that closes it. -/
theorem form_of_commentToken? (h : commentToken? t = some (kind, n)) :
    Mode.comment.Form t kind n := by
  unfold commentToken? at h
  split at h
  · cases h
    exact form_of_sign (by decide) (by simp [Kind.spellings, Kind.sign]) (by simp)
  · obtain ⟨hNe, rfl, rfl⟩ := withLead_eq_some_iff.mp h
    rw [Nat.zero_add]
    exact .comment rfl hNe

/-- Whatever the mode, a token that is recognised has one of the forms. -/
theorem form_of_recognize? (h : mode.recognize? t = some (kind, n)) : mode.Form t kind n := by
  cases mode with
  | selector => exact form_of_selectorToken? (List.Subset.refl _) h
  | string mark => exact form_of_stringToken? h
  | «attribute» =>
      rcases orElse_eq_some h with h | h
      · exact form_of_trivia? (by decide) h
      · rcases orElse_eq_some h with h | h
        · exact form_of_stringStart? (by decide) h
        · exact form_of_attributeSign? h
  | argument =>
      rcases orElse_eq_some h with h | h
      · exact form_of_stringStart? (by decide) h
      · rcases orElse_eq_some h with h | h
        · exact form_of_number (by decide) h
        · exact form_of_selectorToken? (by decide) h
  | comment => exact form_of_commentToken? h

/-! ### What the form says -/

namespace Form

/-- Each mode finds tokens of its own kinds only. -/
theorem mem_kinds (h : mode.Form t kind n) : kind ∈ mode.kinds := by
  cases h with
  | blanks hMode | spelled hMode | named hMode | number hMode => exact hMode
  | escaped hMode | chars hMode | comment hMode =>
      rw [hMode]
      simp [kinds]

/-- The text begins with the sign of the kind, and so does as much of it as the token takes. -/
theorem hasSign (h : mode.Form t kind n) : kind.sign <+: t ∧ kind.sign.length ≤ n := by
  cases h with
  | spelled hMode hSign hText =>
      have hPrefix := Kind.sign_prefix_of_mem_spellings hSign
      exact ⟨hPrefix.trans hText, hPrefix.length_le⟩
  | named hMode hNamed hText =>
      rw [hText]
      exact ⟨List.prefix_append _ _, Nat.le_add_right _ _⟩
  | escaped hMode hText =>
      rw [hText]
      simp [Kind.sign]
  | blanks | number | chars | comment => simp [Kind.sign]

/-- The text of a comment is all that stands in front of the mark that closes it. -/
theorem eq_comment (h : mode.Form t .commentText n) : mode = .comment ∧ n = commentLength t := by
  cases h with
  | comment hMode => exact ⟨hMode, rfl⟩
  | spelled hMode hSign => cases hSign
  | named hMode hNamed => cases hNamed

end Form

end Mode

end SelectorXPath
