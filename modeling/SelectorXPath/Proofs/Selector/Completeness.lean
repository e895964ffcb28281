import SelectorXPath.Proofs.Selector.Grammar
import SelectorXPath.Proofs.Token.Recognized

/-! What the grammar derives, the parser accepts: in front of any tokens that cannot be taken for
more of the same, a parser reads exactly the tokens of a derivation and leaves the others. The
condition on the tokens behind is always one on the kind of the first of them. The tokens of the
derivation must come from a scan. Only the positions need this: the grammar asks what their text is
when it is joined again, and the parser asks for the kinds of the tokens that it joins. -/

namespace SelectorXPath.Parser

open SelectorXPath.Text SelectorXPath.Grammar

/-- The tokens that are taken for local names are those of the grammar. -/
theorem name?_eq_some_iff {t : Token} {name : Option Text} :
    name? t = some name ↔ WritesLocalName t name := by
  constructor
  · intro h
    unfold name? at h
    split at h
    · obtain rfl := Option.some.inj h
      exact .name (by assumption)
    · obtain rfl := Option.some.inj h
      exact .every (by assumption)
    · cases h
  · rintro (h | h) <;> simp [name?, h]

theorem kind_of_writesLocalName {t : Token} {name : Option Text} (h : WritesLocalName t name) :
    t.kind = .identifier ∨ t.kind = .universal := by
  cases h with
  | name h => exact Or.inl h
  | every h => exact Or.inr h

/-- A local name is read whatever follows. -/
theorem localName_of_writes {s : Setting} {expected : Expected} {t : Token} {name : Option Text}
    (h : WritesLocalName t name) (rest : List Token) :
    localName s expected (t :: rest) = .ok name rest := by
  simp [localName, name?_eq_some_iff.mpr h]

/-- A name without bar must not be followed by one; the names with a bar end by themselves. -/
theorem qualifiedName_of_writes {s : Setting} {expected : Expected} {ts rest : List Token}
    {name : Qualifier × Option Text} (h : WritesName ts name)
    (hNext : nextKind rest ≠ .namespaceSeparator) :
    qualifiedName s expected (ts ++ rest) = .ok (some name) rest := by
  cases h with
  | plain h => simp [qualifiedName, name?_eq_some_iff.mpr h, hNext]
  | unqualified hBar h =>
      simp [qualifiedName, name?, hBar, localName_of_writes h, Outcome.map]
  | everywhere hPrefix hBar h =>
      simp [qualifiedName, name?_eq_some_iff.mpr hPrefix, nextKind, hBar, localName_of_writes h,
        Outcome.map, qualifierOf]
  | qualified hPrefix hBar h =>
      simp [qualifiedName, name?_eq_some_iff.mpr hPrefix, nextKind, hBar, localName_of_writes h,
        Outcome.map, qualifierOf]

/-- White space may be missing, or be any number of tokens. -/
theorem dropBlank_append {before : List Token} (h : Blank before) (rest : List Token) :
    dropBlank (before ++ rest) = dropBlank rest := by
  induction before with
  | nil => rfl
  | cons t ts ih =>
      have hKind : t.kind = .whitespace := h t List.mem_cons_self
      have hRest : Blank ts := fun x hx => h x (List.mem_cons_of_mem _ hx)
      simpa [dropBlank, List.dropWhile_cons, hKind] using ih hRest

theorem dropBlank_of_nextKind {rest : List Token} (h : nextKind rest ≠ .whitespace) :
    dropBlank rest = rest := by
  cases rest with
  | nil => rfl
  | cons t ts => simp_all [dropBlank, nextKind]

/-- White space in front of other tokens is dropped as a whole. -/
theorem dropBlank_append_of_nextKind {before rest : List Token} (h : Blank before)
    (hNext : nextKind rest ≠ .whitespace) : dropBlank (before ++ rest) = rest := by
  rw [dropBlank_append h, dropBlank_of_nextKind hNext]

/-- A string is read up to its closing mark, whatever follows. -/
theorem stringText_of_writes {s : Setting} {mark : QuoteMark} {ts : List Token} {text : Text}
    (h : WritesString mark ts text) (rest : List Token) :
    stringText s mark (ts ++ rest) = .ok text rest := by
  induction h with
  | close h => simp [stringText, h]
  | chars h _ ih => simp [stringText, h, ih, Outcome.map]
  | escaped h _ ih => simp [stringText, h, ih, Outcome.map]

/-- A value is read whatever follows, since a string is closed and a name is one token. -/
theorem value_of_writes {s : Setting} {ts : List Token} {text : Text} (h : WritesValue ts text)
    (rest : List Token) : value s (ts ++ rest) = .ok text rest := by
  cases h with
  | identifier h => simp [value, h]
  | number h => simp [value, h]
  | string h hRest => simp [value, h, stringText_of_writes hRest]

/-- The first token of a name is no white space, no bracket and no operator. -/
theorem nextKind_of_writesName {ts : List Token} {name : Qualifier × Option Text}
    (h : WritesName ts name) (rest : List Token) :
    nextKind (ts ++ rest) = .identifier ∨ nextKind (ts ++ rest) = .universal ∨
      nextKind (ts ++ rest) = .namespaceSeparator := by
  cases h with
  | plain h => rcases kind_of_writesLocalName h with h | h <;> simp [nextKind, h]
  | unqualified hBar _ => simp [nextKind, hBar]
  | everywhere h _ _ => rcases kind_of_writesLocalName h with h | h <;> simp [nextKind, h]
  | qualified h _ _ => rcases kind_of_writesLocalName h with h | h <;> simp [nextKind, h]

/-- A value does not begin with white space, so none of it is lost where white space is dropped. -/
theorem nextKind_of_writesValue {ts : List Token} {text : Text} (h : WritesValue ts text)
    (rest : List Token) : nextKind (ts ++ rest) ≠ .whitespace := by
  cases h with
  | identifier h => simp [nextKind, h]
  | number h => simp [nextKind, h]
  | string h _ => simp [nextKind, h]

theorem nextKind_append_of_blank {before rest : List Token} {kind : Token.Kind}
    (h : Blank before) (hBlank : kind ≠ .whitespace) (hNext : nextKind rest ≠ kind) :
    nextKind (before ++ rest) ≠ kind := by
  cases before with
  | nil => simpa using hNext
  | cons t ts =>
      rw [List.cons_append, nextKind, h t List.mem_cons_self]
      exact hBlank.symm

/-- A comparison is read if the closing bracket follows. -/
theorem comparison_of_writes {s : Setting} {ts rest : List Token} {written : Option Comparison}
    (h : WritesComparison ts written) (hNext : nextKind rest = .attributeEnd) :
    comparison s (ts ++ rest) = .ok written rest := by
  cases h with
  | absent =>
      cases rest with
      | nil => rfl
      | cons t rest =>
          have hKind : t.kind = .attributeEnd := hNext
          simp [comparison, hKind]
  | present hKind hSign hBefore h hAfter =>
      simp only [List.cons_append, List.append_assoc, comparison, hKind, hSign, if_true]
      rw [dropBlank_append_of_nextKind hBefore (nextKind_of_writesValue h _), value_of_writes h]
      simp [Outcome.andThen, dropBlank_append_of_nextKind hAfter, hNext]

theorem nextKind_of_writesComparison {ts rest : List Token} {written : Option Comparison}
    (h : WritesComparison ts written) (hNext : nextKind rest = .attributeEnd) :
    nextKind (ts ++ rest) = .attributeOperator ∨ nextKind (ts ++ rest) = .attributeEnd := by
  cases h with
  | absent => exact Or.inr hNext
  | present hKind _ _ _ _ => exact Or.inl (by simpa [nextKind] using hKind)

/-- An attribute test is read behind its opening bracket. -/
theorem attributeTest_of_writes {s : Setting} {ts : List Token} {test : AttributeTest}
    (h : WritesAttribute ts test) (rest : List Token) :
    ∃ start inner, ts = start :: inner ∧ start.kind = .attributeStart ∧
      attributeTest s (inner ++ rest) = .ok test rest := by
  cases h with
  | @intro start stop before name after cs local_ _ comparison hStart hBefore hName hAfter
      hComparison hStop =>
      have hEnd : nextKind (stop :: rest) = .attributeEnd := hStop
      have hBehind := nextKind_of_writesComparison hComparison hEnd
      have hFirst := nextKind_of_writesName hName (after ++ (cs ++ stop :: rest))
      refine ⟨start, _, rfl, hStart, ?_⟩
      simp only [List.append_assoc, List.cons_append, List.nil_append, attributeTest]
      rw [dropBlank_append_of_nextKind hBefore (by rcases hFirst with h | h | h <;> simp [h]),
        qualifiedName_of_writes hName (nextKind_append_of_blank hAfter (by decide)
          (by rcases hBehind with h | h <;> simp [h]))]
      simp only [Outcome.andThen]
      rw [dropBlank_append_of_nextKind hAfter (by rcases hBehind with h | h <;> simp [h]),
        comparison_of_writes hComparison hEnd]
      simp [expect, hStop, Outcome.map]

theorem positionsText_of_isPositional {s : Setting} {t : Token} (h : t.kind.isPositional = true)
    (tokens : List Token) :
    positionsText s (t :: tokens) = (positionsText s tokens).map (t.text ++ ·) := by
  rw [positionsText]
  cases hKind : t.kind with
  | number | identifier | combinator | whitespace => rfl
  | _ =>
      rw [hKind] at h
      cases h

theorem positionsText_of_parenthesesEnd {s : Setting} {stop : Token}
    (hStop : stop.kind = .parenthesesEnd) (rest : List Token) :
    positionsText s (stop :: rest) = .ok [] (stop :: rest) := by
  rw [positionsText, hStop]

/-- Tokens of positions are joined up to the closing parenthesis. -/
theorem positionsText_of_positional {s : Setting} {ts : List Token} {stop : Token}
    (h : ∀ t ∈ ts, t.kind.isPositional = true) (hStop : stop.kind = .parenthesesEnd)
    (rest : List Token) :
    positionsText s (ts ++ stop :: rest) = .ok (ts.flatMap Token.text) (stop :: rest) := by
  induction ts with
  | nil => exact positionsText_of_parenthesesEnd hStop rest
  | cons t ts ih =>
      rw [List.forall_mem_cons] at h
      rw [List.cons_append, positionsText_of_isPositional h.1, ih h.2]
      rfl

/-- Positions are read. Tokens that were scanned hold nothing between the parentheses that could be
skipped. -/
theorem positions_of_writes {s : Setting} {offset : Nat} {ts : List Token} {start stop : Token}
    {written : AnPlusB} (hScanned : Scanned (start :: ts)) (h : WritesPositions ts written)
    (hStart : start.kind = .parenthesesStart) (hStop : stop.kind = .parenthesesEnd)
    (rest : List Token) : positions s offset (ts ++ stop :: rest) = .ok written rest := by
  have hRead : AnPlusB.read? (ts.flatMap Token.text) = some written := h
  have hKinds := hScanned.isPositional (by simp [hStart, Token.Kind.admitsQuoted]) hRead
  simp [positions, positionsText_of_positional hKinds hStop, Outcome.andThen, hRead]

/-- White space on both sides of a text is passed over. -/
theorem textArgument_of_writes {s : Setting} {ts : List Token} {stop : Token} {text : Text}
    (h : WritesText ts text) (hStop : stop.kind = .parenthesesEnd) (rest : List Token) :
    textArgument s (ts ++ stop :: rest) = .ok text rest := by
  cases h with
  | intro hBefore h hAfter =>
      simp only [List.append_assoc, textArgument]
      rw [dropBlank_append_of_nextKind hBefore (nextKind_of_writesValue h _), value_of_writes h]
      simp only [Outcome.andThen]
      rw [dropBlank_append_of_nextKind hAfter (by simp [nextKind, hStop])]
      simp [expect, hStop, Outcome.map]

/-- The parser of groups reads what `group` derives between the parentheses, and nothing else. -/
structure GroupReads (groups : GroupParser) (group : List Token → SelectorList → Prop) :
    Prop where
  complete : ∀ {offset : Nat} {start stop : Token} {ts : List Token} {list : SelectorList}
    (rest : List Token), stop.kind = .parenthesesEnd → Scanned ts → group ts list →
      groups.read offset (start :: (ts ++ stop :: rest)) = .ok list rest
  sound : ∀ {offset : Nat} {start : Token} {tokens rest : List Token} {list : SelectorList},
    groups.read offset (start :: tokens) = .ok list rest →
      ∃ ts stop, tokens = ts ++ stop :: rest ∧ stop.kind = .parenthesesEnd ∧ group ts list

/-- Every pseudo-class is found by its name. -/
theorem pseudoClass_ofName?_name (p : PseudoClass) : PseudoClass.ofName? p.name = some p := by
  cases p <;> decide

theorem functionalClass_ofName?_name (f : FunctionalClass) :
    FunctionalClass.ofName? f.name = some f := by
  cases f with
  | nth counting => cases counting <;> decide
  | not => decide
  | has => decide
  | contains => decide

/-- Behind a compound stands one of these, in every place where a compound may stand. -/
def endsCompound : Token.Kind → Bool
  | .whitespace | .combinator | .separator | .parenthesesEnd | .eof => true
  | _ => false

section

variable {s : Setting} {groups : GroupParser} {group : List Token → SelectorList → Prop}

/-- A functional pseudo-class is read by the parser of its argument. -/
theorem part_of_encloses (s : Setting) (groups : GroupParser) {t start stop : Token}
    {functional : FunctionalClass}
    (h : Encloses t start stop functional) (rest : List Token) :
    part s groups (t :: start :: rest) =
      (Parser.functional s groups t start rest).map some ∧
    FunctionalClass.ofName? (pseudoName t) = some functional := by
  refine ⟨?_, by rw [h.name, functionalClass_ofName?_name]⟩
  simp [part, h.kind, pseudo, h.start]

/-- A part is read if no parenthesis follows, which would make a name functional. -/
theorem part_of_writes (hGroups : GroupReads groups group) {ts rest : List Token}
    {simple : Simple} (hScanned : Scanned ts) (h : WritesPart group ts simple)
    (hNext : nextKind rest ≠ .parenthesesStart) :
    part s groups (ts ++ rest) = .ok (some simple) rest := by
  cases h with
  | className h => simp [part, h]
  | idName h => simp [part, h]
  | attributeTest h =>
      obtain ⟨start, inner, rfl, hStart, hTest⟩ := attributeTest_of_writes (s := s) h rest
      simp [part, hStart, hTest, Outcome.map]
  | pseudo hKind hName =>
      have hPlain (t : Token) (p : PseudoClass) (h : pseudoName t = p.name) :
          plain t rest = .ok (.pseudo p) rest := by
        simp [plain, h, pseudoClass_ofName?_name]
      cases rest with
      | nil => simp [part, hKind, pseudo, hPlain _ _ hName, Outcome.map]
      | cons next rest =>
          have hOther : next.kind ≠ .parenthesesStart := hNext
          simp [part, hKind, pseudo, hOther, hPlain _ _ hName, Outcome.map]
  | @nth t start stop ts counting positions hEnclosed h =>
      obtain ⟨hRead, hName⟩ := part_of_encloses s groups hEnclosed _
      have hInner : Scanned (start :: ts) := hScanned.part ⟨[t], [stop], by simp⟩
      simp only [List.cons_append, List.append_assoc, List.nil_append]
      rw [hRead]
      simp [functional, hName,
        positions_of_writes hInner h hEnclosed.start hEnclosed.stop, Outcome.map]
  | @not t start stop ts list hEnclosed h =>
      obtain ⟨hRead, hName⟩ := part_of_encloses s groups hEnclosed _
      have hInner : Scanned ts := hScanned.part ⟨[t, start], [stop], by simp⟩
      simp only [List.cons_append, List.append_assoc, List.nil_append]
      rw [hRead]
      simp [functional, hName, hGroups.complete rest hEnclosed.stop hInner h, Outcome.map]
  | @has t start stop ts list hEnclosed h =>
      obtain ⟨hRead, hName⟩ := part_of_encloses s groups hEnclosed _
      have hInner : Scanned ts := hScanned.part ⟨[t, start], [stop], by simp⟩
      simp only [List.cons_append, List.append_assoc, List.nil_append]
      rw [hRead]
      simp [functional, hName, hGroups.complete rest hEnclosed.stop hInner h, Outcome.map]
  | contains hEnclosed h =>
      obtain ⟨hRead, hName⟩ := part_of_encloses s groups hEnclosed _
      simp only [List.cons_append, List.append_assoc, List.nil_append]
      rw [hRead]
      simp [functional, hName, textArgument_of_writes h hEnclosed.stop, Outcome.map]

/-- The kinds of token that a part begins with. -/
theorem nextKind_of_writesPart {ts : List Token} {simple : Simple}
    (h : WritesPart group ts simple) (rest : List Token) :
    nextKind (ts ++ rest) = .classSelector ∨ nextKind (ts ++ rest) = .idSelector ∨
      nextKind (ts ++ rest) = .attributeStart ∨ nextKind (ts ++ rest) = .pseudoClass := by
  cases h with
  | className h => simp [nextKind, h]
  | idName h => simp [nextKind, h]
  | attributeTest h =>
      cases h with
      | intro hStart => simp [nextKind, hStart]
  | pseudo hKind _ => simp [nextKind, hKind]
  | nth h _ => simp [nextKind, h.kind]
  | not h _ => simp [nextKind, h.kind]
  | has h _ => simp [nextKind, h.kind]
  | contains h _ => simp [nextKind, h.kind]

/-- Behind one part come others or the end of the compound, so never a parenthesis or a name. -/
theorem nextKind_of_writesParts {ts rest : List Token} {simples : List Simple}
    (h : WritesParts group ts simples) (hNext : endsCompound (nextKind rest) = true) :
    nextKind (ts ++ rest) ≠ .parenthesesStart ∧
      nextKind (ts ++ rest) ≠ .namespaceSeparator := by
  cases h with
  | nil =>
      simp only [List.nil_append]
      constructor <;> intro hKind <;> simp [hKind, endsCompound] at hNext
  | @cons ts more _ _ h _ =>
      rw [List.append_assoc]
      rcases nextKind_of_writesPart h (more ++ rest) with h | h | h | h <;> simp [h]

/-- Nothing is read where no part begins. -/
theorem part_of_endsCompound {rest : List Token} (h : endsCompound (nextKind rest) = true) :
    part s groups rest = .ok none rest := by
  cases rest with
  | nil => rfl
  | cons t rest =>
      simp only [nextKind] at h
      cases hKind : t.kind <;> simp_all [part, endsCompound]

/-- All of the parts are read, since what ends a compound begins no part. -/
theorem parts_of_writes (hGroups : GroupReads groups group) {ts rest : List Token}
    {simples : List Simple} (hScanned : Scanned ts) (h : WritesParts group ts simples)
    (hNext : endsCompound (nextKind rest) = true) :
    parts s groups (ts ++ rest) = .ok simples rest := by
  induction h with
  | nil => rw [parts, List.nil_append, part_of_endsCompound hNext]
  | @cons ts more simple simples h hRest ih =>
      rw [parts, List.append_assoc,
        part_of_writes hGroups (hScanned.part (List.prefix_append ts more).isInfix) h
          (nextKind_of_writesParts hRest hNext).1]
      simp [ih (hScanned.part (List.suffix_append ts more).isInfix), Outcome.map]

/-- What begins with a class, an id, an attribute or a pseudo-class begins with no name. -/
theorem qualifiedName_of_writesParts {expected : Expected} {ts rest : List Token}
    {simples : List Simple} (h : WritesParts group ts simples) (hSome : simples ≠ []) :
    qualifiedName s expected (ts ++ rest) = .ok none (ts ++ rest) := by
  cases h with
  | nil => exact absurd rfl hSome
  | @cons ts more simple simples h hRest =>
      rw [List.append_assoc]
      have hKind := nextKind_of_writesPart h (more ++ rest)
      cases hTokens : ts ++ (more ++ rest) with
      | nil => rfl
      | cons t tokens =>
          rw [hTokens] at hKind
          simp only [nextKind] at hKind
          rcases hKind with hKind | hKind | hKind | hKind <;> simp [qualifiedName, name?, hKind]

theorem writesName_ne_nil {ts : List Token} {name : Qualifier × Option Text}
    (h : WritesName ts name) : ts ≠ [] := by
  cases h <;> simp

theorem writesPart_ne_nil {ts : List Token} {simple : Simple} (h : WritesPart group ts simple) :
    ts ≠ [] := by
  rintro rfl
  rcases nextKind_of_writesPart h [] with h | h | h | h <;> simp [nextKind] at h

theorem writesParts_ne_nil {ts : List Token} {simples : List Simple}
    (h : WritesParts group ts simples) (hSome : simples ≠ []) : ts ≠ [] := by
  cases h with
  | nil => exact absurd rfl hSome
  | cons h _ => exact fun hNil => writesPart_ne_nil h (List.append_eq_nil_iff.mp hNil).1

/-- The offset that a compound is given is that of its first token. -/
theorem nextOffset_append {ts : List Token} (h : ts ≠ []) (rest : List Token) :
    nextOffset s (ts ++ rest) = offsetOf ts := by
  cases ts with
  | nil => exact absurd rfl h
  | cons t ts => rfl

/-- A compound is read, with or without a name in front, and at the offset at which it is
written. -/
theorem compound_of_writes (hGroups : GroupReads groups group) {ts rest : List Token}
    {written : Compound} (hScanned : Scanned ts) (h : WritesCompound group ts written)
    (hNext : endsCompound (nextKind rest) = true) :
    compound s groups (ts ++ rest) = .ok written rest := by
  cases h with
  | @named ts more _ _ hName h =>
      have hMore : Scanned more := hScanned.part (List.suffix_append ts more).isInfix
      rw [compound, List.append_assoc,
        qualifiedName_of_writes hName (nextKind_of_writesParts h hNext).2]
      simp only [Outcome.andThen]
      rw [parts_of_writes hGroups hMore h hNext, nextOffset_append (writesName_ne_nil hName)]
  | @unnamed ts simples h hSome =>
      rw [compound, qualifiedName_of_writesParts h hSome]
      simp only [Outcome.andThen]
      rw [parts_of_writes hGroups hScanned h hNext,
        nextOffset_append (writesParts_ne_nil h hSome)]
      cases simples with
      | nil => exact absurd rfl hSome
      | cons simple simples => rfl

/-- A compound begins with a token that announces it. -/
theorem startsCompound_of_writes {ts : List Token} {written : Compound}
    (h : WritesCompound group ts written) (rest : List Token) :
    startsCompound (nextKind (ts ++ rest)) = true := by
  cases h with
  | @named ts more _ _ hName _ =>
      rw [List.append_assoc]
      rcases nextKind_of_writesName hName (more ++ rest) with h | h | h <;>
        simp [h, startsCompound]
  | unnamed h hSome =>
      cases h with
      | nil => exact absurd rfl hSome
      | @cons ts more _ _ h _ =>
          rw [List.append_assoc]
          rcases nextKind_of_writesPart h (more ++ rest) with h | h | h | h <;>
            simp [h, startsCompound]

theorem nextKind_of_startsCompound {rest : List Token}
    (h : startsCompound (nextKind rest) = true) :
    nextKind rest ≠ .whitespace ∧ nextKind rest ≠ .combinator := by
  constructor <;> intro hKind <;> simp [hKind, startsCompound] at h

/-- A combinator is read with the white space around it, and white space alone is one if a compound
follows. -/
theorem link_of_writes {ms rest : List Token} {combinator : Combinator}
    (h : WritesCombinator ms combinator) (hNext : startsCompound (nextKind rest) = true) :
    link (ms ++ rest) = .ok (some combinator) rest := by
  obtain ⟨hBlank, hSign⟩ := nextKind_of_startsCompound hNext
  cases h with
  | blank h hSome =>
      obtain ⟨t, ts, rfl⟩ := List.exists_cons_of_ne_nil hSome
      have hFirst : t.kind = .whitespace := h t List.mem_cons_self
      rw [link, dropBlank_append_of_nextKind h hBlank]
      cases rest with
      | nil => simp [nextKind, startsCompound] at hNext
      | cons next rest => simp_all [nextKind]
  | @sign t before after _ hBefore hKind hSymbol hAfter =>
      rw [link, List.append_assoc, dropBlank_append_of_nextKind hBefore (by simp [nextKind, hKind])]
      simp [hKind, hSymbol, dropBlank_append_of_nextKind hAfter hBlank]

/-- Behind a whole selector stands one of these. -/
def endsSelector : Token.Kind → Bool
  | .separator | .parenthesesEnd | .eof => true
  | _ => false

/-- Behind the last compound white space is no combinator. -/
theorem link_of_endsSelector {after rest : List Token} (h : Blank after)
    (hNext : endsSelector (nextKind rest) = true) : link (after ++ rest) = .ok none rest := by
  have hBlank : nextKind rest ≠ .whitespace := by
    intro hKind
    simp [hKind, endsSelector] at hNext
  rw [link, dropBlank_append_of_nextKind h hBlank]
  cases rest with
  | nil => rfl
  | cons t rest =>
      simp only [nextKind] at hNext
      cases hKind : t.kind <;> simp_all [endsSelector, startsCompound]

/-- A compound ends in front of every combinator. -/
theorem endsCompound_of_writesCombinator {ms rest : List Token} {combinator : Combinator}
    (h : WritesCombinator ms combinator) : endsCompound (nextKind (ms ++ rest)) = true := by
  cases h with
  | blank h hSome =>
      obtain ⟨t, ts, rfl⟩ := List.exists_cons_of_ne_nil hSome
      simp [nextKind, h t List.mem_cons_self, endsCompound]
  | @sign t before after _ hBefore hKind _ _ =>
      cases before with
      | nil => simp [nextKind, hKind, endsCompound]
      | cons b before => simp [nextKind, hBefore b List.mem_cons_self, endsCompound]

/-- Reading a chain from its first compound comes to the same state as going on behind any part of
it that has been read. This carries the left-leaning derivation through the loop of the parser. -/
theorem complex_of_writes (hGroups : GroupReads groups group) {ts rest : List Token}
    {written : Complex} (hScanned : Scanned ts) (h : WritesComplex group ts written)
    (hNext : endsCompound (nextKind rest) = true) :
    complex s groups (ts ++ rest) = chain s groups written rest := by
  induction h generalizing rest with
  | single h => simp [complex, compound_of_writes hGroups hScanned h hNext, Outcome.andThen]
  | @joined ls ms rs left combinator right hLeft hCombinator hRight ih =>
      have hRest : Scanned rs := hScanned.part ⟨ls ++ ms, [], by simp⟩
      rw [List.append_assoc, List.append_assoc,
        ih (hScanned.part (List.prefix_append ls _).isInfix)
          (endsCompound_of_writesCombinator hCombinator), chain,
        link_of_writes hCombinator (startsCompound_of_writes hRight rest)]
      have hRead := compound_of_writes (s := s) hGroups hRest hRight hNext
      dsimp only
      split
      · rename_i right' rest' h'
        rw [hRead] at h'
        cases h'
        rfl
      · rename_i h'
        rw [hRead] at h'
        cases h'

theorem endsCompound_append {after rest : List Token} (h : Blank after)
    (hNext : endsSelector (nextKind rest) = true) :
    endsCompound (nextKind (after ++ rest)) = true := by
  cases after with
  | nil =>
      simp only [List.nil_append]
      cases hKind : nextKind rest <;> simp_all [endsSelector, endsCompound]
  | cons t after => simp [nextKind, h t List.mem_cons_self, endsCompound]

/-- A selector begins with a token that can begin a compound. -/
theorem startsCompound_of_writesComplex {ts : List Token} {written : Complex}
    (h : WritesComplex group ts written) (rest : List Token) :
    startsCompound (nextKind (ts ++ rest)) = true := by
  induction h generalizing rest with
  | single h => exact startsCompound_of_writes h rest
  | joined _ _ _ ih =>
      rw [List.append_assoc]
      exact ih _

/-- One selector of a list is read with the white space around it. -/
theorem alternative_of_writes (hGroups : GroupReads groups group)
    {before ts after rest : List Token} {selector : Complex} (hScanned : Scanned ts)
    (hBefore : Blank before) (h : WritesComplex group ts selector) (hAfter : Blank after)
    (hNext : endsSelector (nextKind rest) = true) :
    alternative s groups (before ++ ts ++ after ++ rest) = .ok selector rest := by
  have hFirst := nextKind_of_startsCompound (startsCompound_of_writesComplex h (after ++ rest))
  have hBlank : nextKind rest ≠ .whitespace := by
    intro hKind
    simp [hKind, endsSelector] at hNext
  rw [alternative, List.append_assoc, List.append_assoc,
    dropBlank_append_of_nextKind hBefore hFirst.1,
    complex_of_writes hGroups hScanned h (endsCompound_append hAfter hNext), chain,
    link_of_endsSelector hAfter hNext]
  simp [Outcome.andThen, dropBlank_of_nextKind hBlank]

/-- A derived list is read up to a token that closes it, or to the end where nothing has to. -/
theorem list_of_writes (hGroups : GroupReads groups group) {close : Token.Kind}
    {ts rest : List Token} {written : SelectorList} (hScanned : Scanned ts)
    (h : WritesAlternatives group ts written)
    (hClose : close = .eof ∨ close = .parenthesesEnd) (hNext : nextKind rest = close) :
    list s groups close (ts ++ rest) = .ok written rest := by
  have hEnd : endsSelector (nextKind rest) = true := by
    rcases hClose with h | h <;> simp [hNext, h, endsSelector]
  induction h with
  | @one before ts after selector hBefore h hAfter =>
      have hInner : Scanned ts := hScanned.part ⟨before, after, rfl⟩
      rw [list, alternative_of_writes hGroups hInner hBefore h hAfter hEnd]
      cases rest with
      | nil =>
          simp only [nextKind] at hNext
          simp [← hNext]
      | cons t rest =>
          simp only [nextKind] at hNext
          rcases hClose with hClose | hClose <;> simp [hNext, hClose]
  | @more before ts after tail comma selector selectors hBefore h hAfter hComma hRest ih =>
      have hInner : Scanned ts := hScanned.part ⟨before, after ++ comma :: tail, by simp⟩
      have hTail : Scanned tail :=
        hScanned.part ⟨before ++ ts ++ after ++ [comma], [], by simp⟩
      rw [list, List.append_assoc, List.cons_append,
        alternative_of_writes hGroups hInner hBefore h hAfter
          (by simp [nextKind, hComma, endsSelector])]
      simp [hComma, ih hTail, Outcome.map]

end

end SelectorXPath.Parser
