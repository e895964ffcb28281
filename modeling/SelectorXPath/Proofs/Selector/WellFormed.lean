import SelectorXPath.Proofs.Selector.Acceptance
import SelectorXPath.Proofs.Selector.Agreement

/-! Well-formed selectors, and the first half of the image of the parser: whatever tokens of a scan
write is well formed. Values of attributes and texts that are searched for are under no condition
at all. -/

namespace SelectorXPath

open SelectorXPath.Text

/-- A prefix has a name. -/
def Qualifier.isWellFormed : Qualifier → Bool
  | .named name => name ≠ []
  | _ => true

/-- The parts that only the front of a compound may hold. -/
def Simple.isName : Simple → Bool
  | .type .. | .universal .. => true
  | _ => false

mutual

/-- Names have characters, and the numbers of positions fit into 32 bits. -/
def Simple.isWellFormed : Simple → Bool
  | .type name qualifier => name ≠ [] && qualifier.isWellFormed
  | .universal qualifier => qualifier.isWellFormed
  | .class name => name ≠ []
  | .id name => name ≠ []
  | .attribute test => test.name ≠ [] && test.qualifier.isWellFormed
  | .pseudo _ => true
  | .nth _ positions => AnPlusB.inRange positions.a && AnPlusB.inRange positions.b
  | .not list => !list.isEmpty && allWellFormed list
  | .has list => !list.isEmpty && allWellFormed list
  | .contains _ => true

def partsWellFormed : List Simple → Bool
  | [] => true
  | part :: parts => part.isWellFormed && partsWellFormed parts

/-- There is at least one part, and none but the first is the name of an element. -/
def Compound.isWellFormed : Compound → Bool
  | ⟨_, parts⟩ => !parts.isEmpty && !parts.tail.any Simple.isName && partsWellFormed parts

def Complex.isWellFormed : Complex → Bool
  | .single compound => compound.isWellFormed
  | .joined left _ right => left.isWellFormed && right.isWellFormed

def allWellFormed : List Complex → Bool
  | [] => true
  | selector :: list => selector.isWellFormed && allWellFormed list

end

/-- There is at least one selector, and each of them is well formed. -/
def listWellFormed (list : SelectorList) : Bool :=
  !list.isEmpty && allWellFormed list

theorem isName_unplaced (simple : Simple) : simple.unplaced.isName = simple.isName := by
  cases simple <;> rfl

theorem any_isName_partsUnplaced (parts : List Simple) :
    (partsUnplaced parts).any Simple.isName = parts.any Simple.isName := by
  induction parts with
  | nil => rfl
  | cons part parts ih => simp [partsUnplaced, isName_unplaced, ih]

theorem isEmpty_listUnplaced (list : List Complex) :
    (listUnplaced list).isEmpty = list.isEmpty := by
  cases list <;> rfl

mutual

/-- Being well formed has nothing to do with offsets. -/
theorem Simple.isWellFormed_unplaced : ∀ simple : Simple,
    simple.unplaced.isWellFormed = simple.isWellFormed
  | .not list | .has list => by
      simp only [Simple.unplaced, Simple.isWellFormed, isEmpty_listUnplaced,
        allWellFormed_unplaced list]
  | .type .. | .universal .. | .class .. | .id .. | .attribute .. | .pseudo .. | .nth ..
  | .contains .. => rfl

theorem partsWellFormed_unplaced : ∀ parts : List Simple,
    partsWellFormed (partsUnplaced parts) = partsWellFormed parts
  | [] => rfl
  | part :: parts => by
      simp [partsUnplaced, partsWellFormed, part.isWellFormed_unplaced,
        partsWellFormed_unplaced parts]

/-- Where a compound begins does not say which parts it may hold. -/
theorem Compound.isWellFormed_unplaced : ∀ compound : Compound,
    compound.unplaced.isWellFormed = compound.isWellFormed
  | ⟨_, []⟩ => rfl
  | ⟨_, part :: parts⟩ => by
      have hParts := partsWellFormed_unplaced (part :: parts)
      simp only [partsUnplaced] at hParts
      simp [Compound.unplaced, Compound.isWellFormed, partsUnplaced,
        any_isName_partsUnplaced, hParts]

theorem Complex.isWellFormed_unplaced : ∀ complex : Complex,
    complex.unplaced.isWellFormed = complex.isWellFormed
  | .single compound => compound.isWellFormed_unplaced
  | .joined left _ right => by
      simp [Complex.unplaced, Complex.isWellFormed, left.isWellFormed_unplaced,
        right.isWellFormed_unplaced]

theorem allWellFormed_unplaced : ∀ list : List Complex,
    allWellFormed (listUnplaced list) = allWellFormed list
  | [] => rfl
  | selector :: list => by
      simp [listUnplaced, allWellFormed, selector.isWellFormed_unplaced,
        allWellFormed_unplaced list]

end

/-- Of two lists that agree both are well formed or neither is. -/
theorem listWellFormed_eq_of_agree {list list' : SelectorList}
    (h : listsAgree list list' = true) : listWellFormed list = listWellFormed list' := by
  have hSame := (listsAgree_iff list list').mp h
  rw [listWellFormed, ← isEmpty_listUnplaced, ← allWellFormed_unplaced, hSame,
    isEmpty_listUnplaced, allWellFormed_unplaced, listWellFormed]

/-- Decoding leaves at least one character of a text that has one. -/
theorem Text.unescape_ne_nil {t : Text} (h : t ≠ []) : unescape t ≠ [] := by
  obtain ⟨c, t, rfl⟩ := List.exists_cons_of_ne_nil h
  rw [unescape]
  split <;> simp

namespace Grammar

/-- A name that was scanned is not empty. -/
theorem name_ne_nil_of_writesLocalName {t : Token} {name : Text}
    (hToken : t.Recognized) (h : WritesLocalName t (some name)) : name ≠ [] := by
  cases h
  exact unescape_ne_nil hToken.text_ne_nil

/-- The prefix of a scanned name is not empty either. -/
theorem wellFormed_of_writesName {ts : List Token} {name : Qualifier × Option Text}
    (hTokens : ∀ t ∈ ts, t.Recognized) (h : WritesName ts name) :
    name.1.isWellFormed = true ∧ ∀ text, name.2 = some text → text ≠ [] := by
  cases h with
  | plain h =>
      refine ⟨rfl, ?_⟩
      rintro text rfl
      exact name_ne_nil_of_writesLocalName (hTokens _ (by simp)) h
  | unqualified _ h =>
      refine ⟨rfl, ?_⟩
      rintro text rfl
      exact name_ne_nil_of_writesLocalName (hTokens _ (by simp)) h
  | everywhere _ _ h =>
      refine ⟨rfl, ?_⟩
      rintro text rfl
      exact name_ne_nil_of_writesLocalName (hTokens _ (by simp)) h
  | qualified hPrefix _ h =>
      constructor
      · simpa [Qualifier.isWellFormed] using
          name_ne_nil_of_writesLocalName (hTokens _ (by simp)) hPrefix
      · rintro text rfl
        exact name_ne_nil_of_writesLocalName (hTokens _ (by simp)) h

theorem wellFormed_of_writesAttribute {ts : List Token} {test : AttributeTest}
    (hTokens : ∀ t ∈ ts, t.Recognized) (h : WritesAttribute ts test) :
    (Simple.attribute test).isWellFormed = true := by
  obtain ⟨-, -, hName, -, -, -⟩ := h
  obtain ⟨hQualifier, hLocal⟩ :=
    wellFormed_of_writesName (fun t ht => hTokens t (by simp [ht])) hName
  simp [Simple.isWellFormed, hQualifier, hLocal _ rfl]

section

variable {group : List Token → SelectorList → Prop}
  (hGroup : ∀ ts list, (∀ t ∈ ts, t.Recognized) → group ts list → listWellFormed list = true)

include hGroup

/-- A part that was scanned is well formed: its names have characters, and its numbers were read
within their range. -/
theorem wellFormed_of_writesPart {ts : List Token} {simple : Simple}
    (hTokens : ∀ t ∈ ts, t.Recognized) (h : WritesPart group ts simple) :
    simple.isWellFormed = true ∧ simple.isName = false := by
  cases h with
  | className hKind =>
      have hName := (hTokens _ List.mem_cons_self).name_ne_nil (Or.inl hKind)
      exact ⟨by simpa [Simple.isWellFormed] using unescape_ne_nil hName, rfl⟩
  | idName hKind =>
      have hName := (hTokens _ List.mem_cons_self).name_ne_nil (Or.inr hKind)
      exact ⟨by simpa [Simple.isWellFormed] using unescape_ne_nil hName, rfl⟩
  | attributeTest h => exact ⟨wellFormed_of_writesAttribute hTokens h, rfl⟩
  | pseudo _ _ => exact ⟨rfl, rfl⟩
  | nth _ h =>
      obtain ⟨ha, hb⟩ := AnPlusB.inRange_of_read? h
      exact ⟨by simp [Simple.isWellFormed, ha, hb], rfl⟩
  | not _ h => exact ⟨hGroup _ _ (fun t ht => hTokens t (by simp [ht])) h, rfl⟩
  | has _ h => exact ⟨hGroup _ _ (fun t ht => hTokens t (by simp [ht])) h, rfl⟩
  | contains _ _ => exact ⟨rfl, rfl⟩

theorem wellFormed_of_writesParts {ts : List Token} {simples : List Simple}
    (hTokens : ∀ t ∈ ts, t.Recognized) (h : WritesParts group ts simples) :
    partsWellFormed simples = true ∧ simples.any Simple.isName = false := by
  induction h with
  | nil => exact ⟨rfl, rfl⟩
  | cons h _ ih =>
      obtain ⟨hPart, hName⟩ :=
        wellFormed_of_writesPart hGroup (fun t ht => hTokens t (by simp [ht])) h
      obtain ⟨hParts, hNames⟩ := ih fun t ht => hTokens t (by simp [ht])
      exact ⟨by simp [partsWellFormed, hPart, hParts], by simp [hName, hNames]⟩

/-- Only the front of a compound is written as a name. -/
theorem wellFormed_of_writesCompound {ts : List Token} {compound : Compound}
    (hTokens : ∀ t ∈ ts, t.Recognized) (h : WritesCompound group ts compound) :
    compound.isWellFormed = true := by
  cases h with
  | @named _ _ name _ hName h =>
      obtain ⟨hParts, hNames⟩ :=
        wellFormed_of_writesParts hGroup (fun t ht => hTokens t (by simp [ht])) h
      obtain ⟨hQualifier, hLocal⟩ :=
        wellFormed_of_writesName (fun t ht => hTokens t (by simp [ht])) hName
      have hFirst : (Parser.Simple.ofName name).isWellFormed = true := by
        obtain ⟨qualifier, _ | text⟩ := name
        · exact hQualifier
        · simp [Parser.Simple.ofName, Simple.isWellFormed, hQualifier, hLocal text rfl]
      rw [Compound.isWellFormed, partsWellFormed, hFirst, hParts, List.tail_cons, hNames]
      rfl
  | unnamed h hSome =>
      obtain ⟨hParts, hNames⟩ := wellFormed_of_writesParts hGroup hTokens h
      obtain ⟨part, parts, rfl⟩ := List.exists_cons_of_ne_nil hSome
      rw [List.any_cons, Bool.or_eq_false_iff] at hNames
      rw [Compound.isWellFormed, hParts, List.tail_cons, hNames.2]
      rfl

theorem wellFormed_of_writesComplex {ts : List Token} {complex : Complex}
    (hTokens : ∀ t ∈ ts, t.Recognized) (h : WritesComplex group ts complex) :
    complex.isWellFormed = true := by
  induction h with
  | single h => exact wellFormed_of_writesCompound hGroup hTokens h
  | joined _ _ hRight ih =>
      have hLeft := ih fun t ht => hTokens t (by simp [ht])
      have hCompound :=
        wellFormed_of_writesCompound hGroup (fun t ht => hTokens t (by simp [ht])) hRight
      rw [Complex.isWellFormed, hLeft, hCompound]
      rfl

theorem wellFormed_of_writesAlternatives {ts : List Token} {list : SelectorList}
    (hTokens : ∀ t ∈ ts, t.Recognized) (h : WritesAlternatives group ts list) :
    listWellFormed list = true := by
  have hAll : list ≠ [] ∧ allWellFormed list = true := by
    induction h with
    | one _ h _ =>
        have hComplex :=
          wellFormed_of_writesComplex hGroup (fun t ht => hTokens t (by simp [ht])) h
        exact ⟨by simp, by simp [allWellFormed, hComplex]⟩
    | more _ h _ _ _ ih =>
        have hComplex :=
          wellFormed_of_writesComplex hGroup (fun t ht => hTokens t (by simp [ht])) h
        have hRest := (ih fun t ht => hTokens t (by simp [ht])).2
        exact ⟨by simp, by simp [allWellFormed, hComplex, hRest]⟩
  simpa [listWellFormed] using hAll

end

/-- What parentheses hold is well formed, by induction on how deep it nests. -/
theorem wellFormed_of_writesGroup (n : Nat) {ts : List Token} {list : SelectorList}
    (hTokens : ∀ t ∈ ts, t.Recognized) (h : writesGroup n ts list) :
    listWellFormed list = true := by
  induction n generalizing ts list with
  | zero => cases h
  | succ n ih =>
      exact wellFormed_of_writesAlternatives (fun _ _ hTokens h => ih hTokens h) hTokens h

/-- Selectors that are written by tokens of a scan are well formed. -/
theorem wellFormed_of_writesList {ts : List Token} {list : SelectorList}
    (hTokens : ∀ t ∈ ts, t.Recognized) (h : WritesList ts list) :
    listWellFormed list = true :=
  wellFormed_of_writesGroup (listNesting list + 1) hTokens
    (writesGroup_iff.mpr ⟨h, Nat.lt_succ_self _⟩)

end Grammar

/-- What the parser returns is well formed. -/
theorem Selector.listWellFormed_of_parse {source : Text} {limit : Nat} {list : SelectorList}
    (h : parse source limit = .ok list) : listWellFormed list = true := by
  obtain ⟨tokens, hTokens, hWritten, -⟩ := parse_eq_ok_iff.mp h
  exact Grammar.wellFormed_of_writesList
    (TokenReader.visible_of_tokenize hTokens).2.recognized hWritten

end SelectorXPath
