import SelectorXPath.Proofs.Selector.Grammar
import SelectorXPath.Selector.Agreement

/-! Agreement is equality of what is left when every offset is forgotten. So it is an equivalence,
and whatever does not look at offsets cannot tell selectors apart that agree. -/

namespace SelectorXPath

mutual

/-- A simple selector without the offsets inside it. -/
def Simple.unplaced : Simple → Simple
  | .not list => .not (listUnplaced list)
  | .has list => .has (listUnplaced list)
  | simple => simple

def partsUnplaced : List Simple → List Simple
  | [] => []
  | part :: parts => part.unplaced :: partsUnplaced parts

def Compound.unplaced : Compound → Compound
  | ⟨_, parts⟩ => ⟨0, partsUnplaced parts⟩

def Complex.unplaced : Complex → Complex
  | .single compound => .single compound.unplaced
  | .joined left combinator right => .joined left.unplaced combinator right.unplaced

def listUnplaced : List Complex → List Complex
  | [] => []
  | selector :: list => selector.unplaced :: listUnplaced list

end

mutual

/-- Two simple selectors agree if they are the same apart from offsets. -/
theorem Simple.agrees_iff : ∀ simple simple' : Simple,
    simple.agrees simple' = true ↔ simple.unplaced = simple'.unplaced
  | .not list, simple' => by
      cases simple' <;> simp [Simple.agrees, Simple.unplaced, listsAgree_iff list]
  | .has list, simple' => by
      cases simple' <;> simp [Simple.agrees, Simple.unplaced, listsAgree_iff list]
  | .type .., simple' | .universal .., simple' | .class .., simple' | .id .., simple'
  | .attribute .., simple' | .pseudo .., simple' | .nth .., simple' | .contains .., simple' => by
      cases simple' <;> simp [Simple.agrees, Simple.unplaced]

theorem partsAgree_iff : ∀ parts parts' : List Simple,
    partsAgree parts parts' = true ↔ partsUnplaced parts = partsUnplaced parts'
  | [], parts' => by cases parts' <;> simp [partsAgree, partsUnplaced]
  | part :: parts, parts' => by
      cases parts' <;>
        simp [partsAgree, partsUnplaced, part.agrees_iff, partsAgree_iff parts]

/-- The offset of a compound is no part of what is compared. -/
theorem Compound.agrees_iff : ∀ compound compound' : Compound,
    compound.agrees compound' = true ↔ compound.unplaced = compound'.unplaced
  | ⟨_, parts⟩, ⟨_, parts'⟩ => by
      simp [Compound.agrees, Compound.unplaced, partsAgree_iff parts]

/-- Chains agree if their links do, combinators included. -/
theorem Complex.agrees_iff : ∀ complex complex' : Complex,
    complex.agrees complex' = true ↔ complex.unplaced = complex'.unplaced
  | .single compound, complex' => by
      cases complex' <;> simp [Complex.agrees, Complex.unplaced, compound.agrees_iff]
  | .joined left combinator right, complex' => by
      cases complex' <;>
        simp [Complex.agrees, Complex.unplaced, left.agrees_iff, right.agrees_iff]
      grind

/-- Two lists agree if nothing but the offsets tells them apart. -/
theorem listsAgree_iff : ∀ list list' : List Complex,
    listsAgree list list' = true ↔ listUnplaced list = listUnplaced list'
  | [], list' => by cases list' <;> simp [listsAgree, listUnplaced]
  | selector :: list, list' => by
      cases list' <;>
        simp [listsAgree, listUnplaced, selector.agrees_iff, listsAgree_iff list]

end

mutual

/-- Nesting has nothing to do with offsets. -/
theorem Simple.nesting_unplaced : ∀ simple : Simple, simple.unplaced.nesting = simple.nesting
  | .not list => by simp [Simple.unplaced, Simple.nesting, listNesting_unplaced list]
  | .has list => by simp [Simple.unplaced, Simple.nesting, listNesting_unplaced list]
  | .type .. | .universal .. | .class .. | .id .. | .attribute .. | .pseudo .. | .nth ..
  | .contains .. => rfl

theorem partsNesting_unplaced : ∀ parts : List Simple,
    partsNesting (partsUnplaced parts) = partsNesting parts
  | [] => rfl
  | part :: parts => by
      simp [partsUnplaced, partsNesting, part.nesting_unplaced, partsNesting_unplaced parts]

theorem Compound.nesting_unplaced : ∀ compound : Compound,
    compound.unplaced.nesting = compound.nesting
  | ⟨_, parts⟩ => partsNesting_unplaced parts

theorem Complex.nesting_unplaced : ∀ complex : Complex,
    complex.unplaced.nesting = complex.nesting
  | .single compound => compound.nesting_unplaced
  | .joined left _ right => by
      simp [Complex.unplaced, Complex.nesting, left.nesting_unplaced, right.nesting_unplaced]

theorem listNesting_unplaced : ∀ list : List Complex,
    listNesting (listUnplaced list) = listNesting list
  | [] => rfl
  | selector :: list => by
      simp [listUnplaced, listNesting, selector.nesting_unplaced, listNesting_unplaced list]

end

/-- Lists that agree nest to the same depth, so that one of them is within a limit if the other
is. -/
theorem listNesting_eq_of_agree {list list' : SelectorList} (h : listsAgree list list' = true) :
    listNesting list = listNesting list' := by
  rw [← listNesting_unplaced list, (listsAgree_iff list list').mp h, listNesting_unplaced]

end SelectorXPath
