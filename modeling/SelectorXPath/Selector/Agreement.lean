import SelectorXPath.Selector.Basic

/-!
# Selectors that agree

Where a compound stood in its source is no part of what it means. Two selectors agree when they
differ at most in the offsets of their compounds.
-/

namespace SelectorXPath

mutual

/-- Whether two simple selectors agree. -/
def Simple.agrees : Simple → Simple → Bool
  | .type name qualifier, .type name' qualifier' => name = name' && qualifier = qualifier'
  | .universal qualifier, .universal qualifier' => qualifier = qualifier'
  | .class name, .class name' => name = name'
  | .id name, .id name' => name = name'
  | .attribute test, .attribute test' => test = test'
  | .pseudo pseudoClass, .pseudo pseudoClass' => pseudoClass = pseudoClass'
  | .nth counting positions, .nth counting' positions' =>
    counting = counting' && positions = positions'
  | .not list, .not list' => listsAgree list list'
  | .has list, .has list' => listsAgree list list'
  | .contains text, .contains text' => text = text'
  | _, _ => false

def partsAgree : List Simple → List Simple → Bool
  | [], [] => true
  | part :: parts, part' :: parts' => part.agrees part' && partsAgree parts parts'
  | _, _ => false

/-- Whether two compounds agree, wherever they stood. -/
def Compound.agrees : Compound → Compound → Bool
  | ⟨_, parts⟩, ⟨_, parts'⟩ => partsAgree parts parts'

def Complex.agrees : Complex → Complex → Bool
  | .single compound, .single compound' => compound.agrees compound'
  | .joined left combinator right, .joined left' combinator' right' =>
    combinator = combinator' && right.agrees right' && left.agrees left'
  | _, _ => false

def listsAgree : List Complex → List Complex → Bool
  | [], [] => true
  | complex :: list, complex' :: list' => complex.agrees complex' && listsAgree list list'
  | _, _ => false

end

end SelectorXPath
