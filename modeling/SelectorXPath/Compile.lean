import SelectorXPath.Selector.Parser
import SelectorXPath.Translate.Selector

/-!
# Compiling selectors

From the text of a selector to the text of an XPath expression.
-/

namespace SelectorXPath

def version : String := "0.1.0"

structure Options where
  scope : Scope := .descendants
  /-- How deep groups may nest. -/
  limit : Nat := Selector.defaultLimit
  deriving DecidableEq, Repr

/-- The XPath text of a selector. -/
def compile (source : Text) (r : Resolver) (options : Options) : Except SelectorError Text := do
  let list ← Selector.parse source options.limit
  Translate.listText r options.scope list

/-- Why a selector could not be compiled under bindings. -/
inductive BoundError where
  /-- One of the bindings is not allowed. -/
  | reserved (e : ReservedPrefix)
  | selector (e : SelectorError)
  deriving DecidableEq, Repr

def BoundError.message : BoundError → String
  | .reserved e => e.message
  | .selector e => e.message

/-- Compiles a selector under bindings in ascending order of their prefixes. A prefix that is bound
twice has its last namespace. -/
def compileBound (source : Text) (pairs : List (Text × Text)) : Except BoundError Text :=
  match Registry.ofPairs (Bindings.ofPairs pairs) with
  | .error e => .error (.reserved e)
  | .ok registry => (compile source registry.toResolver {}).mapError .selector

/-- The first fault of a selector that is compiled without bindings. A prefix that needs a binding
is no fault, and what follows it is not looked at. -/
def fault? (source : Text) : Option SelectorError :=
  match compile source Registry.empty.toResolver {} with
  | .ok _ => none
  | .error (.unboundPrefix _) => none
  | .error e => some e

end SelectorXPath
