import SelectorXPath.Text.Basic

/-! Documents as trees. A node is known by its address, the positions that lead to it, with the
innermost in front: the address of a child is one position in front of that of its parent, and the
address of the document itself is empty. Namespace nodes are left out. Nothing below an element is
found from them, and no axis that selectors use leads to them. -/

namespace SelectorXPath

/-- The name of an element or of an attribute. A name without namespace has the empty one. -/
structure NodeName where
  /-- The name as it is written, with its prefix. -/
  written : Text
  localPart : Text
  uri : Text
  deriving DecidableEq, Repr

structure Attribute where
  name : NodeName
  value : Text
  deriving DecidableEq, Repr

inductive Tree where
  | element (name : NodeName) (attributes : List Attribute) (children : List Tree)
  | text (content : Text)
  | comment (content : Text)
  | instruction (target content : Text)

structure Document where
  content : List Tree

/-- Positions among siblings, from the inside out. -/
abbrev Address := List Nat

inductive Node where
  | tree (address : Address)
  | attribute (owner : Address) (index : Nat)
  deriving DecidableEq, Repr

namespace Tree

def children : Tree → List Tree
  | .element _ _ children => children
  | _ => []

def isElement : Tree → Bool
  | .element .. => true
  | _ => false

mutual

def stringValue : Tree → Text
  | .element _ _ children => innerText children
  | .text content => content
  | .comment content => content
  | .instruction _ content => content

def innerText : List Tree → Text
  | [] => []
  | .comment _ :: trees => innerText trees
  | .instruction .. :: trees => innerText trees
  | tree :: trees => tree.stringValue ++ innerText trees

end

mutual

/-- The addresses below a tree that has the address `p`, in the order of the document. -/
def innerAddresses (p : Address) : Tree → List Address
  | .element _ _ children => allAddresses p 0 children
  | _ => []

/-- The addresses of trees and of what lies below them. Their parent has the address `p`, and `i`
siblings stand in front. -/
def allAddresses (p : Address) (i : Nat) : List Tree → List Address
  | [] => []
  | tree :: trees => (i :: p) :: (tree.innerAddresses (i :: p) ++ allAddresses p (i + 1) trees)

end

end Tree

namespace Document

variable (d : Document)

def children : Address → List Tree
  | [] => d.content
  | i :: p =>
      match (children p)[i]? with
      | some tree => tree.children
      | none => []

/-- The tree at an address. There is none for the document itself. -/
def tree? : Address → Option Tree
  | [] => none
  | i :: p => (d.children p)[i]?

def HasElement (p : Address) : Prop :=
  ∃ tree, d.tree? p = some tree ∧ tree.isElement = true

def attributes (p : Address) : List Attribute :=
  match d.tree? p with
  | some (.element _ attributes _) => attributes
  | _ => []

def descendants (p : Address) : List Address :=
  Tree.allAddresses p 0 (d.children p)

/-- An address is gone through from the outside in, so that what lies below a node is a document of
its own. -/
theorem children_append (path p : Address) :
    d.children (path ++ p) = (⟨d.children p⟩ : Document).children path := by
  induction path with
  | nil => rfl
  | cons i path ih => rw [List.cons_append, children, children, ih]

/-- The tree at an address is found in two steps. -/
theorem tree?_append {path : Address} (p : Address) (h : path ≠ []) :
    d.tree? (path ++ p) = (⟨d.children p⟩ : Document).tree? path := by
  obtain ⟨i, path, rfl⟩ := List.exists_cons_of_ne_nil h
  rw [List.cons_append, tree?, tree?, children_append]

theorem children_nil (p : Address) : (⟨[]⟩ : Document).children p = [] := by
  induction p with
  | nil => rfl
  | cons i p ih =>
      rw [children, ih]
      rfl

theorem tree?_nil (p : Address) : (⟨[]⟩ : Document).tree? p = none := by
  cases p with
  | nil => rfl
  | cons i p =>
      rw [tree?, children_nil]
      rfl

/-- The outermost position chooses one of the trees, and the rest of the address leads on inside of
it. -/
theorem tree?_concat (trees : List Tree) (path : Address) (j : Nat) :
    (⟨trees⟩ : Document).tree? (path ++ [j]) =
      trees[j]?.bind fun tree =>
        if path = [] then some tree else (⟨tree.children⟩ : Document).tree? path := by
  by_cases hPath : path = []
  · subst hPath
    simp [tree?, children]
  · rw [tree?_append _ _ hPath, children]
    cases hTree : (⟨trees⟩ : Document).children [] with
    | nil =>
        obtain rfl : trees = [] := hTree
        simp [tree?_nil]
    | cons tree more =>
        obtain rfl : trees = tree :: more := hTree
        cases hChild : (tree :: more)[j]? with
        | none => simp [tree?_nil]
        | some child => simp [hPath]

end Document

mutual

/-- Below a tree lie the addresses that go on from its own and lead to a tree. -/
theorem Tree.mem_innerAddresses : ∀ (tree : Tree) (p q : Address),
    q ∈ tree.innerAddresses p ↔ ∃ path, path ≠ [] ∧ q = path ++ p ∧
      ((⟨tree.children⟩ : Document).tree? path).isSome = true
  | .element _ _ children, p, q => by
      rw [Tree.innerAddresses, Tree.mem_allAddresses children p q 0, Tree.children]
      constructor
      · rintro ⟨path, j, rfl, h⟩
        exact ⟨path ++ [j], by simp, by simp, h⟩
      · rintro ⟨path, hPath, rfl, h⟩
        refine ⟨path.dropLast, path.getLast hPath, ?_, ?_⟩
        · rw [Nat.zero_add, List.append_cons, List.dropLast_concat_getLast]
        · rwa [List.dropLast_concat_getLast]
  | .text _, p, q | .comment _, p, q | .instruction .., p, q => by
      simp [Tree.innerAddresses, Tree.children, Document.tree?_nil]

/-- The addresses of trees are the ways that lead to a tree, and nothing else. -/
theorem Tree.mem_allAddresses : ∀ (trees : List Tree) (p q : Address) (i : Nat),
    q ∈ Tree.allAddresses p i trees ↔ ∃ path j, q = path ++ (i + j) :: p ∧
      ((⟨trees⟩ : Document).tree? (path ++ [j])).isSome = true
  | [], p, q, i => by simp [Tree.allAddresses, Document.tree?_nil]
  | tree :: trees, p, q, i => by
      rw [Tree.allAddresses, List.mem_cons, List.mem_append,
        Tree.mem_innerAddresses tree (i :: p) q, Tree.mem_allAddresses trees p q (i + 1)]
      constructor
      · rintro (rfl | ⟨path, hPath, rfl, h⟩ | ⟨path, j, rfl, h⟩)
        · exact ⟨[], 0, rfl, rfl⟩
        · exact ⟨path, 0, rfl, by simp [Document.tree?_concat, hPath, h]⟩
        · refine ⟨path, j + 1, by rw [Nat.add_assoc, Nat.add_comm 1 j], ?_⟩
          rw [Document.tree?_concat] at h ⊢
          exact h
      · rintro ⟨path, j, rfl, h⟩
        rw [Document.tree?_concat] at h
        cases j with
        | zero =>
            by_cases hPath : path = []
            · exact Or.inl (by simp [hPath])
            · exact Or.inr (Or.inl ⟨path, hPath, rfl, by simpa [hPath] using h⟩)
        | succ j =>
            refine Or.inr (Or.inr ⟨path, j, by rw [Nat.add_assoc, Nat.add_comm 1 j], ?_⟩)
            rw [Document.tree?_concat]
            exact h

end

namespace Document

variable (d : Document)

/-- What lies below an address are the trees whose address has a part of its own in front. -/
theorem mem_descendants {p q : Address} :
    q ∈ d.descendants p ↔ (∃ path, path ≠ [] ∧ q = path ++ p) ∧ (d.tree? q).isSome = true := by
  rw [descendants, Tree.mem_allAddresses]
  constructor
  · rintro ⟨path, j, rfl, h⟩
    rw [← tree?_append d p (by simp)] at h
    exact ⟨⟨path ++ [j], by simp, by simp⟩, by simpa using h⟩
  · rintro ⟨⟨path, hPath, rfl⟩, h⟩
    rw [tree?_append d p hPath] at h
    refine ⟨path.dropLast, path.getLast hPath, ?_, ?_⟩
    · rw [Nat.zero_add, List.append_cons, List.dropLast_concat_getLast]
    · rwa [List.dropLast_concat_getLast]

end Document

end SelectorXPath
