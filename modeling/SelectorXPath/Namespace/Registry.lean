import SelectorXPath.Error

/-!
# Namespaces

A selector names a namespace by a prefix, and a compilation has to know which namespace that is.
The `Resolver` is all that it asks for. The `Registry` is the usual resolver: it binds prefixes one
by one, holds the default namespace under a name of its own, and protects the one prefix that is
bound for all documents alike.
-/

namespace SelectorXPath

/-! ### Bindings in order

A finite map from text to text, kept as a list of pairs in ascending order of the keys, each key
once. Texts are ordered as their UTF-8 bytes are, which is the order of their characters by code. -/

/-- Keys with their values, in ascending order of the keys. -/
abbrev Bindings := List (Text × Text)

namespace Bindings

def find? (key : Text) : Bindings → Option Text
  | [] => none
  | (k, v) :: more => if k = key then some v else find? key more

def insert (key value : Text) : Bindings → Bindings
  | [] => [(key, value)]
  | (k, v) :: more =>
    if k = key then (key, value) :: more
    else if key < k then (key, value) :: (k, v) :: more
    else (k, v) :: insert key value more

def erase (key : Text) : Bindings → Bindings
  | [] => []
  | (k, v) :: more => if k = key then more else (k, v) :: erase key more

def ofPairs (pairs : List (Text × Text)) : Bindings :=
  pairs.foldl (fun bindings pair => insert pair.1 pair.2 bindings) []

@[simp] theorem find?_insert_self (key value : Text) (bindings : Bindings) :
    find? key (insert key value bindings) = some value := by
  induction bindings with
  | nil => simp [insert, find?]
  | cons pair more ih =>
    obtain ⟨k, v⟩ := pair
    simp only [insert]
    split
    · simp [find?]
    · rename_i hKey
      split <;> simp [find?, hKey, ih]

theorem find?_insert_of_ne {key other value : Text} (h : other ≠ key) (bindings : Bindings) :
    find? other (insert key value bindings) = find? other bindings := by
  induction bindings with
  | nil => simp [insert, find?, h.symm]
  | cons pair more ih =>
    obtain ⟨k, v⟩ := pair
    simp only [insert]
    split
    · rename_i hKey
      simp [find?, hKey, h.symm]
    · split
      · simp [find?, h.symm]
      · simp [find?, ih]

end Bindings

/-! ### Resolvers and the registry -/

/-- The prefix that no one can bind. -/
def xmlPrefix : Text := "xml".toList

def xmlNamespace : Text := "http://www.w3.org/XML/1998/namespace".toList

/-- The name under which the default namespace is bound. -/
def defaultPrefix : Text := "#default".toList

/-- What a compilation may ask about namespaces. -/
structure Resolver where
  /-- The namespace that is bound to a prefix. -/
  bound? : Text → Option Text
  /-- The namespace of type selectors without qualifier. -/
  default? : Option Text

namespace Resolver

/-- A resolver that knows the given bindings and nothing else. -/
def ofBindings (bindings : Bindings) : Resolver where
  bound? name := bindings.find? name
  default? := bindings.find? defaultPrefix

/-- The namespace of a prefix that a selector uses. What a resolver says about the protected prefix
is not heard. -/
def namespaceOf (r : Resolver) (name : Text) : Except SelectorError Text :=
  if name = xmlPrefix then .ok xmlNamespace
  else
    match r.bound? name with
    | some uri => .ok uri
    | none => .error (.unboundPrefix name)

end Resolver

structure ReservedPrefix where
  name : Text
  deriving DecidableEq, Repr

def ReservedPrefix.message (e : ReservedPrefix) : String :=
  s!"Can not register reserved namespace prefix \"{String.ofList e.name}\""

structure Registry where
  bindings : Bindings
  deriving DecidableEq, Repr

namespace Registry

def empty : Registry :=
  ⟨[]⟩

/-- The name under which a prefix is bound. No prefix at all means the default namespace. -/
def key (name : Text) : Text :=
  if name = [] then defaultPrefix else name

def isReserved (name : Text) : Bool :=
  name = xmlPrefix

def register (name uri : Text) (r : Registry) : Except ReservedPrefix Registry :=
  if isReserved (key name) then .error ⟨key name⟩
  else .ok ⟨r.bindings.insert (key name) uri⟩

/-- Binds one pair after the other, up to the first that cannot be bound. -/
def registerAll (r : Registry) : List (Text × Text) → Except ReservedPrefix Registry
  | [] => .ok r
  | (name, uri) :: pairs =>
    match r.register name uri with
    | .ok r => r.registerAll pairs
    | .error e => .error e

def ofPairs (pairs : List (Text × Text)) : Except ReservedPrefix Registry :=
  empty.registerAll pairs

def setDefault (uri : Text) (r : Registry) : Registry :=
  ⟨r.bindings.insert defaultPrefix uri⟩

/-- The namespace that is bound to a prefix; the protected one is not bound here. -/
def find? (name : Text) (r : Registry) : Option Text :=
  r.bindings.find? (key name)

def contains (name : Text) (r : Registry) : Bool :=
  (r.find? name).isSome

def remove (name : Text) (r : Registry) : Registry :=
  ⟨r.bindings.erase (key name)⟩

/-- Takes a binding out, and tells the namespace. -/
def take (name : Text) (r : Registry) : Option Text × Registry :=
  (r.find? name, r.remove name)

def toList (r : Registry) : List (Text × Text) :=
  r.bindings

def size (r : Registry) : Nat :=
  r.bindings.length

def isEmpty (r : Registry) : Bool :=
  r.bindings.isEmpty

/-- The namespace that a prefix stands for: the fixed one of the protected prefix, no namespace for
the default as long as it is not bound. -/
def resolve (name : Text) (r : Registry) : Except SelectorError Text :=
  if isReserved name then .ok xmlNamespace
  else
    match r.find? name with
    | some uri => .ok uri
    | none => if key name = defaultPrefix then .ok [] else .error (.unboundPrefix (key name))

def toResolver (r : Registry) : Resolver where
  bound? name := (r.resolve name).toOption
  default? := r.bindings.find? defaultPrefix

end Registry

end SelectorXPath
