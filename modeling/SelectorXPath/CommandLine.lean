import SelectorXPath.Compile
import SelectorXPath.Text.Shown

/-!
# The command line

Three commands work on a selector: `compile` writes its XPath, `check` says whether it has one, and
`tokens` lists its tokens. `Invocation.read?` understands the arguments, and `Invocation.report`
says what a command writes and how it ends.

Arguments that cannot be understood are refused as a whole: nothing is done then.
-/

namespace SelectorXPath.CommandLine

open SelectorXPath.Text

inductive Command where
  | compile
  | check
  | tokens
  deriving DecidableEq, Repr

def Command.ofName? (name : Text) : Option Command :=
  if name = "compile".toList then some .compile
  else if name = "check".toList then some .check
  else if name = "tokens".toList then some .tokens
  else none

/-- The options that take a value. Only `compile` has any. -/
inductive Setter where
  | binding
  | defaultNamespace
  | scope
  | limit
  deriving DecidableEq, Repr

def Setter.ofName? (name : Text) : Option Setter :=
  if name = "ns".toList then some .binding
  else if name = "default-ns".toList then some .defaultNamespace
  else if name = "scope".toList then some .scope
  else if name = "max-depth".toList then some .limit
  else none

/-- What the arguments have said so far. -/
structure Draft where
  selector : Option Text := none
  /-- Bindings of prefixes, in the order in which they were given. -/
  bindings : List (Text × Text) := []
  defaultNamespace : Option Text := none
  scope : Option Scope := none
  limit : Option Nat := none
  deriving DecidableEq, Repr

def scope? (value : Text) : Option Scope :=
  if value = "descendants".toList then some .descendants
  else if value = "descendants-or-self".toList then some .descendantsOrSelf
  else if value = "children".toList then some .children
  else none

def largestLimit : Nat := 18446744073709551615

/-- Reads digits that write a number fit for a limit. -/
def natural? (digits : Text) : Option Nat :=
  let value := AnPlusB.digitsValue digits
  if digits ≠ [] ∧ digits.all isAsciiDigit ∧ value ≤ largestLimit then some value else none

/-- Reads a limit, which may have a plus sign. -/
def limit? : Text → Option Nat
  | '+' :: digits => natural? digits
  | digits => natural? digits

def splitAtEquals (t : Text) : Text × Option Text :=
  match t.dropWhile (· ≠ '=') with
  | [] => (t, none)
  | _ :: value => (t.takeWhile (· ≠ '='), some value)

namespace Draft

/-- Takes an argument that is no option. There is room for one. -/
def withSelector (d : Draft) (value : Text) : Option Draft :=
  match d.selector with
  | none => some { d with selector := some value }
  | some _ => none

/-- Gives an option its value. Only bindings may be given more than once. -/
def set (d : Draft) (value : Text) : Setter → Option Draft
  | .binding =>
    match splitAtEquals value with
    | (name, some uri) => some { d with bindings := d.bindings ++ [(name, uri)] }
    | (_, none) => none
  | .defaultNamespace =>
    match d.defaultNamespace with
    | none => some { d with defaultNamespace := some value }
    | some _ => none
  | .scope =>
    match d.scope, scope? value with
    | none, some scope => some { d with scope := some scope }
    | _, _ => none
  | .limit =>
    match d.limit, limit? value with
    | none, some limit => some { d with limit := some limit }
    | _, _ => none

def withSelectors (d : Draft) : List Text → Option Draft
  | [] => some d
  | argument :: rest => (d.withSelector argument).bind fun d => d.withSelectors rest

end Draft

/-- Arguments that ask for more to be logged: the long name, or a dash and any number of `v`. -/
def isVerbose : Text → Bool
  | '-' :: 'v' :: more => more.all (· = 'v')
  | argument => argument = "--verbose".toList

/-- Arguments that are read as options: a dash with anything behind it. -/
def looksLikeOption : Text → Bool
  | '-' :: _ :: _ => true
  | _ => false

/-- The option that an argument names, and its value if it is in the same argument. -/
def setter? (command : Command) : Text → Option (Setter × Option Text)
  | '-' :: '-' :: t =>
    match command, Setter.ofName? (splitAtEquals t).1 with
    | .compile, some setter => some (setter, (splitAtEquals t).2)
    | _, _ => none
  | _ => none

/-- Reads the arguments of a command. Two dashes end the options, and a value in an argument of its
own must not look like an option. -/
def readArguments (command : Command) (d : Draft) : List Text → Option Draft
  | [] => some d
  | argument :: rest =>
    if argument = ['-', '-'] then d.withSelectors rest
    else if isVerbose argument then readArguments command d rest
    else if looksLikeOption argument then
      match setter? command argument with
      | none => none
      | some (setter, some value) =>
        match d.set value setter with
        | some d => readArguments command d rest
        | none => none
      | some (setter, none) =>
        match rest with
        | [] => none
        | value :: rest =>
          if looksLikeOption value then none
          else
            match d.set value setter with
            | some d => readArguments command d rest
            | none => none
    else
      match d.withSelector argument with
      | some d => readArguments command d rest
      | none => none

inductive Invocation where
  | compile (selector : Text) (bindings : List (Text × Text)) (defaultNamespace : Option Text)
      (options : Options)
  | check (selector : Text)
  | tokens (selector : Text)
  deriving DecidableEq, Repr

namespace Invocation

def ofDraft? (command : Command) (d : Draft) : Option Invocation := do
  let selector ← d.selector
  match command with
  | .compile =>
    return .compile selector d.bindings d.defaultNamespace
      ⟨d.scope.getD .descendants, d.limit.getD Selector.defaultLimit⟩
  | .check => return .check selector
  | .tokens => return .tokens selector

/-- Reads all arguments, with the name of the command as the first that says anything. -/
def read? : List Text → Option Invocation
  | [] => none
  | argument :: rest =>
    if isVerbose argument then read? rest
    else
      match Command.ofName? argument with
      | none => none
      | some command => (readArguments command {} rest).bind (ofDraft? command)

end Invocation

/-- What a command writes, and the code it ends with. -/
structure Report where
  status : Nat
  output : Text
  errors : Text
  deriving DecidableEq, Repr

namespace Report

def line (s : String) : Text :=
  s.toList ++ ['\n']

def done (output errors : Text) : Report :=
  ⟨0, output, errors⟩

def failed (message : String) : Report :=
  ⟨1, [], line message⟩

def refused (e : SelectorError) : Report :=
  failed s!"Error: {e.message}"

def usage : Report :=
  ⟨2, [],
    line "usage: compile SELECTOR [--ns PREFIX=URI]... [--default-ns URI]" ++
    line "         [--scope descendants|descendants-or-self|children] [--max-depth N]" ++
    line "       check SELECTOR" ++
    line "       tokens SELECTOR"⟩

end Report

def padLeft (width : Nat) (t : Text) : Text :=
  List.replicate (width - t.length) ' ' ++ t

def padRight (width : Nat) (t : Text) : Text :=
  t ++ List.replicate (width - t.length) ' '

def tokenLine (token : Token) : Text :=
  padLeft 4 (Nat.toDigits 10 token.offset) ++ [' ', ' '] ++
    padRight 20 token.kind.label.toList ++ [' '] ++ token.text.shown ++ ['\n']

def registry (bindings : List (Text × Text)) (defaultNamespace : Option Text) :
    Except ReservedPrefix Registry :=
  (Registry.ofPairs bindings).map fun r =>
    match defaultNamespace with
    | some uri => r.setDefault uri
    | none => r

def Invocation.report : Invocation → Report
  | .compile selector bindings defaultNamespace options =>
    match registry bindings defaultNamespace with
    | .error e => .failed s!"Namespace error: {e.message}"
    | .ok r =>
      match SelectorXPath.compile selector r.toResolver options with
      | .ok xpath => .done (xpath ++ ['\n']) []
      | .error e => .refused e
  | .check selector =>
    match fault? selector with
    | none => .done [] ("OK: ".toList ++ selector ++ ['\n'])
    | some e => .refused e
  | .tokens selector =>
    match tokenize selector with
    | .ok list => .done (list.flatMap tokenLine) []
    | .error e => .refused (.lexical e)

/-- What the program does with its arguments. -/
def run (arguments : List Text) : Report :=
  match Invocation.read? arguments with
  | some invocation => invocation.report
  | none => .usage

end SelectorXPath.CommandLine
