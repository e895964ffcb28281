import SelectorXPath.Text.Basic

/-!
# Positions of the form an+b

The argument of the `:nth-*` pseudo-classes: the positions `a * k + b` with `k = 0, 1, 2, …`,
counted from one. Both numbers fit into 32 bits with sign.
-/

namespace SelectorXPath

/-- The positions `a * k + b`. -/
structure AnPlusB where
  a : Int
  b : Int
  deriving DecidableEq, Repr

namespace AnPlusB

open SelectorXPath.Text

def inRange (n : Int) : Bool :=
  -2147483648 ≤ n && n ≤ 2147483647

def digitsValue (digits : Text) : Nat :=
  digits.foldl (fun n c => 10 * n + (c.toNat - '0'.toNat)) 0

/-- Reads ASCII digits, at least one, that write a number in range behind the given sign. -/
def readDigits? (negative : Bool) (digits : Text) : Option Int :=
  if digits ≠ [] ∧ digits.all isAsciiDigit then
    let value : Int := if negative then -(digitsValue digits) else digitsValue digits
    if inRange value then some value else none
  else none

def readInteger? : Text → Option Int
  | '+' :: digits => readDigits? false digits
  | '-' :: digits => readDigits? true digits
  | digits => readDigits? false digits

/-- Reads what stands in front of the `n`; the number one may be left out. -/
def readStep? : Text → Option Int
  | [] => some 1
  | ['+'] => some 1
  | ['-'] => some (-1)
  | t => readInteger? t

/-- Reads what stands behind the `n`: nothing, or a number with its sign. -/
def readOffset? : Text → Option Int
  | [] => some 0
  | '+' :: digits => readInteger? ('+' :: digits)
  | '-' :: digits => readInteger? ('-' :: digits)
  | _ => none

/-- The text without space of any kind and with ASCII letters in lower case. -/
def compact (t : Text) : Text :=
  lower (t.filter (fun c => !isSpace c))

def readCompact? (t : Text) : Option AnPlusB :=
  if t = "odd".toList then some ⟨2, 1⟩
  else if t = "even".toList then some ⟨2, 0⟩
  else
    match t.dropWhile (· ≠ 'n') with
    | [] => (readInteger? t).map (AnPlusB.mk 0)
    | _ :: offset => do
      let a ← readStep? (t.takeWhile (· ≠ 'n'))
      let b ← readOffset? offset
      return ⟨a, b⟩

/-- Reads `odd`, `even`, `b`, `an`, `an+b` and `an-b`. Space may stand anywhere, even inside a
number, and upper case is as good as lower case. -/
def read? (t : Text) : Option AnPlusB :=
  readCompact? (compact t)

def selects (n : AnPlusB) (position : Int) : Bool :=
  let distance := position - n.b
  if n.a = 0 then distance = 0
  else distance.tmod n.a = 0 && 0 ≤ distance.tdiv n.a

end AnPlusB

end SelectorXPath
