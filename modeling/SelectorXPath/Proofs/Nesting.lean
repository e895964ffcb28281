/-! Words over an alphabet in which some letters open and others close. A word is nested if every
opening letter is followed by the letter that closes it, with a nested word between the two. A
letter that closes may also stand for itself where the alphabet says so, directly inside of an
opening letter that it is no match for. -/

namespace SelectorXPath

/-- What the letters of an alphabet open and close. -/
structure Marks (α : Type) where
  /-- The letter that closes what this one opens. -/
  closing? : α → Option α
  isClosing : α → Bool
  /-- Whether the second letter closes nothing directly inside of the first. -/
  isStray : α → α → Bool

namespace Marks

variable {α : Type} {m : Marks α} {outer : Option α} {a c : α} {as bs : List α} {opened : List α}

def isPlain (m : Marks α) (a : α) : Bool :=
  (m.closing? a).isNone && !m.isClosing a

/-- A nested word, directly inside of `outer` or outside of everything. -/
inductive Nested (m : Marks α) : Option α → List α → Prop where
  | nil {outer : Option α} : Nested m outer []
  | plain {outer : Option α} {a : α} {as : List α} (h : m.isPlain a = true)
      (rest : Nested m outer as) : Nested m outer (a :: as)
  | stray {o a : α} {as : List α} (h : m.isStray o a = true)
      (rest : Nested m (some o) as) : Nested m (some o) (a :: as)
  | enclosed {outer : Option α} {o c : α} {as bs : List α} (h : m.closing? o = some c)
      (inside : Nested m (some o) as) (rest : Nested m outer bs) :
      Nested m outer (o :: (as ++ c :: bs))

/-- Nested words stand side by side. -/
theorem Nested.append (h : m.Nested outer as) (h' : m.Nested outer bs) :
    m.Nested outer (as ++ bs) := by
  induction h with
  | nil => exact h'
  | plain hPlain _ ih => exact .plain hPlain (ih h')
  | stray hStray _ ih => exact .stray hStray (ih h')
  | enclosed hClosing hInside _ _ ih =>
      rw [List.cons_append, List.append_assoc, List.cons_append]
      exact .enclosed hClosing hInside (ih h')

/-- The beginning of a nested word. The letters that are still open, from the inside out, have only
nested words behind them. -/
inductive Unclosed (m : Marks α) : List α → List α → Prop where
  | nil {as : List α} (h : m.Nested none as) : Unclosed m [] as
  | inside {o : α} {opened as bs : List α} (h : Unclosed m opened as)
      (inner : m.Nested (some o) bs) : Unclosed m (o :: opened) (as ++ o :: bs)

/-- A nested word leaves open what was open in front of it. -/
theorem Unclosed.append (h : m.Unclosed opened as) (h' : m.Nested opened.head? bs) :
    m.Unclosed opened (as ++ bs) := by
  cases h with
  | nil hAll => exact .nil (hAll.append h')
  | inside hOuter hInner =>
      rw [List.append_assoc, List.cons_append]
      exact .inside hOuter (hInner.append h')

/-- A letter that opens is open behind itself. -/
theorem Unclosed.push (h : m.Unclosed opened as) : m.Unclosed (a :: opened) (as ++ [a]) :=
  .inside h .nil

/-- The innermost letter that is open is closed by its match. -/
theorem Unclosed.pop (h : m.Unclosed (a :: opened) as) (hClosing : m.closing? a = some c) :
    m.Unclosed opened (as ++ [c]) := by
  cases h with
  | inside hOuter hInner =>
      rw [List.append_assoc, List.cons_append]
      apply hOuter.append
      exact .enclosed hClosing hInner .nil

/-- A beginning that leaves nothing open is a nested word. -/
theorem Unclosed.nested (h : m.Unclosed [] as) : m.Nested none as := by
  cases h with
  | nil hAll => exact hAll

end Marks

end SelectorXPath
