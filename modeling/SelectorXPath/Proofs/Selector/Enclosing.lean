import SelectorXPath.Proofs.Selector.Composition

/-! The groups around a token, read off the tokens in front of it. A parenthesis opens a group if it
stands behind the name of a pseudo-class that holds selectors. The tokens that a part of a selector
is written with leave the parentheses around them as they are, and what they hold stands inside of
no more groups than the part nests. -/

namespace SelectorXPath

/-- Whether the token names a pseudo-class that holds selectors. -/
def Token.namesGroup (t : Token) : Bool :=
  t.kind = .pseudoClass && (Parser.pseudoName t = FunctionalClass.not.name ||
    Parser.pseudoName t = FunctionalClass.has.name)

/-- What stands around a place between tokens. -/
structure Enclosure where
  /-- The parentheses that are open, from the inside out, and whether each opens a group. -/
  opened : List Bool
  /-- Whether the token in front names a group. -/
  named : Bool

namespace Enclosure

/-- A place that no tokens stand in front of. -/
def outside : Enclosure :=
  ⟨[], false⟩

/-- How many groups the place stands inside of. -/
def groups (around : Enclosure) : Nat :=
  around.opened.count true

def step (around : Enclosure) (t : Token) : Enclosure :=
  match t.kind with
  | .parenthesesStart => ⟨around.named :: around.opened, false⟩
  | .parenthesesEnd => ⟨around.opened.tail, false⟩
  | _ => ⟨around.opened, t.namesGroup⟩

def behind (around : Enclosure) (ts : List Token) : Enclosure :=
  ts.foldl step around

/-- The first token, in the order in which they are written, that names a group and stands inside
of `limit` groups. -/
def firstDeep? (limit : Nat) : Enclosure → List Token → Option Token
  | _, [] => none
  | around, t :: ts =>
    if t.namesGroup ∧ limit ≤ around.groups then some t else firstDeep? limit (around.step t) ts

section

variable {limit : Nat} {around : Enclosure} {t start stop : Token} {ts us : List Token}

theorem behind_cons : around.behind (t :: ts) = (around.step t).behind ts :=
  rfl

/-- A place is found token by token. -/
theorem behind_append : around.behind (ts ++ us) = (around.behind ts).behind us :=
  List.foldl_append

theorem firstDeep?_cons_of_not (h : ¬(t.namesGroup ∧ limit ≤ around.groups)) :
    firstDeep? limit around (t :: ts) = firstDeep? limit (around.step t) ts :=
  if_neg h

theorem namesGroup_of_kind (h : t.kind ≠ .pseudoClass) : t.namesGroup = false := by
  simp [Token.namesGroup, h]

/-- Where the first tokens go nowhere too deep, the search goes on behind them. -/
theorem firstDeep?_append_of_none (h : firstDeep? limit around ts = none) :
    firstDeep? limit around (ts ++ us) = firstDeep? limit (around.behind ts) us := by
  induction ts generalizing around with
  | nil => rfl
  | cons t ts ih =>
      rw [firstDeep?] at h
      split at h
      · cases h
      · rename_i hShallow
        rw [List.cons_append, firstDeep?_cons_of_not hShallow, ih h, behind_cons]

/-- A parenthesis remembers whether the name of a group stands in front of it. -/
theorem step_of_parenthesesStart (h : start.kind = .parenthesesStart) :
    around.step start = ⟨around.named :: around.opened, false⟩ := by
  rw [step, h]

/-- A closing parenthesis forgets the one that it closes. -/
theorem step_of_parenthesesEnd (h : stop.kind = .parenthesesEnd) :
    around.step stop = ⟨around.opened.tail, false⟩ := by
  rw [step, h]

/-- Only the name of a pseudo-class can stand too deep. -/
theorem firstDeep?_cons_of_kind (h : t.kind ≠ .pseudoClass) :
    firstDeep? limit around (t :: ts) = firstDeep? limit (around.step t) ts :=
  firstDeep?_cons_of_not (by simp [namesGroup_of_kind h])

/-- Only parentheses open and close. -/
theorem step_of_ne (hStart : t.kind ≠ .parenthesesStart) (hStop : t.kind ≠ .parenthesesEnd) :
    around.step t = ⟨around.opened, t.namesGroup⟩ := by
  unfold step
  cases hKind : t.kind with
  | parenthesesStart => exact absurd hKind hStart
  | parenthesesEnd => exact absurd hKind hStop
  | _ => rfl

/-- Behind the name of a pseudo-class and its opening parenthesis. -/
theorem behind_name (hKind : t.kind = .pseudoClass) (hStart : start.kind = .parenthesesStart) :
    (around.step t).step start = ⟨t.namesGroup :: around.opened, false⟩ := by
  rw [step_of_parenthesesStart hStart, step_of_ne (by simp [hKind]) (by simp [hKind])]

/-- Only the name of a group in front of a parenthesis makes the place one group deeper. -/
theorem groups_behind_name (hKind : t.kind = .pseudoClass)
    (hStart : start.kind = .parenthesesStart) :
    ((around.step t).step start).groups = around.groups + if t.namesGroup then 1 else 0 := by
  rw [behind_name hKind hStart, groups, groups, List.count_cons]
  cases t.namesGroup <;> rfl

end

end Enclosure

/-- Wherever they stand, the tokens leave the parentheses around them as they are, and no group of
theirs stands `allowance` groups deeper. -/
structure Settled (allowance : Nat) (ts : List Token) : Prop where
  opened : ∀ around : Enclosure, (around.behind ts).opened = around.opened
  shallow : ∀ (around : Enclosure) (limit : Nat), around.groups + allowance ≤ limit →
    Enclosure.firstDeep? limit around ts = none

section

open SelectorXPath.Enclosure

variable {allowance limit : Nat} {around : Enclosure} {t start stop : Token}
  {ts us : List Token}

/-- Behind settled tokens the place is as deep as in front of them. -/
theorem Settled.groups (h : Settled allowance ts) : (around.behind ts).groups = around.groups := by
  rw [Enclosure.groups, h.opened, Enclosure.groups]

theorem Settled.nil : Settled allowance [] :=
  ⟨fun _ => rfl, fun _ _ _ => rfl⟩

/-- Settled tokens stand side by side. -/
theorem Settled.append (h : Settled allowance ts) (h' : Settled allowance us) :
    Settled allowance (ts ++ us) := by
  constructor
  · intro around
    rw [behind_append, h'.opened, h.opened]
  · intro around limit hRoom
    rw [firstDeep?_append_of_none (h.shallow around limit hRoom)]
    exact h'.shallow _ limit (by rw [h.groups]; exact hRoom)

theorem Settled.cons (h : Settled allowance [t]) (h' : Settled allowance ts) :
    Settled allowance (t :: ts) :=
  h.append h'

/-- A token that names no group and is no parenthesis. -/
theorem settled_singleton (hStart : t.kind ≠ .parenthesesStart) (hStop : t.kind ≠ .parenthesesEnd)
    (hGroup : t.namesGroup = false) : Settled allowance [t] := by
  constructor
  · intro around
    rw [behind_cons, step_of_ne hStart hStop]
    rfl
  · intro around limit _
    rw [firstDeep?_cons_of_not (by simp [hGroup])]
    rfl

/-- A token that is no parenthesis and no name of a pseudo-class is settled by itself. -/
theorem settled_of_kind (hStart : t.kind ≠ .parenthesesStart) (hStop : t.kind ≠ .parenthesesEnd)
    (hName : t.kind ≠ .pseudoClass) : Settled allowance [t] :=
  settled_singleton hStart hStop (namesGroup_of_kind hName)

theorem settled_of_separator (h : t.kind = .separator) : Settled allowance [t] :=
  settled_of_kind (by simp [h]) (by simp [h]) (by simp [h])

/-- Parentheses behind the name of a pseudo-class. What they hold may stand one group deeper if it
is the name of a group. -/
theorem Settled.enclosed {inside : Nat} (h : Settled inside ts) (hKind : t.kind = .pseudoClass)
    (hStart : start.kind = .parenthesesStart) (hStop : stop.kind = .parenthesesEnd)
    (hRoom : inside + (if t.namesGroup then 1 else 0) ≤ allowance) :
    Settled allowance (t :: start :: (ts ++ [stop])) := by
  constructor
  · intro around
    rw [behind_cons, behind_cons, behind_append, behind_cons, step_of_parenthesesEnd hStop]
    change ((Enclosure.behind _ ts).opened).tail = _
    rw [h.opened, behind_name hKind hStart, List.tail_cons]
  · intro around limit hAround
    have hName : ¬(t.namesGroup ∧ limit ≤ around.groups) := by
      rintro ⟨hGroup, hDeep⟩
      rw [if_pos hGroup] at hRoom
      omega
    have hInside : ((around.step t).step start).groups + inside ≤ limit := by
      rw [groups_behind_name hKind hStart]
      omega
    rw [firstDeep?_cons_of_not hName, firstDeep?_cons_of_kind (by simp [hStart]),
      firstDeep?_append_of_none (h.shallow _ limit hInside),
      firstDeep?_cons_of_kind (by simp [hStop])]
    rfl

end

namespace Grammar

variable {allowance : Nat} {ts : List Token}

/-- Flat tokens are settled, however many they are. -/
theorem settled_of_flat (h : Flat ts) : Settled allowance ts := by
  induction ts with
  | nil => exact .nil
  | cons t ts ih =>
      have hFlat := h t List.mem_cons_self
      refine .cons (settled_of_kind ?_ ?_ ?_) (ih fun u hu => h u (List.mem_cons_of_mem t hu))
      all_goals
        intro hKind
        rw [hKind] at hFlat
        cases hFlat

/-- Two pseudo-classes hold selectors. -/
theorem namesGroup_iff {t : Token} (hKind : t.kind = .pseudoClass) :
    t.namesGroup = true ↔ Parser.pseudoName t = FunctionalClass.not.name ∨
      Parser.pseudoName t = FunctionalClass.has.name := by
  simp [Token.namesGroup, hKind]

/-- No name of another pseudo-class is that of a group. -/
theorem namesGroup_of_functional {t : Token} {functional : FunctionalClass}
    (hKind : t.kind = .pseudoClass) (hName : Parser.pseudoName t = functional.name) :
    t.namesGroup = true ↔ functional = .not ∨ functional = .has := by
  rw [namesGroup_iff hKind, hName]
  rcases functional with ⟨_ | _ | _ | _⟩ | _ | _ | _ <;> decide

theorem namesGroup_of_plain {t : Token} {pseudoClass : PseudoClass} (hKind : t.kind = .pseudoClass)
    (hName : Parser.pseudoName t = pseudoClass.name) : t.namesGroup = false := by
  rw [Bool.eq_false_iff, ne_eq, namesGroup_iff hKind, hName]
  cases pseudoClass <;> decide

/-- The parts of a selector are settled if its groups hold what is settled with one group less. -/
theorem settled_compositional {group : List Token → SelectorList → Prop}
    (hGroup : ∀ ts list, Scanned ts → group ts list →
      ∃ inside, inside + 1 ≤ allowance ∧ Settled inside ts) :
    Compositional group (Settled allowance) where
  append h h' := h.append h'
  flat := settled_of_flat
  plain hKind hName :=
    settled_singleton (by simp [hKind]) (by simp [hKind]) (namesGroup_of_plain hKind hName)
  argument hEnclosed hNot hHas h := by
    have hGroup := namesGroup_of_functional hEnclosed.kind hEnclosed.name
    have hOther := hGroup.not.mpr (not_or_intro hNot hHas)
    have hSettled : Settled 0 _ := settled_of_flat h
    exact hSettled.enclosed hEnclosed.kind hEnclosed.start hEnclosed.stop (by simp [hOther])
  group hEnclosed hFunctional hScanned h := by
    obtain ⟨inside, hRoom, hSettled⟩ := hGroup _ _ hScanned h
    exact hSettled.enclosed hEnclosed.kind hEnclosed.start hEnclosed.stop
      (by
        rwa [if_pos ((namesGroup_of_functional hEnclosed.kind hEnclosed.name).mpr hFunctional)])

/-- What parentheses hold that have at most `allowance` groups inside each other, themselves
/-- What holds `allowance` groups inside each other is settled, by induction on that number. -/
included, stands inside of no other group than these. -/
theorem settled_of_writesGroup (allowance : Nat) :
    Compositional (writesGroup allowance) (Settled allowance) := by
  induction allowance with
  | zero => exact settled_compositional fun _ _ _ h => h.elim
  | succ allowance ih =>
      refine settled_compositional fun ts list hScanned h => ?_
      exact ⟨allowance, Nat.le_refl _,
        ih.alternatives (fun _ hComma => settled_of_separator hComma) hScanned h⟩

end Grammar

end SelectorXPath
