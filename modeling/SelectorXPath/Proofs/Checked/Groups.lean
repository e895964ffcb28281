import SelectorXPath.Proofs.Checked.Stopping

/-!
# Where groups start

A list that is read at some token opens groups behind that token only, and so does a group with the
groups inside of it. Both are read in the same way if groups have no value at that token and in
front of it: where the groups have fewer values the list has fewer values, and it has its value all
the same.
-/

namespace SelectorXPath.Checked

open SelectorXPath.Text

/-- Where the first reading has a value, the second one has the same. -/
def Refines {α : Type} (m m' : Reading α) : Prop :=
  ∀ c result, m c = some result → m' c = some result

section

variable {α β : Type} {m m' : Reading α} {f f' : α → Reading β}

theorem Refines.refl (m : Reading α) : Refines m m :=
  fun _ _ h => h

/-- A reading that does more in either of two steps does more in both. -/
theorem Refines.bind (hFirst : Refines m m') (hNext : ∀ value, Refines (f value) (f' value)) :
    Refines (m >>= f) (m' >>= f') := by
  intro c result h
  rw [bind_eq] at h ⊢
  obtain ⟨⟨value, d⟩, hValue, hRest⟩ := Option.bind_eq_some_iff.mp h
  rw [hFirst c _ hValue]
  cases value with
  | ok value => exact hNext value d result hRest
  | error fault => exact hRest

theorem Refines.next (hNext : ∀ value, Refines (f value) (f' value)) :
    Refines (m >>= f) (m >>= f') :=
  (Refines.refl m).bind hNext

/-- Where only the first step differs, it is enough to compare that one. -/
theorem Refines.first (hFirst : Refines m m') : Refines (m >>= f) (m' >>= f) :=
  hFirst.bind fun value => .refl (f value)

end

section

variable {group group' : Token → Reading SelectorList} {tokens : List Token}
variable (h : ∀ token, Refines (group token) (group' token))

include h

theorem Refines.functional (token : Token) (name : Text) :
    Refines (functional group tokens token name) (functional group' tokens token name) := by
  rw [Checked.functional, Checked.functional]
  cases FunctionalClass.ofName? name with
  | none => exact .refl _
  | some functional =>
    cases functional with
    | nth counting => exact .refl _
    | not => exact (h token).first
    | has => exact (h token).first
    | contains => exact .refl _

theorem Refines.pseudo : Refines (pseudo group tokens) (pseudo group' tokens) := by
  refine .next fun token => .next fun name => .next fun next => ?_
  split
  · exact .functional h token _
  · exact .refl _

/-- A part asks for the group behind its name, and is read as far as that is. -/
theorem Refines.part : Refines (part group tokens) (part group' tokens) := by
  refine .next fun token => ?_
  cases token.kind with
  | pseudoClass => exact (Refines.pseudo h).first
  | _ => exact .refl _

theorem Refines.parts (turns : Nat) : Refines (parts group tokens turns) (parts group' tokens turns) := by
  induction turns with
  | zero => exact .refl _
  | succ turns ih =>
    refine (Refines.part h).bind fun found => ?_
    cases found with
    | some simple => exact ih.first
    | none => exact .refl _

theorem Refines.compound : Refines (compound group tokens) (compound group' tokens) :=
  .next fun _ => .next fun _ => (Refines.parts h tokens.length).first

theorem Refines.chain (turns : Nat) (left : Complex) :
    Refines (chain group tokens turns left) (chain group' tokens turns left) := by
  induction turns generalizing left with
  | zero => exact .refl _
  | succ turns ih =>
    refine .next fun combinator => ?_
    cases combinator with
    | none => exact .refl _
    | some combinator => exact (Refines.compound h).bind fun right => ih _

theorem Refines.alternative : Refines (alternative group tokens) (alternative group' tokens) :=
  .next fun _ => (Refines.compound h).bind fun first =>
    (Refines.chain h tokens.length (.single first)).first

/-- A list is refined turn by turn. -/
theorem Refines.list (close : Token.Kind) (turns : Nat) :
    Refines (list group tokens close turns) (list group' tokens close turns) := by
  induction turns with
  | zero => exact .refl _
  | succ turns ih =>
    refine (Refines.alternative h).bind fun selector => .next fun token => ?_
    split
    · exact .next fun _ => ih.first
    · exact .refl _

/-- A group is refined by refining those inside of it. -/
theorem Refines.nested (limit : DepthLimit) (token : Token) :
    Refines (nested limit tokens group token) (nested limit tokens group' token) := by
  refine .next fun depth => ?_
  split
  · exact .refl _
  · exact .next fun _ => .next fun _ => (Refines.list h .parenthesesEnd tokens.length).first

end

/-- Reads groups behind the index `start`, and has no value elsewhere. -/
def behind (start : Nat) (group : Token → Reading SelectorList) (token : Token) :
    Reading SelectorList := do
  let position ← look Cursor.position
  if start < position then group token else attempt none

section

variable {tokens : List Token} {limit depth least start : Nat} {c : Cursor}
variable {group : Token → Reading SelectorList}

/-- Groups that are read only from some index on are read as they are without that bound. -/
theorem behind_refines (start : Nat) (group : Token → Reading SelectorList) (token : Token) :
    Refines (behind start group token) (group token) := by
  intro c result h
  have hValue : (if start < c.position then group token else attempt none) c = some result := h
  split at hValue
  · exact hValue
  · cases hValue

/-- Groups that end from an index on still end if no others can be read. -/
theorem GroupsEnd.behind (h : GroupsEnd tokens limit depth start group) :
    GroupsEnd tokens limit depth start (behind start group) := by
  intro token c hStands
  refine .of_look ?_
  rw [if_pos (Nat.lt_of_succ_le hStands.least_le)]
  exact h token c hStands

/-- A list does not open a group at the token where it starts, or in front of it. -/
theorem list_behind (hMarked : Marked tokens) (hCuttable : Cuttable tokens)
    (h : Stands tokens limit depth least c) (hGroups : GroupsEnd tokens limit depth c.position group)
    (close : Token.Kind) :
    ∃ value, list group tokens close tokens.length c = some value ∧
      list (Checked.behind c.position group) tokens close tokens.length c = some value := by
  obtain ⟨path, result, d, hRun, -⟩ :=
    Ends.list hMarked hCuttable hGroups.behind close h.here (Nat.le_refl _)
  have hRefines : Refines (list (Checked.behind c.position group) tokens close tokens.length)
      (list group tokens close tokens.length) := .list (behind_refines c.position group) close _
  exact ⟨(result, d), hRefines c _ hRun.value_eq, hRun.value_eq⟩

/-- A group does not open others at the token where it starts, or in front of it. -/
theorem nested_behind {limit : DepthLimit} (hMarked : Marked tokens) (hCuttable : Cuttable tokens)
    (h : Stands tokens limit.value depth least c)
    (hGroups : GroupsEnd tokens limit.value (depth + 1) c.position group) (token : Token) :
    ∃ value, nested limit tokens group token c = some value ∧
      nested limit tokens (Checked.behind c.position group) token c = some value := by
  obtain ⟨path, result, d, hRun, -⟩ := Ends.nested hMarked hCuttable h hGroups.behind token
  have hRefines : Refines (nested limit tokens (Checked.behind c.position group) token)
      (nested limit tokens group token) := .nested (behind_refines c.position group) limit token
  exact ⟨(result, d), hRefines c _ hRun.value_eq, hRun.value_eq⟩

end

end SelectorXPath.Checked
