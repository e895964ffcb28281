import SelectorXPath.Proofs.Selector.Acceptance

/-! The compounds of a list, in the order of the source: each of them in front of those that its
groups hold. Among the tokens that the list is written with, every compound is written by a run of
them, and the run of the next compound begins farther to the right. A compound is located at the
first token of its run, so the offsets of the compounds are those of some tokens, in the same order.
-/

namespace SelectorXPath

mutual

/-- The compounds that the groups of a simple selector hold. -/
def simpleCompounds : Simple → List Compound
  | .not list => listCompounds list
  | .has list => listCompounds list
  | _ => []

def partsCompounds : List Simple → List Compound
  | [] => []
  | part :: parts => simpleCompounds part ++ partsCompounds parts

/-- A compound, and those that its groups hold. -/
def compoundCompounds : Compound → List Compound
  | ⟨offset, parts⟩ => ⟨offset, parts⟩ :: partsCompounds parts

def complexCompounds : Complex → List Compound
  | .single compound => compoundCompounds compound
  | .joined left _ right => complexCompounds left ++ compoundCompounds right

def listCompounds : List Complex → List Compound
  | [] => []
  | selector :: list => complexCompounds selector ++ listCompounds list

end

namespace Grammar

/-- The compounds are located at some of the tokens, in the same order. -/
def LocatedIn (compounds : List Compound) (ts : List Token) : Prop :=
  (compounds.map Compound.offset).Sublist (ts.map Token.offset)

/-- From left to right, the compounds are written by runs of the tokens, each with a first token of
its own. A run may reach over those of the compounds that its groups hold. -/
inductive FoundIn (written : List Token → Compound → Prop) : List Compound → List Token → Prop where
  | nil {ts : List Token} : FoundIn written [] ts
  | skip {t : Token} {ts : List Token} {compounds : List Compound}
      (rest : FoundIn written compounds ts) : FoundIn written compounds (t :: ts)
  | here {t : Token} {run ts : List Token} {compound : Compound} {compounds : List Compound}
      (hRun : run <+: ts) (h : written (t :: run) compound)
      (rest : FoundIn written compounds ts) : FoundIn written (compound :: compounds) (t :: ts)

section

variable {written : List Token → Compound → Prop} {compounds more : List Compound}
  {ts us : List Token} {compound : Compound}

/-- More tokens in front do no harm. -/
theorem FoundIn.behind (h : FoundIn written compounds us) (ts : List Token) :
    FoundIn written compounds (ts ++ us) := by
  induction ts with
  | nil => exact h
  | cons t ts ih => exact .skip ih

/-- Compounds that are found in the one half and in the other are found in order. -/
theorem FoundIn.append (h : FoundIn written compounds ts) (h' : FoundIn written more us) :
    FoundIn written (compounds ++ more) (ts ++ us) := by
  induction h with
  | nil => exact h'.behind _
  | skip _ ih => exact .skip ih
  | here hRun hWritten _ ih => exact .here (hRun.trans (List.prefix_append _ us)) hWritten ih

theorem FoundIn.front (h : FoundIn written compounds ts) (us : List Token) :
    FoundIn written compounds (ts ++ us) := by
  have hNone : FoundIn written [] us := .nil
  have hAppend := h.append hNone
  rwa [List.append_nil] at hAppend

/-- What is found behind the first token is found among all of them. -/
theorem FoundIn.of_tail (h : FoundIn written compounds ts.tail) : FoundIn written compounds ts := by
  cases ts with
  | nil => exact h
  | cons t ts => exact .skip h

/-- Every compound is written by a run of the tokens. -/
theorem FoundIn.exists_run (h : FoundIn written compounds ts) (hMem : compound ∈ compounds) :
    ∃ t run, t :: run <:+: ts ∧ written (t :: run) compound := by
  induction h with
  | nil => cases hMem
  | @skip t _ _ _ ih =>
      obtain ⟨t', run, hRun, hWritten⟩ := ih hMem
      exact ⟨t', run, List.infix_cons hRun, hWritten⟩
  | @here t run _ _ _ hRun hWritten _ ih =>
      rcases List.mem_cons.mp hMem with rfl | hMem
      · exact ⟨t, run, (List.cons_prefix_cons.mpr ⟨rfl, hRun⟩).isInfix, hWritten⟩
      · obtain ⟨t', run', hRun, hWritten'⟩ := ih hMem
        exact ⟨t', run', List.infix_cons hRun, hWritten'⟩

/-- Runs that begin one behind the other begin at offsets in the same order. -/
theorem FoundIn.locatedIn
    (hWritten : ∀ t run compound, written (t :: run) compound → compound.offset = t.offset)
    (h : FoundIn written compounds ts) : LocatedIn compounds ts := by
  induction h with
  | nil => exact List.nil_sublist _
  | skip _ ih => exact List.Sublist.cons _ ih
  | here _ h _ ih =>
      rw [LocatedIn, List.map_cons, List.map_cons, hWritten _ _ _ h]
      exact List.Sublist.cons_cons _ ih

/-- Each of the compounds has a token that it is located at. -/
theorem LocatedIn.exists_token (h : LocatedIn compounds ts) (hCompound : compound ∈ compounds) :
    ∃ t ∈ ts, t.offset = compound.offset :=
  List.mem_map.mp (h.subset (List.mem_map_of_mem hCompound))

end

section

variable {group : List Token → SelectorList → Prop} {written : List Token → Compound → Prop}
  {ts : List Token}
  (hGroup : ∀ ts list, group ts list → FoundIn written (listCompounds list) ts)
  (hWritten : ∀ ts compound, WritesCompound group ts compound → written ts compound)

include hGroup

/-- What a part holds is found behind its first token. -/
theorem foundIn_of_writesPart {simple : Simple} (h : WritesPart group ts simple) :
    ∃ t rest, ts = t :: rest ∧ FoundIn written (simpleCompounds simple) rest := by
  cases h with
  | className | idName | pseudo | nth | contains => exact ⟨_, _, rfl, .nil⟩
  | attributeTest h =>
      cases h with
      | intro => exact ⟨_, _, rfl, .nil⟩
  | @not t start stop ts list _ h | @has t start stop ts list _ h =>
      exact ⟨t, _, rfl, .skip ((hGroup ts list h).front [stop])⟩

/-- The groups of a part stand behind the token that begins it. -/
theorem foundIn_of_writesParts {simples : List Simple} (h : WritesParts group ts simples) :
    FoundIn written (partsCompounds simples) ts.tail := by
  induction h with
  | nil => exact .nil
  | cons h _ ih =>
      obtain ⟨t, rest, rfl, hPart⟩ := foundIn_of_writesPart hGroup h
      exact hPart.append ih.of_tail

include hWritten

/-- The run of a compound comes first, and those of the compounds inside of it begin behind its
first token. -/
theorem foundIn_of_writesCompound {compound : Compound}
    (h : WritesCompound group ts compound) : FoundIn written (compoundCompounds compound) ts := by
  have hRun := hWritten ts compound h
  cases h with
  | @named ts more name _ hName h =>
      have hNone : simpleCompounds (Parser.Simple.ofName name) = [] := by
        obtain ⟨qualifier, _ | name⟩ := name <;> rfl
      obtain ⟨t, rest, rfl⟩ := List.exists_cons_of_ne_nil (Parser.writesName_ne_nil hName)
      have hParts := (foundIn_of_writesParts hGroup h).of_tail.behind rest
      rw [compoundCompounds, partsCompounds, hNone]
      exact .here List.prefix_rfl hRun hParts
  | unnamed h hSome =>
      obtain ⟨t, rest, rfl⟩ := List.exists_cons_of_ne_nil (Parser.writesParts_ne_nil h hSome)
      exact .here List.prefix_rfl hRun (foundIn_of_writesParts hGroup h)

/-- The compounds of a chain are written one behind the other. -/
theorem foundIn_of_writesComplex {selector : Complex} (h : WritesComplex group ts selector) :
    FoundIn written (complexCompounds selector) ts := by
  induction h with
  | single h => exact foundIn_of_writesCompound hGroup hWritten h
  | @joined ls ms rs _ _ _ _ _ hRight ih =>
      exact ih.append ((foundIn_of_writesCompound hGroup hWritten hRight).behind ms)

theorem foundIn_of_writesAlternatives {list : SelectorList}
    (h : WritesAlternatives group ts list) : FoundIn written (listCompounds list) ts := by
  induction h with
  | @one before ts after _ _ h _ =>
      have hSelector := foundIn_of_writesComplex hGroup hWritten h
      rw [listCompounds, listCompounds, List.append_nil]
      exact (hSelector.behind before).front after
  | @more before ts after rest comma _ _ _ h _ _ _ ih =>
      have hSelector := foundIn_of_writesComplex hGroup hWritten h
      exact ((hSelector.behind before).front after).append (.skip ih)

end

/-- The compounds of a list are written, one after the other, by tokens of the list. -/
theorem foundIn_of_writesGroup (allowance : Nat) {ts : List Token} {list : SelectorList}
    (h : writesGroup allowance ts list) :
    FoundIn (WritesCompound WritesList) (listCompounds list) ts := by
  induction allowance generalizing ts list with
  | zero => cases h
  | succ allowance ih =>
      refine foundIn_of_writesAlternatives (fun _ _ => ih) (fun ts compound hCompound => ?_) h
      have hGroup : writesGroup allowance =
          fun ts list => WritesList ts list ∧ listNesting list < allowance := by
        funext ts list
        exact propext writesGroup_iff
      rw [hGroup] at hCompound
      exact (writesCompound_below_iff.mp hCompound).1

/-- All compounds of a list are found in its tokens, at any depth. -/
theorem foundIn_of_writesList {ts : List Token} {list : SelectorList} (h : WritesList ts list) :
    FoundIn (WritesCompound WritesList) (listCompounds list) ts :=
  foundIn_of_writesGroup _ (writesGroup_iff.mpr ⟨h, Nat.lt_succ_self _⟩)

/-- A compound is located at the first of its tokens. -/
theorem offset_of_writesCompound {group : List Token → SelectorList → Prop} {ts : List Token}
    {compound : Compound} (h : WritesCompound group ts compound) :
    compound.offset = offsetOf ts := by
  cases h with
  | named hName _ =>
      obtain ⟨t, rest, rfl⟩ := List.exists_cons_of_ne_nil (Parser.writesName_ne_nil hName)
      rfl
  | unnamed => rfl

/-- The compounds of a list are located at tokens of the list. -/
theorem locatedIn_of_writesList {ts : List Token} {list : SelectorList}
    (h : WritesList ts list) : LocatedIn (listCompounds list) ts :=
  (foundIn_of_writesList h).locatedIn fun _ _ _ => offset_of_writesCompound

end Grammar

end SelectorXPath
