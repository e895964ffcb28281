import SelectorXPath.Proofs.Errors
import SelectorXPath.Proofs.Translate.Prefixes

/-! Which fault of a list is reported. A simple selector is at fault by itself, by the name that is
written in it or by the type that its compound lacks; that translation looks up the type of a
compound once more for each question adds no fault, since the type selector stands in front of the
questions. So a list has no translation exactly if one of its simple selectors is at fault, and what
is reported is the first of them in the order of the source. -/

namespace SelectorXPath.Translate

variable {r : Resolver}

/-- What is wrong with a simple selector by itself: it is written with a prefix that is bound to
nothing, or it asks for the type of a compound that does not begin with a type selector. Neither the
value of an attribute nor the numbers of a position have to do with it. -/
inductive Fault (r : Resolver) (around : Surroundings) : Simple → SelectorError → Prop where
  | unbound {simple : Simple} {key : Text} (hQualifier : simple.qualifier? = some (.named key))
      (hOther : key ≠ xmlPrefix) (hUnbound : r.bound? key = none) :
      Fault r around simple (.unboundPrefix key)
  | untyped {simple : Simple} {asking : Text} (hAsking : asking? simple = some asking)
      (hType : around.type? = none) :
      Fault r around simple (.grammatical
        ⟨around.offset, .supported (asking ++ " without a type selector".toList)⟩)

def Occurrence.ownFault? (r : Resolver) (o : Occurrence) : Option SelectorError :=
  o.lack?.or (o.simple.qualifier?.bind (qualifierFault? r))

/-- The fault of the type selector that a compound begins with. -/
def typeFault? (r : Resolver) (around : Surroundings) : Option SelectorError :=
  around.type?.bind fun type => qualifierFault? r type.2

/-- The only fault of a qualifier is a prefix without namespace. The protected prefix always has
one. -/
theorem qualifierFault?_eq_some_iff {qualifier : Qualifier} {e : SelectorError} :
    qualifierFault? r qualifier = some e ↔ ∃ key, qualifier = .named key ∧ key ≠ xmlPrefix ∧
      r.bound? key = none ∧ e = .unboundPrefix key := by
  cases qualifier with
  | named key =>
      rw [qualifierFault?, Resolver.namespaceOf]
      by_cases hProtected : key = xmlPrefix
      · simp [hProtected, error?]
      · cases hBound : r.bound? key with
        | none => simp [hProtected, hBound, error?, eq_comm]
        | some uri => simp [hProtected, hBound, error?]
  | _ => simp [qualifierFault?]

/-- A missing type is reported at the compound, with the pseudo-class that asks for it. -/
theorem Occurrence.lack?_eq_some_iff {o : Occurrence} {e : SelectorError} :
    o.lack? = some e ↔ ∃ asking, asking? o.simple = some asking ∧ o.around.type? = none ∧
      e = .grammatical
        ⟨o.around.offset, .supported (asking ++ " without a type selector".toList)⟩ := by
  rw [lack?]
  cases asking? o.simple <;> cases o.around.type? <;> simp [eq_comm]

/-- A simple selector that is written with a name asks for no type. -/
theorem asking?_eq_none_of_qualifier? {simple : Simple} {qualifier : Qualifier}
    (h : simple.qualifier? = some qualifier) : asking? simple = none := by
  cases simple with
  | type | universal | «attribute» => rfl
  | _ => cases h

/-- The computed fault is the one that the relation describes. -/
theorem Occurrence.ownFault?_eq_some_iff {o : Occurrence} {e : SelectorError} :
    o.ownFault? r = some e ↔ Fault r o.around o.simple e := by
  rw [ownFault?, Option.or_eq_some_iff, lack?_eq_some_iff]
  simp only [Option.bind_eq_some_iff, qualifierFault?_eq_some_iff]
  constructor
  · rintro (⟨asking, hAsking, hType, rfl⟩ |
      ⟨-, qualifier, hQualifier, key, rfl, hOther, hUnbound, rfl⟩)
    · exact .untyped hAsking hType
    · exact .unbound hQualifier hOther hUnbound
  · intro h
    cases h with
    | untyped hAsking hType => exact Or.inl ⟨_, hAsking, hType, rfl⟩
    | unbound hQualifier hOther hUnbound =>
        have hLack : o.lack? = none := by
          rw [lack?, asking?_eq_none_of_qualifier? hQualifier]
        exact Or.inr ⟨hLack, _, hQualifier, _, rfl, hOther, hUnbound, rfl⟩

theorem Occurrence.ownFault?_eq_none_iff {o : Occurrence} :
    o.ownFault? r = none ↔ ∀ e, ¬ Fault r o.around o.simple e := by
  simp only [Option.eq_none_iff_forall_ne_some, ne_eq, ownFault?_eq_some_iff]

/-- Where the type of the compound is not at fault, what is wrong is wrong by itself. -/
theorem Occurrence.fault?_eq_ownFault? {o : Occurrence} (h : typeFault? r o.around = none) :
    o.fault? r = o.ownFault? r := by
  obtain ⟨around, simple⟩ := o
  have hAsked : qualifierFault? r ((around.type?.map Prod.snd).getD .absent) = none := by
    cases hType : around.type? with
    | none => rfl
    | some type =>
        rw [typeFault?, hType] at h
        exact h
  have hQuestion (asks : Bool) : qualifierFault? r
      (if asks then (around.type?.map Prod.snd).getD .absent else .absent) = none := by
    cases asks with
    | true => exact hAsked
    | false => rfl
  rw [fault?, ownFault?]
  congr 1
  cases simple with
  | pseudo | nth => exact hQuestion _
  | _ => rfl

def firstOwnFault? (r : Resolver) (occurrences : List Occurrence) : Option SelectorError :=
  occurrences.findSome? (Occurrence.ownFault? r)

theorem firstOwnFault?_append (before after : List Occurrence) :
    firstOwnFault? r (before ++ after) =
      (firstOwnFault? r before).or (firstOwnFault? r after) :=
  List.findSome?_append

/-- Where the type of a compound is sound, what asks for the type again finds nothing new. -/
theorem firstFault?_singleton_eq {o : Occurrence} (h : typeFault? r o.around = none) :
    firstFault? r [o] = firstOwnFault? r [o] := by
  rw [firstFault?, firstOwnFault?, List.findSome?_singleton, List.findSome?_singleton,
    Occurrence.fault?_eq_ownFault? h]

/-- A compound whose type is at fault begins with the fault. -/
theorem firstFault?_of_typeFault? {offset : Nat} {parts : List Simple} {e : SelectorError}
    (h : typeFault? r (.of ⟨offset, parts⟩) = some e) :
    firstFault? r (compoundOccurrences ⟨offset, parts⟩) = some e ∧
      firstOwnFault? r (compoundOccurrences ⟨offset, parts⟩) = some e := by
  obtain ⟨⟨name, qualifier⟩, hType, hFault⟩ := Option.bind_eq_some_iff.mp h
  have hFirst : ∃ more, parts = .type name qualifier :: more := by
    rw [Surroundings.of, Compound.typeSelector?] at hType
    split at hType
    · cases hType
      exact ⟨_, by assumption⟩
    · cases hType
  obtain ⟨more, rfl⟩ := hFirst
  have hBoth (around : Surroundings) :
      (⟨around, .type name qualifier⟩ : Occurrence).fault? r = some e ∧
        (⟨around, .type name qualifier⟩ : Occurrence).ownFault? r = some e :=
    ⟨hFault, hFault⟩
  rw [compoundOccurrences, partsOccurrences, simpleOccurrences, firstFault?, firstOwnFault?]
  · constructor
    · rw [List.singleton_append, List.findSome?_cons, (hBoth _).1]
    · rw [List.singleton_append, List.findSome?_cons, (hBoth _).2]
  all_goals
    intro _ h
    cases h

mutual

/-- Below a sound type only the own faults of the simple selectors count. -/
theorem firstFault?_simple : ∀ (simple : Simple) (around : Surroundings),
    typeFault? r around = none → firstFault? r (simpleOccurrences around simple) =
      firstOwnFault? r (simpleOccurrences around simple)
  | .not list, _, _ | .has list, _, _ => firstFault?_list list
  | .type .., _, h | .universal _, _, h | .class _, _, h | .id _, _, h | .attribute _, _, h
  | .pseudo _, _, h | .nth .., _, h | .contains _, _, h => firstFault?_singleton_eq h

theorem firstFault?_parts : ∀ (parts : List Simple) (around : Surroundings),
    typeFault? r around = none → firstFault? r (partsOccurrences around parts) =
      firstOwnFault? r (partsOccurrences around parts)
  | [], _, _ => rfl
  | part :: parts, around, h => by
      rw [partsOccurrences, firstFault?_append, firstOwnFault?_append,
        firstFault?_simple part around h, firstFault?_parts parts around h]

/-- The type stands first in its compound, so that its fault is reported before anything asks for it
again. -/
theorem firstFault?_compound : ∀ compound : Compound,
    firstFault? r (compoundOccurrences compound) = firstOwnFault? r (compoundOccurrences compound)
  | ⟨offset, parts⟩ => by
      cases hType : typeFault? r (.of ⟨offset, parts⟩) with
      | none => exact firstFault?_parts parts _ hType
      | some e =>
          obtain ⟨hFirst, hOwn⟩ := firstFault?_of_typeFault? hType
          rw [hFirst, hOwn]

/-- The first fault of a chain is the first that one of its simple selectors has by itself. -/
theorem firstFault?_complex : ∀ selector : Complex,
    firstFault? r (complexOccurrences selector) = firstOwnFault? r (complexOccurrences selector)
  | .single compound => firstFault?_compound compound
  | .joined left _ right => by
      rw [complexOccurrences, firstFault?_append, firstOwnFault?_append, firstFault?_complex left,
        firstFault?_compound right]

/-- In a whole list, the first fault that is met is one that a simple selector has by itself. -/
theorem firstFault?_list : ∀ list : List Complex,
    firstFault? r (listOccurrences list) = firstOwnFault? r (listOccurrences list)
  | [] => rfl
  | selector :: list => by
      rw [listOccurrences, firstFault?_append, firstOwnFault?_append, firstFault?_complex selector,
        firstFault?_list list]

end

/-- A simple selector that is no group is visited by itself. -/
def IsVisited (part : Simple) : Prop :=
  ∀ around, simpleOccurrences around part = [⟨around, part⟩]

section

variable {compound : Compound} {part : Simple}

/-- A part that is no group occurs among those of its compound. -/
theorem IsVisited.mem_partsOccurrences (hVisited : IsVisited part) {parts : List Simple}
    (around : Surroundings) (h : part ∈ parts) :
    ⟨around, part⟩ ∈ partsOccurrences around parts := by
  induction parts with
  | nil => cases h
  | cons first parts ih =>
      rcases List.mem_cons.mp h with rfl | h
      · refine List.mem_append_left _ ?_
        rw [hVisited]
        exact List.mem_singleton_self _
      · exact List.mem_append_right _ (ih h)

mutual

/-- What stands in a compound, at any depth, is visited. -/
theorem occurrence_of_simpleCompound (hVisited : IsVisited part) (hPart : part ∈ compound.parts) :
    ∀ (simple : Simple) (around : Surroundings), compound ∈ simpleCompounds simple →
      ⟨.of compound, part⟩ ∈ simpleOccurrences around simple
  | .not list, _, h | .has list, _, h => occurrence_of_compound hVisited hPart list h
  | .type .., _, h | .universal _, _, h | .class _, _, h | .id _, _, h | .attribute _, _, h
  | .pseudo _, _, h | .nth .., _, h | .contains _, _, h => by cases h

theorem occurrence_of_partsCompound (hVisited : IsVisited part) (hPart : part ∈ compound.parts) :
    ∀ (parts : List Simple) (around : Surroundings), compound ∈ partsCompounds parts →
      ⟨.of compound, part⟩ ∈ partsOccurrences around parts
  | [], _, h => by cases h
  | first :: parts, around, h => by
      rcases List.mem_append.mp h with h | h
      · exact List.mem_append_left _ (occurrence_of_simpleCompound hVisited hPart first around h)
      · exact List.mem_append_right _ (occurrence_of_partsCompound hVisited hPart parts around h)

/-- What stands in a compound inside of another one is visited from the outer one. -/
theorem occurrence_of_compoundCompound (hVisited : IsVisited part)
    (hPart : part ∈ compound.parts) : ∀ outer : Compound, compound ∈ compoundCompounds outer →
      ⟨.of compound, part⟩ ∈ compoundOccurrences outer
  | ⟨offset, parts⟩, h => by
      rcases List.mem_cons.mp h with rfl | h
      · exact hVisited.mem_partsOccurrences _ hPart
      · exact occurrence_of_partsCompound hVisited hPart parts _ h

theorem occurrence_of_complexCompound (hVisited : IsVisited part)
    (hPart : part ∈ compound.parts) : ∀ selector : Complex, compound ∈ complexCompounds selector →
      ⟨.of compound, part⟩ ∈ complexOccurrences selector
  | .single outer, h => occurrence_of_compoundCompound hVisited hPart outer h
  | .joined left _ right, h => by
      rcases List.mem_append.mp h with h | h
      · exact List.mem_append_left _ (occurrence_of_complexCompound hVisited hPart left h)
      · exact List.mem_append_right _ (occurrence_of_compoundCompound hVisited hPart right h)

/-- Every part of every compound is visited. -/
theorem occurrence_of_compound (hVisited : IsVisited part) (hPart : part ∈ compound.parts) :
    ∀ list : List Complex, compound ∈ listCompounds list →
      ⟨.of compound, part⟩ ∈ listOccurrences list
  | [], h => by cases h
  | selector :: list, h => by
      rcases List.mem_append.mp h with h | h
      · exact List.mem_append_left _ (occurrence_of_complexCompound hVisited hPart selector h)
      · exact List.mem_append_right _ (occurrence_of_compound hVisited hPart list h)

end

end

/-- Groups have no faults of their own. -/
theorem Fault.isVisited {around : Surroundings} {part : Simple} {e : SelectorError}
    (h : Fault r around part e) : IsVisited part := by
  cases part with
  | not list | has list =>
      cases h with
      | unbound hQualifier => cases hQualifier
      | untyped hAsking => cases hAsking
  | _ => exact fun _ => rfl

/-- The error of a computation is what it fails with. -/
theorem error?_eq_some_iff {ε α : Type} {x : Except ε α} {e : ε} :
    error? x = some e ↔ x = .error e := by
  cases x <;> simp [error?]

/-- A list has no translation exactly if some part of one of its compounds is at fault, inside of
groups or outside. What is reported is the first fault in the order of the source, in which the
inside of a group stands where its pseudo-class does: all that is visited before it is a part of
some compound without a fault. -/
theorem listText_eq_error_iff (r : Resolver) (scope : Scope) (list : SelectorList) :
    ((∃ e, listText r scope list = .error e) ↔
      ∃ compound ∈ listCompounds list, ∃ part ∈ compound.parts, ∃ e,
        Fault r (.of compound) part e) ∧
    (∀ o ∈ listOccurrences list, ∃ compound ∈ listCompounds list, o.StandsIn compound) ∧
    ∀ e, listText r scope list = .error e ↔
      ∃ before o after, listOccurrences list = before ++ o :: after ∧
        (∀ p ∈ before, ∀ e', ¬ Fault r p.around p.simple e') ∧ Fault r o.around o.simple e := by
  have hFirst (e : SelectorError) : listText r scope list = .error e ↔
      ∃ before o after, listOccurrences list = before ++ o :: after ∧
        (∀ p ∈ before, ∀ e', ¬ Fault r p.around p.simple e') ∧ Fault r o.around o.simple e := by
    rw [← error?_eq_some_iff, error?_listText, firstFault?_list, firstOwnFault?,
      List.findSome?_eq_some_iff]
    simp only [Occurrence.ownFault?_eq_some_iff, Occurrence.ownFault?_eq_none_iff]
    exact exists₃_congr fun before o after => and_congr_right fun _ => and_comm
  refine ⟨?_, fun o => compound_of_occurrence list, hFirst⟩
  constructor
  · rintro ⟨e, h⟩
    obtain ⟨before, o, after, hList, -, hFault⟩ := (hFirst e).mp h
    obtain ⟨compound, hCompound, hAround, hPart⟩ :=
      compound_of_occurrence list (hList ▸ List.mem_append_right before List.mem_cons_self)
    exact ⟨compound, hCompound, o.simple, hPart, e, hAround ▸ hFault⟩
  · rintro ⟨compound, hCompound, part, hPart, e, hFault⟩
    have hMem := occurrence_of_compound hFault.isVisited hPart list hCompound
    have hSome : error? (listText r scope list) ≠ none := by
      rw [error?_listText, firstFault?_list, firstOwnFault?, Ne, List.findSome?_eq_none_iff]
      intro hNone
      have hOwn : (⟨.of compound, part⟩ : Occurrence).ownFault? r = some e :=
        Occurrence.ownFault?_eq_some_iff.mpr hFault
      rw [hNone _ hMem] at hOwn
      cases hOwn
    obtain ⟨e', he'⟩ := Option.ne_none_iff_exists'.mp hSome
    exact ⟨e', error?_eq_some_iff.mp he'⟩

/-- No element has such an attribute, and none such a position. The faults are reported all the
same. -/
example : (compile "a[x|b~='c d']".toList Registry.empty.toResolver {} =
      .error (.unboundPrefix ['x'])) ∧
    compile "a .b:nth-of-type(0)".toList Registry.empty.toResolver {} =
      .error (.grammatical
        ⟨2, .supported ":nth-of-type() without a type selector".toList⟩) := by
  decide +kernel

end SelectorXPath.Translate
