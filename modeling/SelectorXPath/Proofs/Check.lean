import SelectorXPath.CommandLine
import SelectorXPath.Proofs.Namespace.Registry
import SelectorXPath.Proofs.Translate.Faults
import SelectorXPath.Proofs.Translate.Shape

/-! What it means that a check finds no fault. Bindings can be found for all prefixes of a selector,
so it can be compiled unless one of its compounds names no type where it is asked for one. A check
that meets an unknown prefix does not look behind it, and passes over such a compound there. -/

namespace SelectorXPath

open SelectorXPath.Translate

namespace Bindings

variable {key value : Text} {bindings : Bindings}

theorem mem_keys_insert {k : Text} :
    k ∈ (insert key value bindings).map Prod.fst ↔ k = key ∨ k ∈ bindings.map Prod.fst := by
  induction bindings with
  | nil => simp [insert]
  | cons pair more ih =>
      obtain ⟨other, v⟩ := pair
      rw [insert]
      split
      · rename_i hSame
        simp [hSame]
      · split
        · simp
        · rw [List.map_cons, List.mem_cons, ih, List.map_cons, List.mem_cons]
          exact or_left_comm

/-- No key is lost where pairs are bound one after the other, and none is made up. -/
theorem mem_keys_ofPairs {k : Text} {pairs : List (Text × Text)} :
    k ∈ (ofPairs pairs).map Prod.fst ↔ k ∈ pairs.map Prod.fst := by
  have hFrom (bindings : Bindings) :
      k ∈ (pairs.foldl (fun b pair => insert pair.1 pair.2 b) bindings).map Prod.fst ↔
        k ∈ bindings.map Prod.fst ∨ k ∈ pairs.map Prod.fst := by
    induction pairs generalizing bindings with
    | nil => simp
    | cons pair pairs ih =>
        rw [List.foldl_cons, ih, mem_keys_insert, List.map_cons, List.mem_cons, or_assoc]
        exact or_left_comm
  rw [ofPairs, hFrom]
  exact or_iff_right List.not_mem_nil

/-- A key that is bound stays bound, whatever is bound next. -/
theorem find?_insert_ne_none {k : Text} (h : bindings.find? k ≠ none) :
    (insert key value bindings).find? k ≠ none := by
  by_cases hSame : k = key
  · rw [hSame, find?_insert_self]
    exact Option.some_ne_none value
  · rw [find?_insert_of_ne hSame]
    exact h

end Bindings

namespace Registry

variable {name uri : Text} {r : Registry}

/-- Prefixes other than the protected one can be bound, all of them together. -/
theorem registerAll_of_ne {pairs : List (Text × Text)} (r : Registry)
    (h : ∀ pair ∈ pairs, pair.1 ≠ xmlPrefix) :
    ∃ r', r.registerAll pairs = .ok r' ∧
      ∀ name, r.find? name ≠ none ∨ name ∈ pairs.map Prod.fst → r'.find? name ≠ none := by
  induction pairs generalizing r with
  | nil => exact ⟨r, rfl, by simp⟩
  | cons pair pairs ih =>
      obtain ⟨bound, uri⟩ := pair
      rw [List.forall_mem_cons] at h
      obtain ⟨r', hAll, hFound⟩ := ih ⟨r.bindings.insert (key bound) uri⟩ h.2
      refine ⟨r', ?_, ?_⟩
      · rw [registerAll, register_of_ne uri r h.1]
        exact hAll
      · intro name hName
        apply hFound
        rw [List.map_cons, List.mem_cons, ← or_assoc] at hName
        refine hName.imp_left ?_
        rintro (hBound | rfl)
        · exact Bindings.find?_insert_ne_none hBound
        · rw [find?, Bindings.find?_insert_self]
          exact Option.some_ne_none uri

/-- A prefix that is bound has a namespace. -/
theorem error?_namespaceOf (h : name ≠ xmlPrefix → r.find? name ≠ none) :
    error? (r.toResolver.namespaceOf name) = none := by
  rw [Resolver.namespaceOf]
  by_cases hReserved : name = xmlPrefix
  · rw [if_pos hReserved]
    rfl
  · rw [if_neg hReserved]
    obtain ⟨uri, hUri⟩ := Option.ne_none_iff_exists'.mp (h hReserved)
    have hBound : r.toResolver.bound? name = some uri := by
      show (r.resolve name).toOption = some uri
      rw [resolve, isReserved, if_neg (by simpa using hReserved), hUri]
      rfl
    rw [hBound]
    rfl

end Registry

namespace Translate

/-- The prefixes that have to be bound for a list. -/
def boundPrefixes (list : SelectorList) : List Text :=
  (listOccurrences list).filterMap fun o =>
    match o.qualifier with
    | .named key => if key = xmlPrefix then none else some key
    | _ => none

/-- The prefixes to bind are those that are written in the list, at any depth, but for the protected
one. -/
theorem mem_boundPrefixes {list : SelectorList} {key : Text} :
    key ∈ boundPrefixes list ↔
      key ≠ xmlPrefix ∧ ∃ o ∈ listOccurrences list, o.qualifier = .named key := by
  rw [boundPrefixes, List.mem_filterMap]
  constructor
  · rintro ⟨o, hMem, hKey⟩
    split at hKey
    · rename_i hQualifier
      split at hKey <;> cases hKey
      rename_i hNe
      exact ⟨hNe, o, hMem, hQualifier⟩
    · cases hKey
  · rintro ⟨hNe, o, hMem, hQualifier⟩
    exact ⟨o, hMem, by simp [hQualifier, hNe]⟩

/-- The faults of a qualifier and of a compound without type are of different kinds. -/
theorem Occurrence.fault?_eq_unboundPrefix {r : Resolver} {o : Occurrence} {name : Text}
    (h : o.fault? r = some (.unboundPrefix name)) : o.lack? = none := by
  cases hLack : o.lack? with
  | none => rfl
  | some e =>
      rw [fault?, hLack] at h
      obtain rfl : e = .unboundPrefix name := Option.some.inj h
      unfold lack? at hLack
      split at hLack <;> cases hLack

/-- A selector that lacks its type is at fault under every resolver. -/
theorem Occurrence.fault?_ne_none {r : Resolver} {o : Occurrence} (h : o.lack? ≠ none) :
    o.fault? r ≠ none := by
  rw [fault?, Ne, Option.or_eq_none_iff]
  exact fun hBoth => h hBoth.1

/-- A selector that asks for no type in vain has a prefix without binding, if it has a fault. -/
theorem Occurrence.unboundPrefix_of_fault? {r : Resolver} {o : Occurrence} {e : SelectorError}
    (hLack : o.lack? = none) (h : o.fault? r = some e) : ∃ name, e = .unboundPrefix name := by
  rw [fault?, hLack, Option.none_or] at h
  cases hQualifier : o.qualifier with
  | named key =>
      rw [hQualifier, qualifierFault?, Resolver.namespaceOf] at h
      split at h
      · cases h
      · split at h <;> cases h
        exact ⟨key, rfl⟩
  | _ =>
      rw [hQualifier] at h
      cases h

/-- The first fault is none or a prefix without binding where no type is asked for in vain, and
where such a prefix stands in front of all compounds that are. -/
theorem unboundPrefix_of_firstFault?_iff {r : Resolver} {occurrences : List Occurrence} :
    (∀ e, firstFault? r occurrences = some e → ∃ name, e = .unboundPrefix name) ↔
      (∀ o ∈ occurrences, o.lack? = none) ∨
      ∃ before o after name, occurrences = before ++ o :: after ∧
        (∀ p ∈ before, p.fault? r = none) ∧ o.fault? r = some (.unboundPrefix name) ∧
        ∃ p ∈ after, p.lack? ≠ none := by
  constructor
  · intro hFirst
    by_cases hTypes : ∀ o ∈ occurrences, o.lack? = none
    · exact Or.inl hTypes
    · push Not at hTypes
      obtain ⟨p, hMem, hLack⟩ := hTypes
      cases hFault : firstFault? r occurrences with
      | none =>
          have hNone := List.findSome?_eq_none_iff.mp hFault p hMem
          exact absurd hNone (Occurrence.fault?_ne_none hLack)
      | some e =>
          obtain ⟨name, rfl⟩ := hFirst e hFault
          obtain ⟨before, o, after, rfl, ho, hBefore⟩ := List.findSome?_eq_some_iff.mp hFault
          refine Or.inr ⟨before, o, after, name, rfl, hBefore, ho, p, ?_, hLack⟩
          rw [List.mem_append, List.mem_cons] at hMem
          rcases hMem with hMem | rfl | hMem
          · exact absurd (hBefore p hMem) (Occurrence.fault?_ne_none hLack)
          · exact absurd (Occurrence.fault?_eq_unboundPrefix ho) hLack
          · exact hMem
  · rintro (hTypes | ⟨before, o, after, name, rfl, hBefore, ho, -⟩) e hFault
    · obtain ⟨o, hMem, ho⟩ := List.exists_of_findSome?_eq_some hFault
      exact Occurrence.unboundPrefix_of_fault? (hTypes o hMem) ho
    · have hFirst : firstFault? r (before ++ o :: after) = some (.unboundPrefix name) :=
        List.findSome?_eq_some_iff.mpr ⟨before, o, after, rfl, ho, hBefore⟩
      rw [hFirst] at hFault
      exact ⟨name, (Option.some.inj hFault).symm⟩

/-- Where no type is asked for in vain, a list has a translation under some bindings. -/
theorem exists_registry {list : SelectorList}
    (h : ∀ o ∈ listOccurrences list, o.lack? = none) (scope : Scope) :
    ∃ pairs registry text, Registry.ofPairs (Bindings.ofPairs pairs) = .ok registry ∧
      listText registry.toResolver scope list = .ok text := by
  let pairs : List (Text × Text) := (boundPrefixes list).map fun key => (key, [])
  have hKeys (key : Text) : key ∈ (Bindings.ofPairs pairs).map Prod.fst ↔
      key ∈ boundPrefixes list := by
    rw [Bindings.mem_keys_ofPairs, List.map_map]
    exact iff_of_eq (congrArg (key ∈ ·) (List.map_id _))
  have hAllowed : ∀ pair ∈ Bindings.ofPairs pairs, pair.1 ≠ xmlPrefix := fun pair hMem =>
    (mem_boundPrefixes.mp ((hKeys pair.1).mp (List.mem_map_of_mem hMem))).1
  obtain ⟨registry, hRegistry, hFound⟩ := Registry.registerAll_of_ne .empty hAllowed
  have hNone : error? (listText registry.toResolver scope list) = none := by
    rw [error?_listText, firstFault?, List.findSome?_eq_none_iff]
    intro o hMem
    rw [Occurrence.fault?, h o hMem, Option.none_or]
    cases hQualifier : o.qualifier with
    | named key =>
        apply Registry.error?_namespaceOf
        intro hNe
        apply hFound key
        rw [hKeys, mem_boundPrefixes]
        exact Or.inr ⟨hNe, o, hMem, hQualifier⟩
    | _ => rfl
  obtain ⟨text, hText⟩ := error?_eq_none_iff.mp hNone
  exact ⟨pairs, registry, text, hRegistry, hText⟩

end Translate

section

variable {source : Text}

/-- A compilation under bindings succeeds if they can be bound, the source can be read, and what was
read has a translation under them. -/
theorem compileBound_eq_ok_iff {pairs : List (Text × Text)} {text : Text} :
    compileBound source pairs = .ok text ↔
      ∃ registry list, Registry.ofPairs (Bindings.ofPairs pairs) = .ok registry ∧
        Selector.parse source Selector.defaultLimit = .ok list ∧
        listText registry.toResolver .descendants list = .ok text := by
  rw [compileBound]
  cases Registry.ofPairs (Bindings.ofPairs pairs) with
  | error e => simp
  | ok registry =>
      have hCompile : (compile source registry.toResolver {}).mapError BoundError.selector =
          .ok text ↔ compile source registry.toResolver {} = .ok text := by
        cases compile source registry.toResolver {} <;> simp [Except.mapError]
      rw [compile, bind_eq_ok_iff] at hCompile
      simp [compile, hCompile]

/-- A selector can be compiled under some bindings if it is read, and if every compound that is
asked for its type names one. -/
theorem exists_compileBound_iff :
    (∃ pairs text, compileBound source pairs = .ok text) ↔
      ∃ list, Selector.parse source Selector.defaultLimit = .ok list ∧
        ∀ o ∈ listOccurrences list, o.lack? = none := by
  simp only [compileBound_eq_ok_iff]
  constructor
  · rintro ⟨pairs, text, registry, list, -, hParse, hText⟩
    refine ⟨list, hParse, fun o hMem => ?_⟩
    have hNone := error?_eq_none_iff.mpr ⟨text, hText⟩
    rw [error?_listText, firstFault?, List.findSome?_eq_none_iff] at hNone
    exact (Option.or_eq_none_iff.mp (hNone o hMem)).1
  · rintro ⟨list, hParse, hTypes⟩
    obtain ⟨pairs, registry, text, hRegistry, hText⟩ := exists_registry hTypes .descendants
    exact ⟨pairs, text, registry, list, hRegistry, hParse, hText⟩

/-- Reading a selector does not ask for namespaces. -/
theorem parse_ne_unboundPrefix {limit : Nat} (name : Text) :
    Selector.parse source limit ≠ .error (.unboundPrefix name) := by
  rw [Selector.parse]
  split
  · rw [Selector.scanError.eq_def]
    split <;> nofun
  · cases (TokenReader.start limit _).next.1 <;> nofun

/-- A check goes by the first fault without bindings. -/
theorem fault?_eq_none_iff_firstFault? :
    fault? source = none ↔ ∃ list, Selector.parse source Selector.defaultLimit = .ok list ∧
      ∀ e, firstFault? Registry.empty.toResolver (listOccurrences list) = some e →
        ∃ name, e = .unboundPrefix name := by
  cases hParse : Selector.parse source Selector.defaultLimit with
  | error e =>
      have hCompile : compile source Registry.empty.toResolver {} = .error e := by
        rw [compile, hParse]
        rfl
      rw [fault?, hCompile]
      cases e with
      | unboundPrefix name => exact absurd hParse (parse_ne_unboundPrefix name)
      | _ => simp
  | ok list =>
      have hCompile : compile source Registry.empty.toResolver {} =
          listText Registry.empty.toResolver .descendants list := by
        rw [compile, hParse]
        rfl
      have hError := error?_listText Registry.empty.toResolver .descendants list
      rw [fault?, hCompile]
      simp only [Except.ok.injEq, exists_eq_left', ← hError]
      cases listText Registry.empty.toResolver .descendants list with
      | ok text => simp [error?]
      | error e => cases e <;> simp [error?]

/-- The command tells by its code whether a fault was found. -/
theorem status_check_eq_zero_iff :
    (CommandLine.Invocation.check source).report.status = 0 ↔ fault? source = none := by
  rw [CommandLine.Invocation.report]
  cases fault? source with
  | none => exact iff_of_true rfl rfl
  | some e => exact iff_of_false Nat.one_ne_zero nofun

end

/-- A check finds no fault in a selector that can be compiled under some bindings, and in no other
but those in which a prefix without binding stands in front of all compounds that are asked for
their type and name none. The command of that name answers accordingly. -/
theorem fault?_eq_none_iff (source : Text) :
    ((∃ pairs text, compileBound source pairs = .ok text) ↔
      ∃ list, Selector.parse source Selector.defaultLimit = .ok list ∧
        ∀ o ∈ listOccurrences list, o.lack? = none) ∧
    (fault? source = none ↔
      (∃ pairs text, compileBound source pairs = .ok text) ∨
      ∃ list before o after name,
        Selector.parse source Selector.defaultLimit = .ok list ∧
        listOccurrences list = before ++ o :: after ∧
        (∀ p ∈ before, p.fault? Registry.empty.toResolver = none) ∧
        o.fault? Registry.empty.toResolver = some (.unboundPrefix name) ∧
        ∃ p ∈ after, p.lack? ≠ none) ∧
    ((CommandLine.Invocation.check source).report.status = 0 ↔ fault? source = none) := by
  refine ⟨exists_compileBound_iff, ?_, status_check_eq_zero_iff⟩
  rw [exists_compileBound_iff, fault?_eq_none_iff_firstFault?]
  simp only [unboundPrefix_of_firstFault?_iff]
  constructor
  · rintro ⟨list, hParse, hTypes | ⟨before, o, after, name, hHidden⟩⟩
    · exact Or.inl ⟨list, hParse, hTypes⟩
    · exact Or.inr ⟨list, before, o, after, name, hParse, hHidden⟩
  · rintro (⟨list, hParse, hTypes⟩ | ⟨list, before, o, after, name, hParse, hHidden⟩)
    · exact ⟨list, hParse, Or.inl hTypes⟩
    · exact ⟨list, hParse, Or.inr ⟨before, o, after, name, hHidden⟩⟩

/-- A prefix hides that the compound behind it names no type, which no bindings mend. The other way
round the fault is found. -/
theorem fault?_of_prefix_in_front :
    fault? "x|a, :first-of-type".toList = none ∧
      (∀ pairs text, compileBound "x|a, :first-of-type".toList pairs ≠ .ok text) ∧
      fault? ":first-of-type, x|a".toList ≠ none := by
  have hLack : ((Selector.parse "x|a, :first-of-type".toList Selector.defaultLimit).map fun list =>
      (listOccurrences list).all fun o => o.lack?.isNone).toOption = some false := by
    decide +kernel
  refine ⟨by decide +kernel, ?_, by decide +kernel⟩
  intro pairs text hText
  obtain ⟨list, hParse, hTypes⟩ := exists_compileBound_iff.mp ⟨pairs, text, hText⟩
  have hAll : (listOccurrences list).all (fun o => o.lack?.isNone) = true := by
    rw [List.all_eq_true]
    intro o hMem
    rw [hTypes o hMem]
    rfl
  rw [hParse] at hLack
  rw [Except.map, hAll] at hLack
  cases hLack

end SelectorXPath
