import Mathlib.Data.List.Induction
import SelectorXPath.Namespace.Registry
import SelectorXPath.Proofs.Namespace.Bindings

/-! A registry after any number of operations. What it says about a prefix is what the last
operation said that had to do with the prefix, and it holds nothing else. -/

namespace SelectorXPath.Registry

/-- What changes a registry, or puts another one in its place. -/
inductive Operation where
  | build (pairs : List (Text × Text))
  | register (name uri : Text)
  | setDefault (uri : Text)
  | remove (name : Text)

/-- The answer to an operation, with the namespace that it takes out, and the registry behind it. -/
def perform (r : Registry) : Operation → Except ReservedPrefix (Option Text) × Registry
  | .build pairs =>
      match ofPairs pairs with
      | .ok built => (.ok none, built)
      | .error e => (.error e, r)
  | .register name uri =>
      match r.register name uri with
      | .ok bound => (.ok none, bound)
      | .error e => (.error e, r)
  | .setDefault uri => (.ok none, r.setDefault uri)
  | .remove name => (.ok (r.take name).1, (r.take name).2)

/-- Where operations lead, one after the other, from nothing bound on. -/
def reached (operations : List Operation) : Registry :=
  operations.foldl (fun r operation => (r.perform operation).2) empty

def Operation.isRefused : Operation → Bool
  | .build pairs => pairs.any fun pair => isReserved pair.1
  | .register name _ => isReserved name
  | .setDefault _ | .remove _ => false

/-- The last of the namespaces that pairs give to a prefix. -/
def lastBound? (pairs : List (Text × Text)) (name : Text) : Option Text :=
  (pairs.reverse.find? fun pair => key pair.1 = key name).map Prod.snd

/-- What an operation says about a prefix: that it is bound to a namespace from now on, or that it
is not, or nothing. A registry in the place of the former one has something to say about all of
them. -/
def Operation.says? (name : Text) : Operation → Option (Option Text)
  | .build pairs => some (lastBound? pairs name)
  | .register other uri => if key other = key name then some (some uri) else none
  | .setDefault uri => if key name = defaultPrefix then some (some uri) else none
  | .remove other => if key other = key name then some none else none

/-- What comes of it. An operation that is refused says nothing. -/
def Operation.effect? (operation : Operation) (name : Text) : Option (Option Text) :=
  if operation.isRefused then none else operation.says? name

/-- The namespace that a prefix is bound to after some operations. -/
def live? (operations : List Operation) (name : Text) : Option Text :=
  (operations.reverse.findSome? fun operation => operation.effect? name).join

/-- A registry shows that prefixes are bound to these namespaces, and nothing else. -/
structure Shows (r : Registry) (bound? : Text → Option Text) : Prop where
  keys : ∀ entry ∈ r.toList, entry.1 ≠ xmlPrefix ∧ entry.1 ≠ []
  ascending : r.toList.Pairwise fun entry later => entry.1 < later.1
  entries : ∀ name uri, (name, uri) ∈ r.toList ↔ name ≠ [] ∧ bound? name = some uri
  size : r.size = r.toList.length
  isEmpty : r.isEmpty = true ↔ ∀ name, bound? name = none
  contains : ∀ name, r.contains name = (bound? name).isSome
  take : ∀ name, (r.take name).1 = bound? name
  resolve : ∀ name, r.resolve name =
    if name = xmlPrefix then .ok xmlNamespace
    else
      match bound? name with
      | some uri => .ok uri
      | none =>
          if name = [] ∨ name = defaultPrefix then .ok [] else .error (.unboundPrefix name)
  default? : r.toResolver.default? = bound? []

variable {r r' : Registry} {name name' uri : Text} {pairs pairs' : List (Text × Text)}
    {bound? : Text → Option Text}

theorem key_ne_xmlPrefix (h : name ≠ xmlPrefix) : key name ≠ xmlPrefix := by
  rw [key]
  split
  · decide
  · exact h

/-- No key is empty, because the empty prefix has a name of its own. -/
theorem key_ne_nil (name : Text) : key name ≠ [] := by
  rw [key]
  split
  · decide
  · rename_i hName
    exact hName

theorem key_of_ne_nil (h : name ≠ []) : key name = name :=
  if_neg h

/-- The default namespace can be named in two ways. -/
theorem key_eq_defaultPrefix_iff : key name = defaultPrefix ↔ name = [] ∨ name = defaultPrefix := by
  rw [key]
  split
  · rename_i hName
    simp [hName]
  · rename_i hName
    rw [or_iff_right hName]

/-- A prefix is protected under its key as well. -/
theorem isReserved_key (name : Text) : isReserved (key name) = isReserved name := by
  by_cases hName : name = xmlPrefix
  · rw [hName]
    rfl
  · simp [isReserved, hName, key_ne_xmlPrefix hName]

theorem isReserved_congr (h : key name = key name') : isReserved name = isReserved name' := by
  rw [← isReserved_key, h, isReserved_key]

/-- A prefix that is not protected can always be bound. -/
theorem register_of_ne (uri : Text) (r : Registry) (h : name ≠ xmlPrefix) :
    r.register name uri = .ok ⟨r.bindings.insert (key name) uri⟩ := by
  rw [register, isReserved, if_neg]
  simpa using key_ne_xmlPrefix h

/-- The protected prefix is never bound. -/
theorem register_xmlPrefix (uri : Text) (r : Registry) :
    r.register xmlPrefix uri = .error ⟨xmlPrefix⟩ :=
  rfl

/-- One reserved name among the pairs, and none of them is bound. -/
theorem registerAll_of_isReserved (h : pairs.any (fun pair => isReserved pair.1) = true)
    (r : Registry) : r.registerAll pairs = .error ⟨xmlPrefix⟩ := by
  induction pairs generalizing r with
  | nil => cases h
  | cons pair pairs ih =>
      obtain ⟨name, uri⟩ := pair
      rw [registerAll]
      by_cases hName : name = xmlPrefix
      · rw [hName, register_xmlPrefix]
      · rw [register_of_ne uri r hName]
        rw [List.any_cons, isReserved, decide_eq_false hName, Bool.false_or] at h
        exact ih h _

/-- The invariant of all operations: keys ascend, they are names that something can be bound to, and
each leads to what is bound to it. -/
structure Tracks (r : Registry) (bound? : Text → Option Text) : Prop where
  ascending : r.bindings.IsAscending
  keys : ∀ entry ∈ r.bindings, entry.1 ≠ xmlPrefix ∧ entry.1 ≠ []
  found : ∀ name, r.find? name = bound? name

theorem Tracks.congr (h : r.Tracks bound?) {other? : Text → Option Text}
    (hSame : ∀ name, bound? name = other? name) : r.Tracks other? :=
  ⟨h.ascending, h.keys, fun name => (h.found name).trans (hSame name)⟩

/-- The invariant holds where nothing is bound. -/
theorem tracks_empty : empty.Tracks fun _ => none :=
  ⟨List.Pairwise.nil, List.forall_mem_nil _, fun _ => rfl⟩

/-- The invariant is kept by a binding, which is the last word on all names of its key. -/
theorem Tracks.insert (h : r.Tracks bound?) (hName : name ≠ xmlPrefix) (uri : Text) :
    Tracks ⟨r.bindings.insert (key name) uri⟩ fun other =>
      if key name = key other then some uri else bound? other := by
  refine ⟨h.ascending.insert _ _, fun entry hMem => ?_, fun other => ?_⟩
  · rcases Bindings.eq_or_mem_of_mem_insert hMem with rfl | hMem
    · exact ⟨key_ne_xmlPrefix hName, key_ne_nil name⟩
    · exact h.keys entry hMem
  · rw [find?]
    split
    · rename_i hSame
      rw [← hSame, Bindings.find?_insert_self]
    · rename_i hOther
      rw [Bindings.find?_insert_of_ne (Ne.symm hOther)]
      exact h.found other

/-- The invariant is kept where a binding is taken out, be there one or not. -/
theorem Tracks.remove (h : r.Tracks bound?) (name : Text) :
    (r.remove name).Tracks fun other => if key name = key other then none else bound? other := by
  refine ⟨h.ascending.erase _, fun entry hMem => h.keys entry (Bindings.mem_of_mem_erase hMem),
    fun other => ?_⟩
  rw [find?, Registry.remove]
  split
  · rename_i hSame
    rw [← hSame, h.ascending.find?_erase_self]
  · rename_i hOther
    rw [Bindings.find?_erase_of_ne (Ne.symm hOther)]
    exact h.found other

theorem lastBound?_cons (pair : Text × Text) (pairs : List (Text × Text)) (name : Text) :
    lastBound? (pair :: pairs) name =
      (lastBound? pairs name).or (if key pair.1 = key name then some pair.2 else none) := by
  rw [lastBound?, List.reverse_cons, List.find?_append, Option.map_or, ← lastBound?]
  congr 1
  by_cases hSame : key pair.1 = key name
  · simp [hSame]
  · simp [hSame]

/-- Pairs without the protected prefix are all bound, the later ones in the place of earlier
ones. -/
theorem Tracks.registerAll (h : r.Tracks bound?)
    (hAllowed : pairs.any (fun pair => isReserved pair.1) = false) :
    ∃ r', r.registerAll pairs = .ok r' ∧
      r'.Tracks fun name => (lastBound? pairs name).or (bound? name) := by
  induction pairs generalizing r bound? with
  | nil => exact ⟨r, rfl, h⟩
  | cons pair pairs ih =>
      obtain ⟨name, uri⟩ := pair
      rw [List.any_cons, Bool.or_eq_false_iff, isReserved, decide_eq_false_iff_not] at hAllowed
      obtain ⟨r', hAll, hTracks⟩ := ih (h.insert hAllowed.1 uri) hAllowed.2
      refine ⟨r', ?_, hTracks.congr fun other => ?_⟩
      · rw [Registry.registerAll, register_of_ne uri r hAllowed.1]
        exact hAll
      · rw [lastBound?_cons, Option.or_assoc]
        congr 1
        by_cases hSame : key name = key other
        · rw [if_pos hSame, if_pos hSame, Option.some_or]
        · rw [if_neg hSame, if_neg hSame, Option.none_or]

/-- Operations that would bind the protected prefix are refused, and change nothing. -/
theorem perform_of_isRefused {operation : Operation} (h : operation.isRefused = true)
    (r : Registry) : r.perform operation = (.error ⟨xmlPrefix⟩, r) := by
  cases operation with
  | build pairs => rw [perform, ofPairs, registerAll_of_isReserved h]
  | register name uri =>
      obtain rfl := of_decide_eq_true h
      rw [perform, register_xmlPrefix]
  | setDefault | remove => cases h

/-- All other operations succeed, and what they say becomes what is bound. -/
theorem Tracks.perform {operation : Operation} (h : r.Tracks bound?)
    (hAllowed : operation.isRefused = false) :
    (∃ answer, (r.perform operation).1 = .ok answer) ∧
      (r.perform operation).2.Tracks fun name =>
        (operation.effect? name).getD (bound? name) := by
  have hEffect (name : Text) : operation.effect? name = operation.says? name := by
    rw [Operation.effect?, hAllowed, if_neg Bool.false_ne_true]
  cases operation with
  | build pairs =>
      obtain ⟨built, hBuilt, hTracks⟩ := tracks_empty.registerAll hAllowed
      rw [Registry.perform, ofPairs, hBuilt]
      refine ⟨⟨none, rfl⟩, hTracks.congr fun name => ?_⟩
      rw [hEffect, Operation.says?, Option.getD_some, Option.or_none]
  | register name uri =>
      have hName : name ≠ xmlPrefix := of_decide_eq_false hAllowed
      rw [Registry.perform, register_of_ne uri r hName]
      refine ⟨⟨none, rfl⟩, (h.insert hName uri).congr fun other => ?_⟩
      rw [hEffect, Operation.says?]
      split <;> rfl
  | setDefault uri =>
      have hName : defaultPrefix ≠ xmlPrefix := by decide
      refine ⟨⟨none, rfl⟩, (h.insert hName uri).congr fun other => ?_⟩
      have hKey : key defaultPrefix = key other ↔ key other = defaultPrefix := eq_comm
      rw [hEffect, Operation.says?]
      simp only [hKey]
      split <;> rfl
  | remove name =>
      refine ⟨⟨_, rfl⟩, (h.remove name).congr fun other => ?_⟩
      rw [hEffect, Operation.says?]
      split <;> rfl

/-- The last operation is heard first; where it says nothing, what was said before is still good. -/
theorem live?_concat (operations : List Operation) (operation : Operation) (name : Text) :
    live? (operations ++ [operation]) name =
      (operation.effect? name).getD (live? operations name) := by
  rw [live?, List.reverse_append, List.reverse_singleton, List.singleton_append,
    List.findSome?_cons]
  cases operation.effect? name <;> rfl

/-- Every sequence of operations leads to a registry with what is bound after them. -/
theorem tracks_reached (operations : List Operation) :
    (reached operations).Tracks (live? operations) := by
  induction operations using List.reverseRecOn with
  | nil => exact tracks_empty
  | append_singleton operations operation ih =>
      have hReached : reached (operations ++ [operation]) =
          ((reached operations).perform operation).2 := by
        rw [reached, List.foldl_append]
        rfl
      rw [hReached]
      cases hRefused : operation.isRefused with
      | true =>
          rw [perform_of_isRefused hRefused]
          refine ih.congr fun name => ?_
          rw [live?_concat, Operation.effect?, if_pos hRefused, Option.getD_none]
      | false => exact (ih.perform hRefused).2.congr fun name => (live?_concat ..).symm

/-- What the registry shows follows from the invariant. -/
theorem Tracks.shows (h : r.Tracks bound?) : r.Shows bound? where
  keys := h.keys
  ascending := h.ascending
  entries name uri := by
    rw [← h.found, find?]
    constructor
    · intro hMem
      have hName := (h.keys _ hMem).2
      exact ⟨hName, by rw [key_of_ne_nil hName, ← h.ascending.mem_iff]; exact hMem⟩
    · rintro ⟨hName, hFound⟩
      rw [key_of_ne_nil hName, ← h.ascending.mem_iff] at hFound
      exact hFound
  size := rfl
  isEmpty := by
    rw [Registry.isEmpty, List.isEmpty_iff]
    constructor
    · intro hNil name
      rw [← h.found, find?, hNil]
      rfl
    · intro hNone
      refine List.eq_nil_iff_forall_not_mem.mpr ?_
      rintro ⟨name, uri⟩ hMem
      have hName := (h.keys _ hMem).2
      have hFound := hNone name
      rw [← h.found, find?, key_of_ne_nil hName, h.ascending.mem_iff.mp hMem] at hFound
      cases hFound
  contains name := by rw [Registry.contains, h.found]
  take name := h.found name
  resolve name := by
    rw [Registry.resolve, h.found]
    by_cases hReserved : name = xmlPrefix
    · rw [if_pos hReserved, hReserved]
      rfl
    · rw [if_neg hReserved, isReserved, decide_eq_false hReserved, if_neg Bool.false_ne_true]
      cases bound? name with
      | some uri => rfl
      | none =>
          simp only [key_eq_defaultPrefix_iff]
          split
          · rfl
          · rename_i hOther
            rw [key_of_ne_nil fun hNil => hOther (Or.inl hNil)]
  default? := h.found []

/-- Registries are known by what is bound in them. -/
theorem Tracks.ext (h : r.Tracks bound?) (h' : r'.Tracks bound?) : r = r' := by
  have hNil {r : Registry} (h : r.Tracks bound?) : r.bindings.find? [] = none := by
    rw [Option.eq_none_iff_forall_not_mem]
    exact fun uri hFound => (h.keys _ (h.ascending.mem_iff.mpr hFound)).2 rfl
  obtain ⟨bindings⟩ := r
  obtain ⟨bindings'⟩ := r'
  refine congrArg Registry.mk (h.ascending.ext h'.ascending fun name => ?_)
  by_cases hName : name = []
  · rw [hName]
    exact (hNil h).trans (hNil h').symm
  · rw [← key_of_ne_nil hName]
    exact (h.found name).trans (h'.found name).symm

/-- Among pairs for different prefixes, it does not matter which is the last. -/
theorem lastBound?_eq_some_iff (h : (pairs.map fun pair => key pair.1).Nodup) :
    lastBound? pairs name = some uri ↔ ∃ pair ∈ pairs, key pair.1 = key name ∧ pair.2 = uri := by
  rw [lastBound?, Option.map_eq_some_iff]
  constructor
  · rintro ⟨pair, hPair, rfl⟩
    exact ⟨pair, List.mem_reverse.mp (List.mem_of_find?_eq_some hPair),
      by simpa using List.find?_some hPair, rfl⟩
  · rintro ⟨pair, hMem, hKey, rfl⟩
    have hSome : (pairs.reverse.find? fun pair => key pair.1 = key name).isSome = true :=
      List.find?_isSome.mpr ⟨pair, List.mem_reverse.mpr hMem, decide_eq_true hKey⟩
    obtain ⟨last, hLast⟩ := Option.isSome_iff_exists.mp hSome
    have hLastKey : key last.1 = key name := by simpa using List.find?_some hLast
    have hSame : key last.1 = key pair.1 := hLastKey.trans hKey.symm
    obtain rfl := List.inj_on_of_nodup_map h
      (List.mem_reverse.mp (List.mem_of_find?_eq_some hLast)) hMem hSame
    exact ⟨last, hLast, rfl⟩

/-- In which order different keys are bound makes no difference, not even to the list that is
kept. -/
theorem ofPairs_eq_of_perm (hPerm : pairs.Perm pairs')
    (h : (pairs.map fun pair => key pair.1).Nodup) : ofPairs pairs = ofPairs pairs' := by
  cases hReserved : pairs.any fun pair => isReserved pair.1 with
  | true =>
      have hReserved' := (hPerm.any_eq (f := fun pair => isReserved pair.1)).symm.trans hReserved
      rw [ofPairs, ofPairs, registerAll_of_isReserved hReserved,
        registerAll_of_isReserved hReserved']
  | false =>
      have hReserved' := (hPerm.any_eq (f := fun pair => isReserved pair.1)).symm.trans hReserved
      have h' : (pairs'.map fun pair => key pair.1).Nodup := (hPerm.map _).nodup_iff.mp h
      obtain ⟨r, hAll, hTracks⟩ := tracks_empty.registerAll hReserved
      obtain ⟨r', hAll', hTracks'⟩ := tracks_empty.registerAll hReserved'
      have hSame : r = r' := by
        refine hTracks.ext (hTracks'.congr fun name => congrArg (Option.or · none) ?_)
        refine Option.ext fun uri => ?_
        rw [lastBound?_eq_some_iff h, lastBound?_eq_some_iff h']
        simp only [hPerm.mem_iff]
      rw [ofPairs, ofPairs, hAll, hAll', hSame]

/-- A registry refines a map in which one prefix is protected. Whatever was done to it, it shows
what is bound since. Operations that would bind the protected prefix are refused and change nothing,
and only these are. No prefix can be told from another of the same name. A registry does not depend
on the order of the pairs that it is built from, if each of them is for another prefix. -/
theorem reached_shows_live (operations : List Operation) :
    (reached operations).Shows (live? operations) ∧
    (∀ operation : Operation, if operation.isRefused
      then (reached operations).perform operation = (.error ⟨xmlPrefix⟩, reached operations)
      else ∃ answer, ((reached operations).perform operation).1 = .ok answer) ∧
    (∀ r name name', key name = key name' →
      (∀ uri, register name uri r = register name' uri r) ∧
      r.take name = r.take name' ∧ r.remove name = r.remove name' ∧
      r.contains name = r.contains name' ∧ r.resolve name = r.resolve name') ∧
    ∀ pairs pairs', pairs.Perm pairs' → (pairs.map fun pair => key pair.1).Nodup →
      ofPairs pairs = ofPairs pairs' := by
  have hTracks := tracks_reached operations
  refine ⟨hTracks.shows, fun operation => ?_, fun r name name' hKey => ?_,
    fun pairs pairs' => ofPairs_eq_of_perm⟩
  · cases hRefused : operation.isRefused with
    | true =>
        rw [if_pos rfl]
        exact perform_of_isRefused hRefused _
    | false =>
        rw [if_neg Bool.false_ne_true]
        exact (hTracks.perform hRefused).1
  · simp only [register, take, remove, contains, find?, resolve, isReserved_congr hKey, hKey,
      implies_true, and_self]

/-- The default namespace is bound twice, under both names, and another prefix is taken out. -/
theorem reached_shows_live_of_default :
    ∃ r, r = reached [.build [(['a'], ['u']), ([], ['v'])], .register xmlPrefix ['w'],
        .register defaultPrefix ['x'], .remove ['a']] ∧
      r.resolve [] = .ok ['x'] ∧ r.resolve ['a'] = .error (.unboundPrefix ['a']) ∧
      r.contains [] = r.contains defaultPrefix ∧
      ofPairs [(['a'], ['u']), ([], ['v'])] = ofPairs [([], ['v']), (['a'], ['u'])] := by
  obtain ⟨hShows, -, hKey, hPerm⟩ := reached_shows_live [.build [(['a'], ['u']), ([], ['v'])],
    .register xmlPrefix ['w'], .register defaultPrefix ['x'], .remove ['a']]
  refine ⟨_, rfl, ?_, ?_, ?_, hPerm _ _ (List.Perm.swap _ _ _) (by decide)⟩
  · exact (hShows.resolve []).trans rfl
  · exact (hShows.resolve ['a']).trans rfl
  · exact (hKey _ [] defaultPrefix rfl).2.2.2.1

end SelectorXPath.Registry
