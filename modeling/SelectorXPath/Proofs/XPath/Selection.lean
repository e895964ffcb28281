import SelectorXPath.Proofs.XPath.Vocabulary

/-! What paths select and when conditions hold, one lemma for each way in which they are put
together. -/

namespace SelectorXPath.XPath

variable {d : Document} {c n : Node} {path : LocationPath} {e : Expr}

theorem mem_nodes_step {axis : Axis} {test : NodeTest} :
    n ∈ (LocationPath.step axis test).nodes d c ↔ n ∈ reach d axis test c := by
  simp [LocationPath.nodes, LocationPath.groups]

/-- A step leads from every node that the path in front leads to. -/
theorem mem_nodes_next {axis : Axis} {test : NodeTest} :
    n ∈ (LocationPath.next path axis test).nodes d c ↔
      ∃ m ∈ path.nodes d c, n ∈ reach d axis test m := by
  have hNodes : (LocationPath.next path axis test).nodes d c =
      (path.nodes d c).flatMap (reach d axis test) := rfl
  rw [hNodes, List.mem_flatMap]

/-- A predicate that is no number is asked about each node by itself. -/
theorem filter_zipIdx_of_isCondition {level : Nat} (h : e.IsCondition level)
    (group : List Node) :
    (group.zipIdx.filter fun m => (e.value d m.1).accepts (m.2 + 1)).map Prod.fst =
      group.filter (e.holds d) := by
  obtain ⟨type, hType, hFits⟩ := h
  have hAccepts (m : Node) (position : Nat) :
      (e.value d m).accepts position = e.holds d m := by
    have hValue := hFits.type_value d m
    rw [Expr.holds]
    cases hCase : e.value d m with
    | number _ =>
        rw [hCase] at hValue
        exact absurd hValue.symm hType
    | _ => rfl
  have hFunction : (fun m : Node × Nat => (e.value d m.1).accepts (m.2 + 1)) =
      e.holds d ∘ Prod.fst := by
    funext m
    exact hAccepts m.1 (m.2 + 1)
  rw [hFunction, ← List.filter_map, List.zipIdx_map_fst]

/-- A predicate that is a condition keeps the nodes of which it holds. -/
theorem mem_nodes_filter {level : Nat} (h : e.IsCondition level) :
    n ∈ (LocationPath.filter path e).nodes d c ↔ n ∈ path.nodes d c ∧ e.holds d n = true := by
  simp only [LocationPath.nodes, LocationPath.groups, filter_zipIdx_of_isCondition h,
    List.mem_flatten, List.mem_map]
  constructor
  · rintro ⟨_, ⟨group, hGroup, rfl⟩, hn⟩
    obtain ⟨hMem, hHolds⟩ := List.mem_filter.mp hn
    exact ⟨⟨group, hGroup, hMem⟩, hHolds⟩
  · rintro ⟨⟨group, hGroup, hMem⟩, hHolds⟩
    exact ⟨_, ⟨group, hGroup, rfl⟩, List.mem_filter.mpr ⟨hMem, hHolds⟩⟩

/-- The number one leaves the nearest node of a group. -/
theorem filter_zipIdx_first (group : List Node) :
    (group.zipIdx.filter fun m => ((Expr.number 1).value d m.1).accepts (m.2 + 1)).map Prod.fst =
      group.head?.toList := by
  have hAccepts (m : Node × Nat) :
      ((Expr.number 1).value d m.1).accepts (m.2 + 1) = decide (m.2 = 0) := by
    rw [Expr.value, Value.accepts]
    apply decide_eq_decide.mpr
    rw [Option.some.injEq]
    omega
  simp only [hAccepts]
  cases group with
  | nil => rfl
  | cons first group =>
      have hNone : (group.zipIdx 1).filter (fun m => decide (m.2 = 0)) = [] := by
        rw [List.filter_eq_nil_iff]
        intro m hm
        have hPosition := List.le_snd_of_mem_zipIdx hm
        simp only [decide_eq_true_eq]
        omega
      simp [List.zipIdx_cons, hNone]

/-- The number one keeps the first node that a step reaches. -/
theorem mem_nodes_first_step {axis : Axis} {test : NodeTest} :
    n ∈ (LocationPath.filter (.step axis test) (.number 1)).nodes d c ↔
      (reach d axis test c).head? = some n := by
  simp only [LocationPath.nodes, LocationPath.groups, filter_zipIdx_first]
  simp

/-- It is counted anew for every node that the step starts from. -/
theorem mem_nodes_first_next {axis : Axis} {test : NodeTest} :
    n ∈ (LocationPath.filter (.next path axis test) (.number 1)).nodes d c ↔
      ∃ m ∈ path.nodes d c, (reach d axis test m).head? = some n := by
  have hNodes : (LocationPath.filter (.next path axis test) (.number 1)).nodes d c =
      (path.nodes d c).flatMap fun m => (reach d axis test m).head?.toList := by
    simp only [LocationPath.nodes, LocationPath.groups, filter_zipIdx_first, List.map_map]
    rfl
  simp only [hNodes, List.mem_flatMap, Option.mem_toList]

theorem toTruth_nodes {list : List Node} :
    (Value.nodes list).toTruth = true ↔ ∃ m, m ∈ list := by
  rw [Value.toTruth]
  cases list with
  | nil => simp
  | cons m list => exact ⟨fun _ => ⟨m, List.mem_cons_self⟩, fun _ => rfl⟩

/-- A path holds if it leads anywhere. -/
theorem holds_path : (Expr.path path).holds d n = true ↔ ∃ m, m ∈ path.nodes d n :=
  toTruth_nodes

/-- A negation holds where its condition does not. -/
theorem holds_negation : e.negation.holds d n = true ↔ e.holds d n = false := by
  have hValue : e.negation.value d n = .truth (!e.holds d n) := rfl
  rw [Expr.holds, hValue, Value.toTruth, Bool.not_eq_true']

theorem holds_group : (Expr.group e).holds d n = e.holds d n := rfl

theorem holds_foldl_and (more : List Expr) (first : Expr) :
    (more.foldl (.binary .and) first).holds d n = true ↔
      first.holds d n = true ∧ ∀ e ∈ more, e.holds d n = true := by
  induction more generalizing first with
  | nil => simp
  | cons e more ih =>
      have hAnd : (Expr.binary .and first e).holds d n = (first.holds d n && e.holds d n) := rfl
      rw [List.foldl_cons, ih, hAnd, Bool.and_eq_true, List.forall_mem_cons, and_assoc]

/-- No conditions at all hold everywhere. -/
theorem holds_allOf {conditions : List Expr} :
    (Expr.allOf conditions).holds d n = true ↔ ∀ e ∈ conditions, e.holds d n = true := by
  cases conditions with
  | nil => exact ⟨fun _ => by simp, fun _ => rfl⟩
  | cons first more =>
      rw [List.forall_mem_cons]
      exact holds_foldl_and more first

theorem holds_foldl_or (more : List Expr) (first : Expr) :
    (more.foldl (.binary .or) first).holds d n = true ↔
      first.holds d n = true ∨ ∃ e ∈ more, e.holds d n = true := by
  induction more generalizing first with
  | nil => simp
  | cons e more ih =>
      have hOr : (Expr.binary .or first e).holds d n = (first.holds d n || e.holds d n) := rfl
      rw [List.foldl_cons, ih, hOr, Bool.or_eq_true, or_assoc]
      simp

/-- No alternatives at all hold nowhere. -/
theorem holds_anyOf {alternatives : List Expr} :
    (Expr.anyOf alternatives).holds d n = true ↔ ∃ e ∈ alternatives, e.holds d n = true := by
  cases alternatives with
  | nil =>
      have hNothing : (Expr.anyOf []).holds d n = false := rfl
      simp [hNothing]
  | cons first more =>
      have hOr := holds_foldl_or (d := d) (n := n) more first
      rw [Expr.anyOf, Expr.joined, hOr]
      simp

theorem value_foldl_union (paths : List LocationPath) (first : Expr) {list : List Node}
    (hFirst : first.value d c = .nodes list) :
    ((paths.map .path).foldl (.binary .union) first).value d c =
      .nodes (list ++ paths.flatMap (·.nodes d c)) := by
  induction paths generalizing first list with
  | nil => simp [hFirst]
  | cons path paths ih =>
      have hUnion : (Expr.binary .union first (.path path)).value d c =
          .nodes (list ++ path.nodes d c) := by
        rw [Expr.value, hFirst]
        rfl
      rw [List.map_cons, List.foldl_cons, ih _ hUnion, List.flatMap_cons, List.append_assoc]

/-- The value of a union is made of those of its paths, of which there has to be one. -/
theorem value_unionOf {paths : List LocationPath} (h : paths ≠ []) :
    (Expr.unionOf (paths.map .path)).value d c = .nodes (paths.flatMap (·.nodes d c)) := by
  obtain ⟨path, paths, rfl⟩ := List.exists_cons_of_ne_nil h
  exact value_foldl_union paths (.path path) rfl

/-- What a union selects, also where it has no paths. -/
theorem selected_unionOf (paths : List LocationPath) :
    (Expr.unionOf (paths.map .path)).selected d c = paths.flatMap (·.nodes d c) := by
  by_cases hNil : paths = []
  · rw [hNil]
    rfl
  · rw [Expr.selected, value_unionOf hNil]

/-- A union holds if one of its paths leads anywhere. -/
theorem holds_unionOf {paths : List LocationPath} :
    (Expr.unionOf (paths.map .path)).holds d n = true ↔
      ∃ m, ∃ path ∈ paths, m ∈ path.nodes d n := by
  by_cases hNil : paths = []
  · have hNothing : (Expr.unionOf []).holds d n = false := rfl
    simp [hNil, hNothing]
  · rw [Expr.holds, value_unionOf hNil, toTruth_nodes]
    simp only [List.mem_flatMap]

/-- Restricting keeps the nodes that satisfy all of the conditions. -/
theorem mem_nodes_restrict {conditions : List Expr}
    (h : ∀ e ∈ conditions, e.IsCondition conditionLevel) :
    n ∈ (path.restrict conditions).nodes d c ↔
      n ∈ path.nodes d c ∧ ∀ e ∈ conditions, e.holds d n = true := by
  rw [LocationPath.restrict]
  split
  · rename_i hEmpty
    obtain rfl : conditions = [] := by simpa using hEmpty
    simp
  · rw [mem_nodes_filter (isCondition_allOf h), holds_allOf]

end SelectorXPath.XPath
