import SelectorXPath.Compile
import SelectorXPath.Proofs.Translate.Cases
import SelectorXPath.Proofs.XPath.Axes
import SelectorXPath.Proofs.XPath.Legible
import SelectorXPath.Proofs.XPath.Selection

/-! What a selector means: a chain of elements, one for each of its compounds, that lie to each
other as the combinators say. The path of a selector leads to the elements at the ends of its
chains. What a compound asks of an element by itself is taken as it is emitted.

The text that a list is translated to, read by the grammar of XPath and evaluated at any node,
therefore selects what the list selects. -/

namespace SelectorXPath

open SelectorXPath.Text SelectorXPath.XPath

/-- How the elements of two neighbouring compounds lie to each other. -/
def Combinator.Relates (d : Document) : Combinator → Address → Address → Prop
  | .descendant, p, q => Document.IsBelow p q
  | .child, p, q => Document.IsChild p q
  | .adjacent, p, q => d.IsNextSibling p q
  | .sibling, p, q => Document.IsLaterSibling p q

/-- Where a scope looks for elements from a node. From an attribute it looks nowhere. -/
def Scope.Contains : Scope → Node → Address → Prop
  | .descendants, .tree p, q => Document.IsBelow p q
  | .descendantsOrSelf, .tree p, q => q = p ∨ Document.IsBelow p q
  | .children, .tree p, q => Document.IsChild p q
  | _, .attribute _ _, _ => False

namespace Translate

/-- An element satisfies all of the conditions that a compound is translated to. -/
def Satisfies (r : Resolver) (d : Document) (compound : Compound) (p : Address) : Prop :=
  ∃ conditions, compoundConditions r compound = .ok conditions ∧
    ∀ list ∈ conditions, ∀ condition ∈ list, condition.holds d (.tree p) = true

/-- The element is at the end of a chain of elements for the selector, the first of which the scope
contains. -/
inductive Chain (r : Resolver) (d : Document) (scope : Scope) (c : Node) :
    Complex → Address → Prop where
  | single {compound : Compound} {q : Address} (hElement : d.HasElement q)
      (hScope : scope.Contains c q) (hSatisfies : Satisfies r d compound q) :
      Chain r d scope c (.single compound) q
  | joined {left : Complex} {combinator : Combinator} {right : Compound} {p q : Address}
      (hLeft : Chain r d scope c left p) (hElement : d.HasElement q)
      (hRelates : combinator.Relates d p q) (hSatisfies : Satisfies r d right q) :
      Chain r d scope c (.joined left combinator right) q

/-- One of the selectors selects the element. -/
def Selects (r : Resolver) (d : Document) (scope : Scope) (c : Node) (list : SelectorList)
    (q : Address) : Prop :=
  ∃ selector ∈ list, Chain r d scope c selector q

variable {r : Resolver} {d : Document} {scope : Scope} {c n : Node} {path : LocationPath}
  {axis : Axis}

/-- At the end of a chain there is an element. -/
theorem Chain.hasElement {selector : Complex} {q : Address} (h : Chain r d scope c selector q) :
    d.HasElement q := by
  cases h with
  | single hElement => exact hElement
  | joined _ hElement => exact hElement

/-- Where the conditions of a compound are known, an element satisfies the compound if all of them
hold of it. -/
theorem satisfies_iff {compound : Compound} {conditions : List (List Expr)} {p : Address}
    (h : compoundConditions r compound = .ok conditions) :
    Satisfies r d compound p ↔
      ∀ list ∈ conditions, ∀ condition ∈ list, condition.holds d (.tree p) = true := by
  constructor
  · rintro ⟨own, hOwn, hHold⟩
    rw [h] at hOwn
    cases hOwn
    exact hHold
  · exact fun hHold => ⟨conditions, h, hHold⟩

/-- Narrowing keeps the nodes of which all conditions hold. It does not matter in which order they
are asked. -/
theorem mem_nodes_narrow {conditions : List (List Expr)}
    (h : ∀ list ∈ conditions, ∀ e ∈ list, e.IsCondition conditionLevel) :
    n ∈ (narrow path conditions).nodes d c ↔
      n ∈ path.nodes d c ∧ ∀ list ∈ conditions, ∀ e ∈ list, e.holds d n = true := by
  induction conditions generalizing path with
  | nil => simp [narrow]
  | cons list conditions ih =>
      rw [List.forall_mem_cons] at h
      rw [narrow, List.foldl_cons, ← narrow, ih h.2, mem_nodes_restrict h.1,
        List.forall_mem_cons, and_assoc]

/-- The first step leads to the elements in the scope. -/
theorem mem_nodes_elements :
    n ∈ (LocationPath.elements scope.axis).nodes d c ↔
      ∃ q, n = .tree q ∧ d.HasElement q ∧ scope.Contains c q := by
  rw [LocationPath.elements, mem_nodes_step]
  cases c with
  | tree p => cases scope <;> exact mem_reach_any (by decide)
  | «attribute» p i => cases scope <;> simp [reach, Scope.axis, Axis.nodes, Scope.Contains,
      Axis.isPrincipal]

/-- The step of a combinator leads from elements to the elements that lie to them so. -/
theorem mem_nodes_forward {combinator : Combinator}
    (hTrees : ∀ m ∈ path.nodes d c, ∃ p, m = .tree p) :
    n ∈ (forward path combinator).nodes d c ↔
      ∃ p, .tree p ∈ path.nodes d c ∧
        ∃ q, n = .tree q ∧ d.HasElement q ∧ combinator.Relates d p q := by
  have hNodes {P : Node → Prop} :
      (∃ m ∈ path.nodes d c, P m) ↔ ∃ p, .tree p ∈ path.nodes d c ∧ P (.tree p) := by
    constructor
    · rintro ⟨m, hMem, h⟩
      obtain ⟨p, rfl⟩ := hTrees m hMem
      exact ⟨p, hMem, h⟩
    · rintro ⟨p, hMem, h⟩
      exact ⟨.tree p, hMem, h⟩
  cases combinator with
  | adjacent =>
      rw [forward, mem_nodes_first_next, hNodes]
      simp only [head?_reach_followingSibling]
      rfl
  | _ =>
      rw [forward, mem_nodes_next, hNodes]
      exact exists_congr fun p => and_congr_right fun _ => mem_reach_any (by decide)

/-- The path of a selector leads to the ends of its chains, by induction on the chain. -/
theorem mem_nodes_complexPath : ∀ (selector : Complex) {path : LocationPath} {n : Node},
    selector.isWellFormed = true → complexPath r scope.axis selector = .ok path →
    (n ∈ path.nodes d c ↔ ∃ q, n = .tree q ∧ Chain r d scope c selector q)
  | .single compound, path, n, hWellFormed, h => by
      obtain ⟨conditions, hConditions, rfl⟩ := complexPath_single.mp h
      have hEach := isCondition_compoundConditions r compound hWellFormed hConditions
      rw [mem_nodes_narrow hEach, mem_nodes_elements]
      constructor
      · rintro ⟨⟨q, rfl, hElement, hScope⟩, hHold⟩
        exact ⟨q, rfl, .single hElement hScope ((satisfies_iff hConditions).mpr hHold)⟩
      · rintro ⟨q, rfl, hChain⟩
        cases hChain with
        | single hElement hScope hSatisfies =>
            exact ⟨⟨q, rfl, hElement, hScope⟩, (satisfies_iff hConditions).mp hSatisfies⟩
  | .joined left combinator right, path, n, hWellFormed, h => by
      rw [Complex.isWellFormed, Bool.and_eq_true] at hWellFormed
      obtain ⟨front, hFront, conditions, hConditions, rfl⟩ := complexPath_joined.mp h
      have hEach := isCondition_compoundConditions r right hWellFormed.2 hConditions
      have hLeft (m : Node) :
          m ∈ front.nodes d c ↔ ∃ p, m = .tree p ∧ Chain r d scope c left p :=
        mem_nodes_complexPath left hWellFormed.1 hFront
      have hTrees : ∀ m ∈ front.nodes d c, ∃ p, m = .tree p := by
        intro m hMem
        obtain ⟨p, hTree, -⟩ := (hLeft m).mp hMem
        exact ⟨p, hTree⟩
      rw [mem_nodes_narrow hEach, mem_nodes_forward hTrees]
      constructor
      · rintro ⟨⟨p, hMem, q, rfl, hElement, hRelates⟩, hHold⟩
        obtain ⟨p', hSame, hChain⟩ := (hLeft _).mp hMem
        cases hSame
        exact ⟨q, rfl, .joined hChain hElement hRelates ((satisfies_iff hConditions).mpr hHold)⟩
      · rintro ⟨q, rfl, hChain⟩
        cases hChain with
        | joined hBefore hElement hRelates hSatisfies =>
            exact ⟨⟨_, (hLeft _).mpr ⟨_, rfl, hBefore⟩, q, rfl, hElement, hRelates⟩,
              (satisfies_iff hConditions).mp hSatisfies⟩

/-- One of the paths of a list leads to a node if one of its selectors selects it. -/
theorem exists_mem_listPaths : ∀ (list : List Complex) {paths : List LocationPath},
    allWellFormed list = true → listPaths r scope.axis list = .ok paths →
    ((∃ path ∈ paths, n ∈ path.nodes d c) ↔ ∃ q, n = .tree q ∧ Selects r d scope c list q)
  | [], paths, _, h => by
      cases h
      simp [Selects]
  | selector :: list, paths, hWellFormed, h => by
      rw [allWellFormed, Bool.and_eq_true] at hWellFormed
      obtain ⟨path, hPath, more, hMore, rfl⟩ := listPaths_cons.mp h
      have hFirst := mem_nodes_complexPath (d := d) (c := c) (n := n) selector hWellFormed.1 hPath
      have hRest := exists_mem_listPaths list hWellFormed.2 hMore
      simp only [List.mem_cons, exists_eq_or_imp, hFirst, hRest, Selects, ← exists_or,
        ← and_or_left]

/-- The expression for a list selects what the list selects. -/
theorem mem_selected_listExpr {list : SelectorList} {e : Expr}
    (hWellFormed : listWellFormed list = true) (h : listExpr r scope list = .ok e) :
    n ∈ e.selected d c ↔ ∃ q, n = .tree q ∧ Selects r d scope c list q := by
  rw [listWellFormed, Bool.and_eq_true] at hWellFormed
  obtain ⟨paths, hPaths, rfl⟩ := listExpr_eq_ok_iff.mp h
  rw [selected_unionOf, List.mem_flatMap, exists_mem_listPaths list hWellFormed.2 hPaths]

/-- The condition holds of a node from which one of the paths leads somewhere. -/
theorem holds_leadsSomewhere {paths : List LocationPath} :
    (leadsSomewhere paths).holds d n = true ↔ ∃ m, ∃ path ∈ paths, m ∈ path.nodes d n := by
  rw [leadsSomewhere.eq_def]
  split
  · simp [holds_path]
  · rw [holds_group, holds_unionOf]

/-- The condition of `:has()` holds where the list selects an element below. -/
theorem holds_has {list : SelectorList} {paths : List LocationPath} {p : Address}
    (hWellFormed : listWellFormed list = true) (h : listPaths r .descendant list = .ok paths) :
    (leadsSomewhere paths).holds d (.tree p) = true ↔
      ∃ q, Selects r d .descendants (.tree p) list q := by
  rw [listWellFormed, Bool.and_eq_true] at hWellFormed
  have hEnds (m : Node) : (∃ path ∈ paths, m ∈ path.nodes d (.tree p)) ↔
      ∃ q, m = .tree q ∧ Selects r d .descendants (.tree p) list q :=
    exists_mem_listPaths list hWellFormed.2 h
  rw [holds_leadsSomewhere]
  simp only [hEnds]
  constructor
  · rintro ⟨m, q, -, hSelects⟩
    exact ⟨q, hSelects⟩
  · rintro ⟨q, hSelects⟩
    exact ⟨.tree q, q, rfl, hSelects⟩

/-- No axis is at fault if a selector has no path. -/
theorem complexPath_axis (axis' : Axis) : ∀ (selector : Complex) {path : LocationPath},
    complexPath r axis selector = .ok path → ∃ path', complexPath r axis' selector = .ok path'
  | .single compound, path, h => by
      obtain ⟨conditions, hConditions, -⟩ := complexPath_single.mp h
      exact ⟨_, complexPath_single.mpr ⟨conditions, hConditions, rfl⟩⟩
  | .joined left combinator right, path, h => by
      obtain ⟨front, hFront, conditions, hConditions, -⟩ := complexPath_joined.mp h
      obtain ⟨front', hFront'⟩ := complexPath_axis axis' left hFront
      exact ⟨_, complexPath_joined.mpr ⟨front', hFront', conditions, hConditions, rfl⟩⟩

/-- Where paths begin makes no difference to whether there are any. -/
theorem listPaths_axis (axis' : Axis) : ∀ (list : List Complex) {paths : List LocationPath},
    listPaths r axis list = .ok paths → ∃ paths', listPaths r axis' list = .ok paths'
  | [], _, _ => ⟨[], rfl⟩
  | selector :: list, paths, h => by
      obtain ⟨path, hPath, more, hMore, -⟩ := listPaths_cons.mp h
      obtain ⟨path', hPath'⟩ := complexPath_axis axis' selector hPath
      obtain ⟨more', hMore'⟩ := listPaths_axis axis' list hMore
      exact ⟨_, listPaths_cons.mpr ⟨path', hPath', more', hMore', rfl⟩⟩

/-- The text for a list is read as one expression, and its value at any node of any document is the
set of the elements that the list selects from there. `:has()` with the list holds where the list
selects an element below, wherever it stands. -/
theorem listText_selects {source text : Text} {limit : Nat} {list : SelectorList}
    {scope : Scope} (hParse : Selector.parse source limit = .ok list)
    (hText : listText r scope list = .ok text) :
    (∃ e : Expr, e.IsReadingOf text ∧ ∀ d c, ∃ nodes, e.value d c = .nodes nodes ∧
      ∀ n, n ∈ nodes ↔ ∃ q, n = .tree q ∧ Selects r d scope c list q) ∧
    ∀ around, ∃ condition, simpleConditions r around (.has list) = .ok [condition] ∧
      ∀ d p, condition.holds d (.tree p) = true ↔
        ∃ q, Selects r d .descendants (.tree p) list q := by
  have hWellFormed := Selector.listWellFormed_of_parse hParse
  obtain ⟨e, hExpr, rfl⟩ := listText_eq_ok_iff.mp hText
  have hFits := fits_listExpr hWellFormed hExpr
  constructor
  · refine ⟨e, isReadingOf_text hFits, fun d c => ?_⟩
    have hType := hFits.type_value d c
    have hSelected (n : Node) :
        n ∈ e.selected d c ↔ ∃ q, n = .tree q ∧ Selects r d scope c list q :=
      mem_selected_listExpr hWellFormed hExpr
    cases hValue : e.value d c with
    | nodes nodes =>
        refine ⟨nodes, rfl, fun n => ?_⟩
        rw [← hSelected, Expr.selected, hValue]
    | _ =>
        rw [hValue] at hType
        cases hType
  · intro around
    obtain ⟨paths, hPaths, -⟩ := listExpr_eq_ok_iff.mp hExpr
    obtain ⟨paths', hPaths'⟩ := listPaths_axis .descendant list hPaths
    refine ⟨leadsSomewhere paths', simpleConditions_has.mpr ⟨paths', hPaths', rfl⟩, ?_⟩
    exact fun d p => holds_has hWellFormed hPaths'

/-- Two selectors, with a combinator each and with `:has()`. -/
theorem listText_selects_of_combinators :
    ∃ list text, Selector.parse "a > b:has(c), d ~ e".toList 1 = .ok list ∧
      listText Registry.empty.toResolver .children list = .ok text ∧
      ∃ e : Expr, e.IsReadingOf text ∧ ∀ d c, ∃ nodes, e.value d c = .nodes nodes ∧
        ∀ n, n ∈ nodes ↔ ∃ q, n = .tree q ∧
          Selects Registry.empty.toResolver d .children c list q := by
  have hCompiles : ((Selector.parse "a > b:has(c), d ~ e".toList 1).bind
      (listText Registry.empty.toResolver .children)).isOk = true := by decide +kernel
  obtain ⟨list, text, hParse, hText⟩ := exists_ok_of_isOk_bind hCompiles
  obtain ⟨⟨e, hReading, hValue⟩, -⟩ := listText_selects hParse hText
  exact ⟨list, text, hParse, hText, e, hReading, hValue⟩

end Translate

end SelectorXPath
