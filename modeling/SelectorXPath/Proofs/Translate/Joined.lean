import SelectorXPath.Compile
import SelectorXPath.Proofs.Translate.Moved

/-! Sources that are joined compile to texts that are joined. A comma puts the sign of a union
between the two texts. A combinator puts a step between them: what is written for a chain begins
with one step along the axis of the scope, and all that follows is written behind any other step
just as well. -/

namespace SelectorXPath

open SelectorXPath.Text SelectorXPath.XPath

namespace XPath

/-- A row of operands is written with the operator between them. -/
theorem text_foldl_binary (operator : Operator) (first : Expr) (more : List Expr) :
    (more.foldl (Expr.binary operator) first).text =
      first.text ++ more.flatMap fun e => operator.spelling ++ e.text := by
  induction more generalizing first with
  | nil => simp
  | cons e more ih =>
      have hBinary : (Expr.binary operator first e).text =
          first.text ++ (operator.spelling ++ e.text) :=
        first.write_eq_append _
      rw [List.foldl_cons, ih, hBinary, List.flatMap_cons, List.append_assoc]

/-- The union of two unions is written as both, with the sign in between. -/
theorem text_unionOf_append {these those : List Expr} (hThese : these ≠ []) (hThose : those ≠ []) :
    (Expr.unionOf (these ++ those)).text =
      (Expr.unionOf these).text ++ (Operator.union.spelling ++ (Expr.unionOf those).text) := by
  obtain ⟨first, more, rfl⟩ := List.exists_cons_of_ne_nil hThese
  obtain ⟨first', more', rfl⟩ := List.exists_cons_of_ne_nil hThose
  simp only [Expr.unionOf, Expr.joined, List.cons_append, text_foldl_binary, List.flatMap_append,
    List.flatMap_cons, List.append_assoc]

end XPath

namespace Translate

variable {r : Resolver} {list more : List Complex}

/-- Two lists one behind the other are translated one by one. -/
theorem listPaths_append {axis : Axis} {paths : List LocationPath}
    (h : listPaths r axis list = .ok paths) :
    listPaths r axis (list ++ more) = (listPaths r axis more).map (paths ++ ·) := by
  induction list generalizing paths with
  | nil =>
      cases h
      cases hMore : listPaths r axis more <;> rw [List.nil_append, hMore] <;> rfl
  | cons selector list ih =>
      obtain ⟨path, hPath, tail, hTail, rfl⟩ := listPaths_cons.mp h
      rw [List.cons_append, listPaths, hPath, ih hTail]
      cases listPaths r axis more <;> rfl

/-- Behind a list that is translated more selectors are translated on their own. -/
theorem listText_append {scope : Scope} {text : Text} (hList : list ≠ []) (hMore : more ≠ [])
    (h : listText r scope list = .ok text) :
    listText r scope (list ++ more) =
      (listText r scope more).map (text ++ " | ".toList ++ ·) := by
  obtain ⟨e, hExpr, rfl⟩ := listText_eq_ok_iff.mp h
  obtain ⟨paths, hPaths, rfl⟩ := listExpr_eq_ok_iff.mp hExpr
  rw [listText, listText, listExpr, listExpr, listPaths_append hPaths]
  cases hBehind : listPaths r scope.axis more with
  | error e => rfl
  | ok paths' =>
      have hThese : paths.map Expr.path ≠ [] := by simpa using listPaths_ne_nil hList hPaths
      have hThose : paths'.map Expr.path ≠ [] := by simpa using listPaths_ne_nil hMore hBehind
      have hText := text_unionOf_append hThese hThose
      rw [← List.map_append] at hText
      exact congrArg Except.ok (hText.trans (List.append_assoc ..).symm)

end Translate

open Translate

/-- A comma joins compilations. Behind a source that compiles and a comma, another source adds its
text behind the sign of the union, or its error, further to the right. -/
theorem compile_separated {first : Text} {r : Resolver} {options : Options} {text : Text}
    (h : compile first r options = .ok text) (second : Text) :
    compile (first ++ ',' :: second) r options =
      ((compile second r options).map (text ++ " | ".toList ++ ·)).mapError
        (SelectorError.moved (first.byteLength + 1)) := by
  rw [compile, bind_eq_ok_iff] at h
  obtain ⟨list, hParse, hText⟩ := h
  rcases Selector.parse_separated hParse second with
    ⟨more, more', hMore, hJoined, hSame⟩ | ⟨e, hError, hJoined⟩
  · have hBoth : compile (first ++ ',' :: second) r options =
        listText r options.scope (list ++ more') := by
      rw [compile, hJoined]
      rfl
    have hSecond : compile second r options = listText r options.scope more := by
      rw [compile, hMore]
      rfl
    have hMore' : more' ≠ [] := by
      rintro rfl
      obtain ⟨selector, more, rfl⟩ := List.exists_cons_of_ne_nil (Selector.ne_nil_of_parse hMore)
      simp [ListParallel] at hSame
    rw [hBoth, hSecond, listText_append (Selector.ne_nil_of_parse hParse) hMore' hText,
      listText_moved hSame]
    cases listText r options.scope more <;> rfl
  · rw [compile, compile, hError, hJoined]
    rfl

/-- A name that ends in an escape in front of the comma, and a parenthesis left open behind it. -/
theorem compile_separated_of_escape :
    (compile "a\\41".toList Registry.empty.toResolver {}).isOk = true ∧
      (∃ text, compile "a\\41".toList Registry.empty.toResolver {} = .ok text ∧
        compile "a\\41, b".toList Registry.empty.toResolver {} =
          .ok (text ++ " | descendant::*[name()='b']".toList)) ∧
      compile "a\\41,:not(b".toList Registry.empty.toResolver {} =
        .error (.grammatical ⟨11, .delimiter ')'⟩) := by
  have hOk : (compile "a\\41".toList Registry.empty.toResolver {}).isOk = true := by decide +kernel
  have hPlain : compile " b".toList Registry.empty.toResolver {} =
      .ok "descendant::*[name()='b']".toList := by decide +kernel
  have hOpen : compile ":not(b".toList Registry.empty.toResolver {} =
      .error (.grammatical ⟨6, .delimiter ')'⟩) := by decide +kernel
  obtain ⟨text, hText⟩ := exists_ok_of_isOk hOk
  have hFirst := compile_separated hText " b".toList
  have hSecond := compile_separated hText ":not(b".toList
  rw [hPlain] at hFirst
  rw [hOpen] at hSecond
  exact ⟨hOk, ⟨text, hText, hFirst.trans (congrArg Except.ok (List.append_assoc ..))⟩, hSecond⟩

/-- The text of two chains with a combinator between them, the one on the right written for
children. The next sibling is counted before anything else is asked of it. -/
def Combinator.joinedText (left right : Text) : Combinator → Text
  | .descendant => left ++ "/descendant::".toList ++ right
  | .child => left ++ "/".toList ++ right
  | .adjacent => left ++ "/following-sibling::*[1]".toList ++ right.drop 1
  | .sibling => left ++ "/following-sibling::".toList ++ right

/-- What stands in front of a chain stays in front. -/
theorem Combinator.joinedText_append_left (left more right : Text) (combinator : Combinator) :
    combinator.joinedText (left ++ more) right = left ++ combinator.joinedText more right := by
  cases combinator <;> simp only [joinedText, List.append_assoc]

/-- What stands behind it stays behind. -/
theorem Combinator.joinedText_append_right {right : Text} (h : right ≠ []) (left more : Text)
    (combinator : Combinator) :
    combinator.joinedText left (right ++ more) = combinator.joinedText left right ++ more := by
  have hDrop : (right ++ more).drop 1 = right.drop 1 ++ more :=
    List.drop_append_of_le_length (List.length_pos_of_ne_nil h)
  cases combinator <;> simp only [joinedText, List.append_assoc, hDrop]

/-- It makes no difference where a chain of three is cut. -/
theorem Combinator.joinedText_assoc {y : Text} (h : y ≠ []) (x z : Text)
    (combinator combinator' : Combinator) :
    combinator'.joinedText (combinator.joinedText x y) z =
      combinator.joinedText x (combinator'.joinedText y z) := by
  rw [← List.append_nil (combinator.joinedText x y), joinedText_append_left,
    ← joinedText_append_right h, ← joinedText_append_left, List.append_nil]

namespace Translate

variable {r : Resolver} {axis : Axis} {path : LocationPath}

/-- Conditions are written behind the path that they narrow. -/
theorem exists_write_narrow (conditions : List (List Expr)) :
    ∃ tail, ∀ path, (narrow path conditions).write [] = path.write [] ++ tail := by
  induction conditions with
  | nil => exact ⟨[], fun path => (List.append_nil _).symm⟩
  | cons list conditions ih =>
      obtain ⟨tail, hTail⟩ := ih
      have hRestrict : ∃ front, ∀ path : LocationPath,
          (path.restrict list).write [] = path.write [] ++ front := by
        by_cases hList : list.isEmpty
        · exact ⟨[], fun path => by rw [LocationPath.restrict, if_pos hList, List.append_nil]⟩
        · refine ⟨'[' :: (Expr.allOf list).write [']'], fun path => ?_⟩
          rw [LocationPath.restrict, if_neg hList, LocationPath.write, path.write_eq_append]
      obtain ⟨front, hFront⟩ := hRestrict
      refine ⟨front ++ tail, fun path => ?_⟩
      rw [narrow, List.foldl_cons, ← narrow, hTail, hFront, List.append_assoc]

/-- A combinator alone is written like the step to any element. -/
theorem write_forward (path : LocationPath) (combinator : Combinator) :
    (forward path combinator).write [] = combinator.joinedText (path.write []) ['*'] := by
  rw [← List.append_nil (path.write []), Combinator.joinedText_append_left]
  cases combinator <;> simp only [forward, LocationPath.write, Expr.write] <;>
    rw [path.write_eq_append] <;> rfl

/-- What is written behind the first step of a chain is written for the chain wherever it goes on
from. -/
theorem exists_write_linked : ∀ {right : Complex} {path : LocationPath},
    complexPath r axis right = .ok path →
    ∃ tail, path.write [] = (LocationPath.elements axis).write [] ++ tail ∧
      ∀ {axis' : Axis} {left : Complex} {front : LocationPath} (combinator : Combinator),
        complexPath r axis' left = .ok front →
        ∃ path', complexPath r axis' (left.linked combinator right) = .ok path' ∧
          path'.write [] = (forward front combinator).write [] ++ tail
  | .single compound, path, h => by
      obtain ⟨conditions, hConditions, rfl⟩ := complexPath_single.mp h
      obtain ⟨tail, hTail⟩ := exists_write_narrow conditions
      refine ⟨tail, hTail _, fun combinator hLeft => ?_⟩
      exact ⟨_, complexPath_joined.mpr ⟨_, hLeft, _, hConditions, rfl⟩, hTail _⟩
  | .joined middle combinator' right, path, h => by
      obtain ⟨inner, hInner, conditions, hConditions, rfl⟩ := complexPath_joined.mp h
      obtain ⟨tail, hTail, hLinked⟩ := exists_write_linked hInner
      obtain ⟨more, hMore⟩ := exists_write_narrow conditions
      refine ⟨combinator'.joinedText tail ['*'] ++ more, ?_, fun combinator hLeft => ?_⟩
      · rw [hMore, write_forward, hTail, Combinator.joinedText_append_left, List.append_assoc]
      · obtain ⟨path', hPath', hText⟩ := hLinked combinator hLeft
        refine ⟨_, complexPath_joined.mpr ⟨path', hPath', _, hConditions, rfl⟩, ?_⟩
        rw [hMore, write_forward, hText, Combinator.joinedText_append_left, List.append_assoc]

/-- The path of a single selector is all that is written for it. -/
theorem listText_singleton {scope : Scope} {selector : Complex} {text : Text} :
    listText r scope [selector] = .ok text ↔
      ∃ path, complexPath r scope.axis selector = .ok path ∧ text = path.write [] := by
  rw [listText_eq_ok_iff]
  constructor
  · rintro ⟨e, hExpr, rfl⟩
    obtain ⟨paths, hPaths, rfl⟩ := listExpr_eq_ok_iff.mp hExpr
    obtain ⟨path, hPath, more, hMore, rfl⟩ := listPaths_cons.mp hPaths
    cases hMore
    exact ⟨path, hPath, rfl⟩
  · rintro ⟨path, hPath, rfl⟩
    exact ⟨_, listExpr_eq_ok_iff.mpr ⟨_, listPaths_cons.mpr ⟨path, hPath, [], rfl, rfl⟩, rfl⟩, rfl⟩

/-- The text of a chain for children begins with an asterisk, and it is what makes the text of any
chain in front of it that of both. -/
theorem listText_linked {scope : Scope} {left right : Complex} {x y : Text}
    (hLeft : listText r scope [left] = .ok x) (hRight : listText r .children [right] = .ok y) :
    y.head? = some '*' ∧ ∀ combinator : Combinator,
      listText r scope [left.linked combinator right] = .ok (combinator.joinedText x y) := by
  obtain ⟨front, hFront, rfl⟩ := listText_singleton.mp hLeft
  obtain ⟨path, hPath, rfl⟩ := listText_singleton.mp hRight
  obtain ⟨tail, hTail, hLinked⟩ := exists_write_linked hPath
  have hChildren : path.write [] = ['*'] ++ tail := hTail
  refine ⟨by rw [hChildren]; rfl, fun combinator => ?_⟩
  obtain ⟨path', hPath', hText⟩ := hLinked combinator hFront
  refine listText_singleton.mpr ⟨path', hPath', ?_⟩
  rw [hText, hChildren, write_forward, Combinator.joinedText_append_right (List.cons_ne_nil _ _)]

end Translate

variable {first second : Text} {r : Resolver} {scope : Scope} {limit : Nat} {left right : Complex}
  {c : Char} {combinator : Combinator} {x y : Text}

/-- A combinator joins compilations. With its sign between two sources that are one selector each,
the two are one selector again, and its text is made of the texts of the two, the second one written
for children. What is made of three texts does not depend on which two are joined first. -/
theorem compile_linked (hFirst : Selector.parse first limit = .ok [left])
    (hSecond : Selector.parse second limit = .ok [right])
    (hLeft : compile first r ⟨scope, limit⟩ = .ok x)
    (hRight : compile second r ⟨.children, limit⟩ = .ok y)
    (hSymbol : Combinator.ofSymbol? [c] = some combinator) :
    (∃ selector, Selector.parse (first ++ c :: second) limit = .ok [selector]) ∧
      compile (first ++ c :: second) r ⟨scope, limit⟩ = .ok (combinator.joinedText x y) ∧
      y.head? = some '*' ∧ ∀ (combinator' : Combinator) (z : Text),
        combinator'.joinedText (combinator.joinedText x y) z =
          combinator.joinedText x (combinator'.joinedText y z) := by
  obtain ⟨selector, hBoth, hSame⟩ := Selector.parse_linked hFirst hSecond hSymbol
  have hText (scope : Scope) {source : Text} {selector : Complex}
      (h : Selector.parse source limit = .ok [selector]) :
      compile source r ⟨scope, limit⟩ = listText r scope [selector] := by
    rw [compile, h]
    rfl
  rw [hText _ hFirst] at hLeft
  rw [hText _ hSecond] at hRight
  obtain ⟨hHead, hLinked⟩ := listText_linked hLeft hRight
  have hSome : y ≠ [] := by
    rintro rfl
    cases hHead
  refine ⟨⟨selector, hBoth⟩, ?_, hHead, fun combinator' z =>
    Combinator.joinedText_assoc hSome x z combinator combinator'⟩
  rw [hText _ hBoth]
  exact (listText_of_unplaced (by simp only [listUnplaced, hSame])).mpr (hLinked combinator)

/-- A list of which the length is known to be one has one member. -/
theorem exists_singleton_of_length {ε α : Type} {e : Except ε (List α)}
    (h : e.toOption.map List.length = some 1) : ∃ a, e = .ok [a] := by
  cases e with
  | error e => cases h
  | ok as =>
      obtain ⟨a, rfl⟩ := List.length_eq_one_iff.mp (Option.some.inj h)
      exact ⟨a, rfl⟩

/-- White space that belongs to an escape in front of the sign, and a comment behind it. -/
theorem compile_linked_of_escape :
    compile "a\\41 ".toList Registry.empty.toResolver ⟨.descendants, 1⟩ =
        .ok "descendant::*[name()='aA']".toList ∧
      compile "/*+*/ b~c".toList Registry.empty.toResolver ⟨.children, 1⟩ =
        .ok "*[name()='b']/following-sibling::*[name()='c']".toList ∧
      compile "a\\41 +/*+*/ b~c".toList Registry.empty.toResolver ⟨.descendants, 1⟩ =
        .ok (Combinator.adjacent.joinedText "descendant::*[name()='aA']".toList
          "*[name()='b']/following-sibling::*[name()='c']".toList) := by
  have hLeft : compile "a\\41 ".toList Registry.empty.toResolver ⟨.descendants, 1⟩ =
      .ok "descendant::*[name()='aA']".toList := by decide +kernel
  have hRight : compile "/*+*/ b~c".toList Registry.empty.toResolver ⟨.children, 1⟩ =
      .ok "*[name()='b']/following-sibling::*[name()='c']".toList := by decide +kernel
  have hFirst : (Selector.parse "a\\41 ".toList 1).toOption.map List.length = some 1 := by
    decide +kernel
  have hSecond : (Selector.parse "/*+*/ b~c".toList 1).toOption.map List.length = some 1 := by
    decide +kernel
  obtain ⟨left, hFirst⟩ := exists_singleton_of_length hFirst
  obtain ⟨right, hSecond⟩ := exists_singleton_of_length hSecond
  exact ⟨hLeft, hRight, (compile_linked hFirst hSecond hLeft hRight (c := '+') rfl).2.1⟩

end SelectorXPath
