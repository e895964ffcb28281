import Mathlib.Data.List.Basic
import Mathlib.Data.List.Infix
import Mathlib.Data.List.SplitBy
import SelectorXPath.Proofs.XPath.Quoted
import SelectorXPath.Proofs.XPath.Selection
import SelectorXPath.Proofs.XPath.Syntax

/-! The words of a text, and how XPath finds one of them. The text is written again with one space
in front of every word and behind it, and the word is looked for with a space at both ends. A word
with a space inside is found so too, where its parts are neighbours. -/

namespace SelectorXPath.XPath

open SelectorXPath.Text

/-- The words of a text, which white space separates. -/
def words (t : Text) : List Text :=
  (t.splitOnP isXmlSpace).filter (· ≠ [])

section

variable {s t w : Text} {c : Char}

/-- A space separates the words in front of it from those behind. -/
theorem words_append_space (hSpace : isXmlSpace c = true) (s t : Text) :
    words (s ++ c :: t) = words s ++ words t := by
  rw [words, List.splitOnP_append_cons s t hSpace, List.filter_append]
  rfl

/-- White space in front of a text adds no word. -/
theorem words_cons_space (hSpace : isXmlSpace c = true) (t : Text) : words (c :: t) = words t :=
  words_append_space hSpace [] t

theorem words_spaces_append (h : ∀ c ∈ s, isXmlSpace c = true) (t : Text) :
    words (s ++ t) = words t := by
  induction s with
  | nil => rfl
  | cons c s ih =>
      rw [List.forall_mem_cons] at h
      rw [List.cons_append, words_cons_space h.1, ih h.2]

/-- Without white space a text is one word. -/
theorem words_eq_singleton (hNe : w ≠ []) (h : ∀ c ∈ w, isXmlSpace c = false) : words w = [w] := by
  rw [words, List.splitOnP_eq_singleton h, List.filter_singleton]
  simp [hNe]

/-- A word ends where white space begins. -/
theorem words_append_of_head (hNe : w ≠ []) (h : ∀ c ∈ w, isXmlSpace c = false)
    (hHead : ∀ c ∈ t.head?, isXmlSpace c = true) : words (w ++ t) = w :: words t := by
  cases t with
  | nil =>
      rw [List.append_nil, words_eq_singleton hNe h]
      rfl
  | cons c t =>
      have hSpace := hHead c rfl
      rw [words_append_space hSpace, words_eq_singleton hNe h, words_cons_space hSpace,
        List.singleton_append]

/-- What a text is split at lies in none of the pieces. -/
theorem eq_false_of_splitOnP (p : Char → Bool) (t : Text) :
    ∀ piece ∈ t.splitOnP p, ∀ c ∈ piece, p c = false := by
  induction t with
  | nil => simp
  | cons c t ih =>
      rw [List.splitOnP_cons_eq_if_modifyHead]
      split
      · exact List.forall_mem_cons.mpr ⟨List.forall_mem_nil _, ih⟩
      · rename_i hKeep
        obtain ⟨first, more, hPieces⟩ := List.exists_cons_of_ne_nil (List.splitOnP_ne_nil p t)
        rw [hPieces, List.forall_mem_cons] at ih
        rw [hPieces, List.modifyHead_cons, List.forall_mem_cons, List.forall_mem_cons]
        exact ⟨⟨eq_false_of_ne_true hKeep, ih.1⟩, ih.2⟩

/-- No word holds white space. -/
theorem not_isXmlSpace_of_mem_words (h : w ∈ words t) : ∀ c ∈ w, isXmlSpace c = false :=
  eq_false_of_splitOnP isXmlSpace t w (List.mem_filter.mp h).1

/-- No word holds a space. -/
theorem space_notMem_of_mem_words (h : w ∈ words t) : ' ' ∉ w := by
  intro hSpace
  cases not_isXmlSpace_of_mem_words h ' ' hSpace

theorem space_notMem_of_mem_splitOn (h : w ∈ t.splitOn ' ') : ' ' ∉ w := by
  rw [List.splitOn_eq_splitOnP] at h
  intro hSpace
  cases eq_false_of_splitOnP _ t w h ' ' hSpace

end

/-- Runs of characters that are all white space or all none, in turn. -/
theorem words_flatten {runs : List Text} (hNe : ∀ run ∈ runs, run ≠ [])
    (hRuns : ∀ run ∈ runs, run.IsChain fun c c' => isXmlSpace c = isXmlSpace c')
    (hTurns : runs.IsChain fun run run' => ∀ c ∈ run.getLast?, ∀ c' ∈ run'.head?,
      isXmlSpace c ≠ isXmlSpace c') :
    words runs.flatten = runs.filter fun run => !run.any isXmlSpace := by
  induction runs with
  | nil => rfl
  | cons run runs ih =>
      rw [List.forall_mem_cons] at hNe hRuns
      rw [List.isChain_cons] at hTurns
      have hMore := ih hNe.2 hRuns.2 hTurns.2
      obtain ⟨c, run, rfl⟩ := List.exists_cons_of_ne_nil hNe.1
      have hTrans : Trans (fun c c' => isXmlSpace c = isXmlSpace c')
          (fun c c' => isXmlSpace c = isXmlSpace c')
          (fun c c' => isXmlSpace c = isXmlSpace c') := ⟨Eq.trans⟩
      have hSame : ∀ c' ∈ c :: run, isXmlSpace c' = isXmlSpace c :=
        List.forall_mem_cons.mpr ⟨rfl, fun c' hc' => (hRuns.1.rel_cons hc').symm⟩
      rw [List.flatten_cons]
      cases hSpace : isXmlSpace c with
      | true =>
          have hAny : (c :: run).any isXmlSpace = true := by simp [hSpace]
          rw [words_spaces_append (fun c' hc' => (hSame c' hc').trans hSpace), hMore,
            List.filter_cons_of_neg (by simp [hAny])]
      | false =>
          have hPlain : ∀ c' ∈ c :: run, isXmlSpace c' = false :=
            fun c' hc' => (hSame c' hc').trans hSpace
          have hAny : (c :: run).any isXmlSpace = false :=
            List.any_eq_false.mpr (by simpa using hPlain)
          -- What follows is a run of its own, so it begins with white space.
          have hHead : ∀ c' ∈ runs.flatten.head?, isXmlSpace c' = true := by
            intro c' hc'
            cases runs with
            | nil => cases hc'
            | cons next runs =>
                obtain ⟨e, next, rfl⟩ := List.exists_cons_of_ne_nil (hNe.2 _ List.mem_cons_self)
                obtain rfl : e = c' := by simpa using hc'
                have hLast := List.getLast_mem hNe.1
                have hTurn := hTurns.1 (e :: next) rfl _ (List.getLast_mem_getLast? hNe.1) e rfl
                rw [hPlain _ hLast] at hTurn
                exact eq_true_of_ne_false hTurn.symm
          rw [words_append_of_head hNe.1 hPlain hHead, hMore,
            List.filter_cons_of_pos (by simp [hAny])]

/-- White space is normal where one space stands between two words, and none elsewhere. -/
theorem collapseSpace_eq (t : Text) : collapseSpace t = [' '].intercalate (words t) := by
  have hSpace : (fun c => decide (c ∈ [' ', '\t', '\n', '\r'])) = isXmlSpace := by
    funext c
    simp [isXmlSpace, Bool.or_assoc]
  have hCollapse : collapseSpace t = [' '].intercalate
      ((t.splitBy fun c c' => isXmlSpace c = isXmlSpace c').filter
        fun run => !run.any isXmlSpace) := by
    rw [← hSpace]
    rfl
  rw [hCollapse]
  congr 1
  conv_rhs => rw [← List.flatten_splitBy (fun c c' => isXmlSpace c = isXmlSpace c') t]
  refine (words_flatten (fun run hRun => List.ne_nil_of_mem_splitBy hRun) ?_ ?_).symm
  · intro run hRun
    exact (List.isChain_of_mem_splitBy hRun).imp fun c c' => of_decide_eq_true
  · refine (List.isChain_getLast_head_splitBy _ t).imp ?_
    rintro run run' ⟨hNe, hNe', hDiffer⟩ c hc c' hc'
    rw [← List.getLast_of_mem_getLast? hc, ← List.head_of_mem_head? hc']
    exact of_decide_eq_false hDiffer

def spaced (pieces : List Text) : Text :=
  pieces.flatMap (· ++ [' '])

section

variable {piece w : Text} {pieces ws : List Text}

theorem spaced_cons (piece : Text) (pieces : List Text) :
    spaced (piece :: pieces) = piece ++ ' ' :: spaced pieces := by
  simp [spaced]

/-- Texts with a space behind each are texts with spaces between them and one at the end. -/
theorem spaced_eq_intercalate (hNe : pieces ≠ []) :
    spaced pieces = [' '].intercalate pieces ++ [' '] := by
  induction pieces with
  | nil => exact absurd rfl hNe
  | cons piece pieces ih =>
      cases pieces with
      | nil => simp [spaced]
      | cons next pieces =>
          rw [spaced_cons, ih (List.cons_ne_nil next pieces), List.intercalate_cons_cons]
          simp

/-- Splitting at spaces loses nothing but the spaces. -/
theorem spaced_splitOn (w : Text) : spaced (w.splitOn ' ') = w ++ [' '] := by
  rw [spaced_eq_intercalate (List.splitOn_ne_nil ' ' w), List.intercalate_splitOn]

/-- The space behind a text tells where it ends. -/
theorem append_space_inj {l m : Text} (hPiece : ' ' ∉ piece) (hWord : ' ' ∉ w)
    (h : piece ++ ' ' :: l = w ++ ' ' :: m) : piece = w ∧ l = m := by
  induction piece generalizing w with
  | nil =>
      cases w with
      | nil => exact ⟨rfl, (List.cons.inj h).2⟩
      | cons c w => exact absurd (List.mem_cons.mpr (.inl (List.cons.inj h).1)) hWord
  | cons c piece ih =>
      rw [List.mem_cons, not_or] at hPiece
      cases w with
      | nil => exact absurd (List.cons.inj h).1.symm hPiece.1
      | cons c' w =>
          rw [List.mem_cons, not_or] at hWord
          obtain ⟨rfl, hMore⟩ := List.cons.inj h
          obtain ⟨rfl, hRest⟩ := ih hPiece.2 hWord.2 hMore
          exact ⟨rfl, hRest⟩

/-- Texts without spaces are told apart by the spaces behind them. -/
theorem spaced_prefix_iff (hPieces : ∀ piece ∈ pieces, ' ' ∉ piece) (hWords : ∀ w ∈ ws, ' ' ∉ w) :
    spaced pieces <+: spaced ws ↔ pieces <+: ws := by
  induction pieces generalizing ws with
  | nil => simp [spaced]
  | cons piece pieces ih =>
      rw [List.forall_mem_cons] at hPieces
      cases ws with
      | nil => simp [spaced]
      | cons w ws =>
          rw [List.forall_mem_cons] at hWords
          rw [spaced_cons, spaced_cons, List.cons_prefix_cons, ← ih hPieces.2 hWords.2]
          constructor
          · rintro ⟨rest, hRest⟩
            rw [List.append_assoc, List.cons_append] at hRest
            obtain ⟨rfl, hMore⟩ := append_space_inj hPieces.1 hWords.1 hRest
            exact ⟨rfl, rest, hMore⟩
          · rintro ⟨rfl, rest, hRest⟩
            exact ⟨rest, by simp [← hRest]⟩

/-- A part that begins with a character which the text in front lacks lies behind that text. -/
theorem infix_append_of_notMem {l m : Text} {c : Char} (h : c ∉ w) :
    c :: l <:+: w ++ m ↔ c :: l <:+: m := by
  induction w with
  | nil => rfl
  | cons d w ih =>
      rw [List.mem_cons, not_or] at h
      rw [List.cons_append, List.infix_cons_iff, List.cons_prefix_cons, ih h.2]
      simp [h.1]

/-- Several pieces stand together in a text where the words are the pieces. -/
theorem spaced_infix_iff (hNe : pieces ≠ []) (hPieces : ∀ piece ∈ pieces, ' ' ∉ piece)
    (hWords : ∀ w ∈ ws, ' ' ∉ w) :
    ' ' :: spaced pieces <:+: ' ' :: spaced ws ↔ pieces <:+: ws := by
  induction ws with
  | nil =>
      obtain ⟨piece, pieces, rfl⟩ := List.exists_cons_of_ne_nil hNe
      simp [spaced, List.infix_singleton_iff]
  | cons w ws ih =>
      rw [List.infix_cons_iff, List.cons_prefix_cons, spaced_prefix_iff hPieces hWords,
        List.infix_cons_iff]
      rw [List.forall_mem_cons] at hWords
      rw [spaced_cons, infix_append_of_notMem hWords.1, ih hWords.2]
      simp

/-- A text with a space at both ends stands in the normal form of another. -/
theorem padded_infix_iff (hNe : w ≠ []) (t : Text) :
    ' ' :: w ++ [' '] <:+: ' ' :: collapseSpace t ++ [' '] ↔ w.splitOn ' ' <:+: words t := by
  rw [collapseSpace_eq]
  by_cases hWords : words t = []
  · -- Without words there are two spaces, and nothing between them.
    have hNone : w.splitOn ' ' ≠ [] := List.splitOn_ne_nil ' ' w
    have hLength : 0 < w.length := List.length_pos_iff.mpr hNe
    rw [hWords, List.infix_nil]
    refine iff_of_false (fun h => ?_) hNone
    have hBound := h.length_le
    simp only [List.length_append, List.length_cons, List.intercalate_nil, List.length_nil]
      at hBound
    omega
  · rw [List.cons_append, List.cons_append, ← spaced_eq_intercalate hWords, ← spaced_splitOn,
      spaced_infix_iff (List.splitOn_ne_nil ' ' w) (fun _ => space_notMem_of_mem_splitOn)
        fun _ => space_notMem_of_mem_words]

end

section

variable {d : Document} {n : Node} {e : Expr} {w : Text}

/-- White space is made normal, so it does not matter which of it a text has between its words. -/
theorem holds_hasWord (hNe : w ≠ []) :
    (Expr.hasWord e w).holds d n = true ↔ w.splitOn ' ' <:+: words ((e.value d n).toText d) := by
  have hPadded : (Expr.paddedWords e).value d n =
      .text (' ' :: collapseSpace ((e.value d n).toText d) ++ [' ']) := by
    have hNormal : (Expr.call .normalizeSpace [e]).value d n =
        .text (collapseSpace ((e.value d n).toText d)) := by
      rw [Expr.value, valuesOf, valuesOf]
      rfl
    rw [Expr.paddedWords, Expr.value, valuesOf, valuesOf, valuesOf, valuesOf, value_quote, hNormal]
    rfl
  have hValue : (Expr.hasWord e w).value d n = .truth (decide (' ' :: w ++ [' '] <:+:
      ' ' :: collapseSpace ((e.value d n).toText d) ++ [' '])) := by
    rw [Expr.hasWord, Expr.value, valuesOf, valuesOf, valuesOf, hPadded, value_quote]
    rfl
  rw [Expr.holds, hValue, Value.toTruth, decide_eq_true_iff, padded_infix_iff hNe]

/-- What has no space in it is found where it is a word. -/
theorem holds_hasWord_iff_mem (hNe : w ≠ []) (hSpace : ' ' ∉ w) :
    (Expr.hasWord e w).holds d n = true ↔ w ∈ words ((e.value d n).toText d) := by
  rw [holds_hasWord hNe, List.splitOn_eq_singleton hSpace, List.singleton_infix_iff]

end

end SelectorXPath.XPath
