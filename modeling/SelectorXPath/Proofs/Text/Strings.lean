import SelectorXPath.Proofs.Text.Spelling
import SelectorXPath.Text.Basic

/-! The insides of strings and the texts that they stand for. Marks and backslashes are protected by
a backslash in front of them, and no other character is. So every text has one inside, and an inside
stands for one text. -/

namespace SelectorXPath

open SelectorXPath.Text

namespace QuoteMark

variable {mark : QuoteMark} {c : Char}

/-- The characters that stand for themselves between two marks. -/
def isPlain (mark : QuoteMark) (c : Char) : Bool :=
  c ≠ '\\' ∧ c ≠ mark.char

/-- Inside of a string all characters stand for themselves but the backslash and the mark. -/
theorem isPlain_iff : mark.isPlain c = true ↔ c ≠ '\\' ∧ c ≠ mark.char := by
  simp [isPlain]

theorem isPlain_eq_false_iff : mark.isPlain c = false ↔ c = mark.char ∨ c = '\\' := by
  rw [Bool.eq_false_iff, Ne, isPlain_iff, not_and_or, not_not, not_not, or_comm]

/-- The two characters that need a backslash are different ones. -/
theorem char_ne_backslash (mark : QuoteMark) : mark.char ≠ '\\' := by
  cases mark <;> decide

def guarded (mark : QuoteMark) (c : Char) : Text :=
  if mark.isPlain c then [c] else ['\\', c]

/-- What stands between two marks, and the text that it stands for: characters other than the mark
and the backslash stand for themselves, and a backslash is taken off in front of these two. -/
inductive Spells (mark : QuoteMark) : Text → Text → Prop where
  | nil : Spells mark [] []
  | plain {c : Char} {inside text : Text} (hMark : c ≠ mark.char) (hSlash : c ≠ '\\')
      (rest : Spells mark inside text) : Spells mark (c :: inside) (c :: text)
  | pair {c : Char} {inside text : Text} (h : c = mark.char ∨ c = '\\')
      (rest : Spells mark inside text) : Spells mark ('\\' :: c :: inside) (c :: text)

namespace Spells

variable {mark : QuoteMark} {inside text text' : Text}

/-- Every text can be put between every mark. -/
theorem flatMap_guarded (mark : QuoteMark) (text : Text) :
    mark.Spells (text.flatMap mark.guarded) text := by
  induction text with
  | nil => exact .nil
  | cons c text ih =>
      rw [List.flatMap_cons, guarded]
      split
      · rename_i hPlain
        obtain ⟨hSlash, hMark⟩ := isPlain_iff.mp hPlain
        exact .plain hMark hSlash ih
      · rename_i hPlain
        exact .pair (isPlain_eq_false_iff.mp (Bool.of_not_eq_true hPlain)) ih

/-- There is no other inside for a text. -/
theorem eq_flatMap_guarded (h : mark.Spells inside text) : inside = text.flatMap mark.guarded := by
  induction h with
  | nil => rfl
  | plain hMark hSlash _ ih =>
      rw [List.flatMap_cons, guarded, if_pos (isPlain_iff.mpr ⟨hSlash, hMark⟩), ih]
      rfl
  | pair hSpecial _ ih =>
      have hPlain := Bool.eq_false_iff.mp (isPlain_eq_false_iff.mpr hSpecial)
      rw [List.flatMap_cons, guarded, if_neg hPlain, ih]
      rfl

/-- There is one way to write a text between given marks, since a backslash may stand nowhere
else. -/
theorem existsUnique (mark : QuoteMark) (text : Text) : ∃! inside, mark.Spells inside text :=
  ⟨text.flatMap mark.guarded, flatMap_guarded mark text, fun _ h => h.eq_flatMap_guarded⟩

/-- A backslash, a mark, the other mark and a bracket. -/
example : "\\'\"]".toList.flatMap QuoteMark.single.guarded = "\\\\\\'\"]".toList := by
  decide

/-- The inside of a string stands for one text only. -/
theorem text_unique (h : mark.Spells inside text) (h' : mark.Spells inside text') :
    text = text' := by
  induction h generalizing text' with
  | nil =>
      cases h'
      rfl
  | plain _ hSlash _ ih =>
      cases h' with
      | plain _ _ rest => rw [ih rest]
      | pair => exact absurd rfl hSlash
  | pair _ _ ih =>
      cases h' with
      | plain _ hSlash => exact absurd rfl hSlash
      | pair _ rest => rw [ih rest]

/-- Characters that stand for themselves in front of an inside. -/
theorem append_run {run : Text} (hRun : ∀ c ∈ run, mark.isPlain c = true)
    (h : mark.Spells inside text) : mark.Spells (run ++ inside) (run ++ text) := by
  induction run with
  | nil => exact h
  | cons c run ih =>
      obtain ⟨hPlain, hMore⟩ := List.forall_mem_cons.mp hRun
      obtain ⟨hSlash, hMark⟩ := isPlain_iff.mp hPlain
      exact .plain hMark hSlash (ih hMore)

/-- The longest run of such characters, and what is behind it. -/
theorem exists_run (h : mark.Spells inside text) : ∃ run inside' text',
    inside = run ++ inside' ∧ text = run ++ text' ∧ (∀ c ∈ run, mark.isPlain c = true) ∧
      (∀ c ∈ inside'.head?, mark.isPlain c = false) ∧ mark.Spells inside' text' := by
  induction h with
  | nil => exact ⟨[], [], [], rfl, rfl, by simp, by simp, .nil⟩
  | @plain c _ _ hMark hSlash _ ih =>
      obtain ⟨run, inside', text', rfl, rfl, hRun, hNext, hRest⟩ := ih
      have hPlain := isPlain_iff.mpr ⟨hSlash, hMark⟩
      exact ⟨c :: run, inside', text', rfl, rfl, List.forall_mem_cons.mpr ⟨hPlain, hRun⟩, hNext,
        hRest⟩
  | pair hSpecial rest =>
      exact ⟨[], _, _, rfl, rfl, by simp, by simp [isPlain], .pair hSpecial rest⟩

end Spells

end QuoteMark

end SelectorXPath
