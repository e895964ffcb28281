import Mathlib.Data.List.Nodup
import SelectorXPath.Namespace.Registry

/-! Bindings as maps. As long as the keys ascend, a list of bindings is known by what it says about
each key. -/

namespace SelectorXPath

/-- The order of texts is total. -/
theorem Text.lt_of_not_lt {s t : Text} (hLess : ¬ s < t) (hOther : s ≠ t) : t < s := by
  rcases List.le_iff_lt_or_eq.mp (List.not_lt.mp hLess) with hLess | hSame
  · exact hLess
  · exact absurd hSame.symm hOther

namespace Bindings

/-- Every key comes before all keys behind it. -/
def IsAscending (bindings : Bindings) : Prop :=
  bindings.Pairwise fun entry later => entry.1 < later.1

variable {key other value : Text} {entry : Text × Text} {bindings bindings' : Bindings}

/-- Nothing is bound but what was bound before and the new pair. -/
theorem eq_or_mem_of_mem_insert (h : entry ∈ insert key value bindings) :
    entry = (key, value) ∨ entry ∈ bindings := by
  induction bindings with
  | nil => exact Or.inl (List.mem_singleton.mp h)
  | cons first more ih =>
      simp only [insert] at h
      split at h
      · exact (List.mem_cons.mp h).imp_right (List.mem_cons_of_mem _)
      · split at h
        · exact List.mem_cons.mp h
        · rcases List.mem_cons.mp h with hFirst | hMore
          · exact Or.inr (List.mem_cons.mpr (Or.inl hFirst))
          · exact (ih hMore).imp_right (List.mem_cons_of_mem _)

theorem mem_of_mem_erase (h : entry ∈ erase key bindings) : entry ∈ bindings := by
  induction bindings with
  | nil => exact h
  | cons first more ih =>
      simp only [erase] at h
      split at h
      · exact List.mem_cons_of_mem _ h
      · exact (List.mem_cons.mp h).elim (fun hFirst => List.mem_cons.mpr (Or.inl hFirst))
          fun hMore => List.mem_cons_of_mem _ (ih hMore)

/-- Keys stay in order when one more is bound. -/
theorem IsAscending.insert (h : bindings.IsAscending) (key value : Text) :
    (insert key value bindings).IsAscending := by
  induction bindings with
  | nil => exact List.pairwise_singleton _ _
  | cons first more ih =>
      obtain ⟨hFirst, hMore⟩ := List.pairwise_cons.mp h
      simp only [Bindings.insert]
      split
      · rename_i hSame
        exact List.pairwise_cons.mpr ⟨fun later hMem => hSame ▸ hFirst later hMem, hMore⟩
      · rename_i hOther
        split
        · rename_i hLess
          refine List.pairwise_cons.mpr ⟨fun later hMem => ?_, h⟩
          rcases List.mem_cons.mp hMem with rfl | hMem
          · exact hLess
          · exact List.lt_trans hLess (hFirst later hMem)
        · rename_i hNotLess
          refine List.pairwise_cons.mpr ⟨fun later hMem => ?_, ih hMore⟩
          rcases eq_or_mem_of_mem_insert hMem with rfl | hMem
          · exact Text.lt_of_not_lt hNotLess (Ne.symm hOther)
          · exact hFirst later hMem

/-- Keys stay in order when one is taken out. -/
theorem IsAscending.erase (h : bindings.IsAscending) (key : Text) :
    (erase key bindings).IsAscending := by
  induction bindings with
  | nil => exact h
  | cons first more ih =>
      obtain ⟨hFirst, hMore⟩ := List.pairwise_cons.mp h
      simp only [Bindings.erase]
      split
      · exact hMore
      · exact List.pairwise_cons.mpr
          ⟨fun later hMem => hFirst later (mem_of_mem_erase hMem), ih hMore⟩

/-- A key in front of all others is not bound. This is why an ascending list can be left early. -/
theorem find?_eq_none_of_forall_lt (h : ∀ entry ∈ bindings, key < entry.1) :
    bindings.find? key = none := by
  induction bindings with
  | nil => rfl
  | cons first more ih =>
      rw [List.forall_mem_cons] at h
      have hOther : first.1 ≠ key := fun hSame => List.lt_irrefl key (hSame ▸ h.1)
      rw [find?, if_neg hOther, ih h.2]

/-- The entries are what is found. -/
theorem IsAscending.mem_iff (h : bindings.IsAscending) :
    (key, value) ∈ bindings ↔ bindings.find? key = some value := by
  induction bindings with
  | nil => simp [find?]
  | cons first more ih =>
      obtain ⟨hFirst, hMore⟩ := List.pairwise_cons.mp h
      rw [find?, List.mem_cons, ih hMore]
      by_cases hSame : first.1 = key
      · obtain rfl := hSame
        rw [if_pos rfl, find?_eq_none_of_forall_lt hFirst]
        simp [Prod.ext_iff, eq_comm]
      · have hOther : (key, value) ≠ first := by
          rintro rfl
          exact hSame rfl
        rw [if_neg hSame, or_iff_right hOther]

/-- A key that was taken out is bound no more, since it stood there only once. -/
theorem IsAscending.find?_erase_self (h : bindings.IsAscending) (key : Text) :
    (Bindings.erase key bindings).find? key = none := by
  induction bindings with
  | nil => rfl
  | cons first more ih =>
      obtain ⟨hFirst, hMore⟩ := List.pairwise_cons.mp h
      simp only [Bindings.erase]
      split
      · rename_i hSame
        exact find?_eq_none_of_forall_lt (hSame ▸ hFirst)
      · rename_i hOther
        rw [find?, if_neg hOther, ih hMore]

/-- Where one key is taken out, the others are as they were. -/
theorem find?_erase_of_ne (h : other ≠ key) (bindings : Bindings) :
    (erase key bindings).find? other = bindings.find? other := by
  induction bindings with
  | nil => rfl
  | cons first more ih =>
      simp only [erase]
      split
      · rename_i hSame
        rw [find?, if_neg (hSame ▸ h.symm)]
      · rw [find?, find?, ih]

theorem IsAscending.nodup (h : bindings.IsAscending) : bindings.Nodup := by
  refine List.Pairwise.imp ?_ h
  rintro entry _ hLess rfl
  exact List.lt_irrefl _ hLess

/-- Bindings that say the same about every key are the same. -/
theorem IsAscending.ext (h : bindings.IsAscending) (h' : bindings'.IsAscending)
    (hFind : ∀ key, bindings.find? key = bindings'.find? key) : bindings = bindings' := by
  refine List.Perm.eq_of_pairwise (fun entry entry' _ _ hLess hLess' => ?_) h h' ?_
  · exact absurd hLess' (List.lt_asymm hLess)
  · refine (List.perm_ext_iff_of_nodup h.nodup h'.nodup).mpr ?_
    rintro ⟨key, value⟩
    rw [h.mem_iff, h'.mem_iff, hFind]

end Bindings

end SelectorXPath
