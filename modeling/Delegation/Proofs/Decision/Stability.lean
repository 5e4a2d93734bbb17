import Mathlib.Data.List.Basic

namespace Delegation

variable {α : Type} {le : α → α → Bool} {before : α → α → Prop} {l : List α}

/-- Sorting leaves the elements that tie with one in their order. -/
theorem filter_mergeSort (trans : ∀ a b c, le a b = true → le b c = true → le a c = true)
    (total : ∀ a b, (le a b || le b a) = true) (a : α) (l : List α) :
    (l.mergeSort le).filter (fun b => le a b && le b a) = l.filter fun b => le a b && le b a := by
  have hsorted : (l.filter fun b => le a b && le b a).Pairwise fun b c => le b c = true := by
    refine List.pairwise_of_forall_mem_list fun b hb c hc => ?_
    have hb := Bool.and_eq_true_iff.1 (List.mem_filter.1 hb).2
    have hc := Bool.and_eq_true_iff.1 (List.mem_filter.1 hc).2
    exact trans b a c hb.2 hc.1
  have hsub := (List.sublist_mergeSort trans total hsorted List.filter_sublist).filter fun b =>
    le a b && le b a
  rw [List.filter_filter] at hsub
  simp only [Bool.and_self] at hsub
  exact (hsub.eq_of_length ((List.mergeSort_perm l le).filter _).length_eq.symm).symm

theorem pairwise_mergeSort_of_ties (trans : ∀ a b c, le a b = true → le b c = true → le a c = true)
    (total : ∀ a b, (le a b || le b a) = true)
    (h : l.Pairwise fun a b => le a b = true → le b a = true → before a b) :
    (l.mergeSort le).Pairwise fun a b => le a b = true ∧ (le b a = true → before a b) := by
  rw [List.pairwise_iff_forall_sublist] at h ⊢
  intro a b hsub
  have hab : le a b = true := List.pairwise_iff_forall_sublist.1 (List.pairwise_mergeSort trans total l) hsub
  refine ⟨hab, fun hba => ?_⟩
  have haa : le a a = true := by simpa only [Bool.or_self] using total a a
  have hties := hsub.filter fun b => le a b && le b a
  rw [filter_mergeSort trans total] at hties
  simp only [List.filter_cons, haa, hab, hba, Bool.and_self, if_true, List.filter_nil] at hties
  exact h (hties.trans List.filter_sublist) hab hba

end Delegation
