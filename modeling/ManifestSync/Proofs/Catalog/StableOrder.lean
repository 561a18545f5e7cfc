import Mathlib.Data.List.Pairwise
import Mathlib.Order.Nat

namespace ManifestSync

variable {α : Type} {key : α → Nat} {l m : List α}

theorem le_trans_of_key (key : α → Nat) (a b c : α) (hab : decide (key a ≤ key b) = true)
    (hbc : decide (key b ≤ key c) = true) : decide (key a ≤ key c) = true :=
  decide_eq_true ((of_decide_eq_true hab).trans (of_decide_eq_true hbc))

theorem le_total_of_key (key : α → Nat) (a b : α) :
    (decide (key a ≤ key b) || decide (key b ≤ key a)) = true := by
  rw [Bool.or_eq_true, decide_eq_true_eq, decide_eq_true_eq]
  exact le_total (key a) (key b)

theorem filter_mergeSort (key : α → Nat) (l : List α) (n : Nat) :
    (l.mergeSort fun a b => key a ≤ key b).filter (key · = n) = l.filter (key · = n) := by
  have hone : (l.filter (key · = n)).Pairwise fun a b => decide (key a ≤ key b) = true := by
    refine List.pairwise_of_forall_mem_list fun a ha b hb => decide_eq_true ?_
    have hka := of_decide_eq_true (List.mem_filter.mp ha).2
    have hkb := of_decide_eq_true (List.mem_filter.mp hb).2
    omega
  -- They are in order already, so the sort keeps them as a part, and it has no more of that key.
  have hsub : (l.filter (key · = n)).Sublist (l.mergeSort fun a b => key a ≤ key b) :=
    List.sublist_mergeSort (le_trans_of_key key) (le_total_of_key key) hone List.filter_sublist
  have hf := hsub.filter (key · = n)
  rw [List.filter_filter] at hf
  simp only [Bool.and_self] at hf
  exact (hf.eq_of_length ((List.mergeSort_perm l _).filter _).length_eq.symm).symm

theorem pairwise_mergeSort_key (key : α → Nat) (l : List α) :
    (l.mergeSort fun a b => key a ≤ key b).Pairwise fun a b => key a ≤ key b :=
  (List.pairwise_mergeSort (le_trans_of_key key) (le_total_of_key key) l).imp of_decide_eq_true

theorem mem_iff_of_filter_eq (h : ∀ n, l.filter (key · = n) = m.filter (key · = n)) (a : α) :
    a ∈ l ↔ a ∈ m := by
  have ha : a ∈ l.filter (key · = key a) ↔ a ∈ m.filter (key · = key a) := by rw [h]
  simpa using ha

/-- In ascending order of keys there is only one way to put together what belongs to each key. -/
theorem eq_of_filter_eq (hl : l.Pairwise fun a b => key a ≤ key b)
    (hm : m.Pairwise fun a b => key a ≤ key b)
    (h : ∀ n, l.filter (key · = n) = m.filter (key · = n)) : l = m := by
  have hmem := mem_iff_of_filter_eq h
  induction l generalizing m with
  | nil => exact (List.eq_nil_iff_forall_not_mem.mpr fun a ha => nomatch (hmem a).mpr ha).symm
  | cons a l ih =>
    cases m with
    | nil => exact nomatch (hmem a).mp List.mem_cons_self
    | cons b m =>
      obtain ⟨ha, hl'⟩ := List.pairwise_cons.mp hl
      obtain ⟨hb, hm'⟩ := List.pairwise_cons.mp hm
      have hab : key a ≤ key b := by
        obtain rfl | hin := List.mem_cons.mp ((hmem b).mpr List.mem_cons_self)
        · exact le_rfl
        · exact ha b hin
      have hba : key b ≤ key a := by
        obtain rfl | hin := List.mem_cons.mp ((hmem a).mp List.mem_cons_self)
        · exact le_rfl
        · exact hb a hin
      have hk : key b = key a := hba.antisymm hab
      have heq := h (key a)
      simp only [List.filter_cons, hk, decide_true, ↓reduceIte, List.cons.injEq] at heq
      obtain ⟨rfl, htail⟩ := heq
      have hrest : ∀ n, l.filter (key · = n) = m.filter (key · = n) := by
        intro n
        by_cases hn : key a = n
        · exact hn ▸ htail
        · simpa [List.filter_cons, hn] using h n
      exact congrArg (a :: ·) (ih hl' hm' hrest (mem_iff_of_filter_eq hrest))

theorem mergeSort_filter_succ (key : α → Nat) (l : List α) (n : Nat) :
    (l.filter (key · ≤ n + 1)).mergeSort (fun a b => key a ≤ key b) =
      (l.filter (key · ≤ n)).mergeSort (fun a b => key a ≤ key b) ++ l.filter (key · = n + 1) := by
  have hlow : ∀ a ∈ (l.filter (key · ≤ n)).mergeSort (fun a b => key a ≤ key b), key a ≤ n := by
    intro a ha
    simpa using (List.mem_filter.mp (List.mem_mergeSort.mp ha)).2
  have hhigh : ∀ a ∈ l.filter (key · = n + 1), key a = n + 1 := by
    intro a ha
    simpa using (List.mem_filter.mp ha).2
  refine eq_of_filter_eq (pairwise_mergeSort_key key _) ?_ fun k => ?_
  · refine List.pairwise_append.mpr ⟨pairwise_mergeSort_key key _, ?_, ?_⟩
    · exact List.pairwise_of_forall_mem_list fun a ha b hb => (hhigh a ha).trans_le (hhigh b hb).ge
    · intro a ha b hb
      have := hlow a ha
      have := hhigh b hb
      omega
  · rw [List.filter_append, filter_mergeSort, filter_mergeSort, List.filter_filter, List.filter_filter,
      List.filter_filter]
    by_cases hk : k = n + 1
    · have hnone : l.filter (fun a => decide (key a = k) && decide (key a ≤ n)) = [] := by
        simp only [List.filter_eq_nil_iff, Bool.and_eq_true, decide_eq_true_eq]
        omega
      rw [hnone, List.nil_append]
      refine List.filter_congr fun a _ => ?_
      rw [Bool.eq_iff_iff]
      simp only [Bool.and_eq_true, decide_eq_true_eq]
      omega
    · have hnone : l.filter (fun a => decide (key a = k) && decide (key a = n + 1)) = [] := by
        simp only [List.filter_eq_nil_iff, Bool.and_eq_true, decide_eq_true_eq]
        omega
      rw [hnone, List.append_nil]
      refine List.filter_congr fun a _ => ?_
      rw [Bool.eq_iff_iff]
      simp only [Bool.and_eq_true, decide_eq_true_eq]
      omega

end ManifestSync
