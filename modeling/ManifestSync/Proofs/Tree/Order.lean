import ManifestSync.Tree.Draft
import ManifestSync.Proofs.Tree.Merge

namespace ManifestSync

namespace Members

theorem ascending_foldl_set {ms : Members} (h : ms.Ascending) (pairs : List (String × Tree)) :
    (pairs.foldl (fun ms p => ms.set p.1 p.2) ms).Ascending := by
  induction pairs generalizing ms with
  | nil => exact h
  | cons p pairs ih => exact ih h.set

theorem mem_foldl_set {ms : Members} {pairs : List (String × Tree)} {p : String × Tree}
    (h : p ∈ pairs.foldl (fun ms p => ms.set p.1 p.2) ms) : p ∈ pairs ∨ p ∈ ms := by
  induction pairs generalizing ms with
  | nil => exact .inr h
  | cons q pairs ih =>
    obtain h | h := ih h
    · exact .inl (List.mem_cons_of_mem q h)
    · obtain rfl | h := mem_set h
      · exact .inl List.mem_cons_self
      · exact .inr h

theorem mem_ofList {pairs : List (String × Tree)} {p : String × Tree} (h : p ∈ ofList pairs) :
    p ∈ pairs :=
  (mem_foldl_set h).resolve_right List.not_mem_nil

end Members

namespace Tree

theorem itemsInOrder_iff {items : List Tree} : ItemsInOrder items ↔ ∀ t ∈ items, t.InOrder := by
  induction items with
  | nil => simp [ItemsInOrder]
  | cons t items ih => simp [ItemsInOrder, ih]

theorem inOrder_object {ms : Members} (ha : ms.Ascending) (h : ∀ p ∈ ms, p.2.InOrder) :
    (object ms).InOrder := ⟨ha, membersInOrder_iff.mpr h⟩

theorem inOrder_ofPairs {pairs : List (String × Tree)} (h : ∀ p ∈ pairs, p.2.InOrder) :
    (ofPairs pairs).InOrder :=
  inOrder_object (Members.ascending_foldl_set .nil pairs) fun p hp => h p (Members.mem_ofList hp)

theorem InOrder.merge {t patch : Tree} (ht : t.InOrder) (hp : patch.InOrder) :
    (t.merge patch).InOrder := by
  induction patch using Tree.induct generalizing t with
  | null | bool | number | text | list => exact hp
  | object ms ih =>
    have ha := ascending_mergeMembers ht.ascending ms
    refine inOrder_object ha fun p hm => ?_
    have hf := ha.find?_eq_some.mpr hm
    rw [find?_mergeMembers_of_ascending _ hp.1] at hf
    cases hv : Members.find? p.1 ms with
    | none =>
      rw [hv, Option.elim_none] at hf
      exact ht.of_find? hf
    | some v =>
      rw [hv, Option.elim_some] at hf
      have hmem := Members.mem_of_find? hv
      have hvn : v ≠ .null := by
        rintro rfl
        cases hf
      rw [mergedWith_of_ne_null _ hvn] at hf
      rw [← Option.some.inj hf]
      exact ih _ hmem (ht.getD p.1) (membersInOrder_iff.mp hp.2 _ hmem)

end Tree

namespace Draft

mutual

/-- The tree of a draft has its members in order. -/
theorem inOrder_of_tree? : ∀ {d : Draft} {t : Tree}, d.tree? = some t → t.InOrder
  | .null, _, rfl | .bool _, _, rfl | .number _, _, rfl | .text _, _, rfl => trivial
  | .list ds, t, h => by
    obtain ⟨ts, hts, rfl⟩ := Option.map_eq_some_iff.mp h
    exact Tree.itemsInOrder_iff.mpr (inOrder_of_itemTrees? hts)
  | .object ms, t, h => by
    obtain ⟨ts, hts, rfl⟩ := Option.map_eq_some_iff.mp h
    exact Tree.inOrder_ofPairs (inOrder_of_memberTrees? hts)

theorem inOrder_of_itemTrees? : ∀ {ds : List Draft} {ts : List Tree},
    itemTrees? ds = some ts → ∀ t ∈ ts, t.InOrder
  | [], _, rfl, _, h => nomatch h
  | d :: ds, ts, h, u, hu => by
    obtain ⟨t, ht, h⟩ := Option.bind_eq_some_iff.mp h
    obtain ⟨rest, hr, h⟩ := Option.bind_eq_some_iff.mp h
    cases h
    obtain rfl | hu := List.mem_cons.mp hu
    · exact inOrder_of_tree? ht
    · exact inOrder_of_itemTrees? hr u hu

theorem inOrder_of_memberTrees? : ∀ {ms : List (Option String × Draft)}
    {ts : List (String × Tree)}, memberTrees? ms = some ts → ∀ p ∈ ts, p.2.InOrder
  | [], _, rfl, _, h => nomatch h
  | (key?, d) :: ms, ts, h, p, hp => by
    obtain ⟨key, _, h⟩ := Option.bind_eq_some_iff.mp h
    obtain ⟨t, ht, h⟩ := Option.bind_eq_some_iff.mp h
    obtain ⟨rest, hr, h⟩ := Option.bind_eq_some_iff.mp h
    cases h
    obtain rfl | hp := List.mem_cons.mp hp
    · exact inOrder_of_tree? ht
    · exact inOrder_of_memberTrees? hr p hp

end

end Draft

end ManifestSync
