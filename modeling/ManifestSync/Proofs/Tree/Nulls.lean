import ManifestSync.Proofs.Tree.Order

namespace ManifestSync.Tree

/-- No object that is reached through objects only has a null for a member. -/
def NullFree (t : Tree) : Prop :=
  ∀ path ms, t.at? path = some (.object ms) → ∀ p ∈ ms, p.2 ≠ .null

theorem nullFree_of_not_object {t : Tree} (h : t.isObject = false) : t.NullFree := by
  intro path ms hat
  cases path with
  | nil =>
    cases hat
    cases h
  | cons key path =>
    cases t with
    | object ns => cases h
    | _ => cases hat

theorem nullFree_object {ms : Members} : (object ms).NullFree ↔
    (∀ p ∈ ms, p.2 ≠ .null) ∧ ∀ key v, ms.find? key = some v → v.NullFree := by
  constructor
  · intro h
    refine ⟨h [] ms rfl, fun key v hv path ns hat => h (key :: path) ns ?_⟩
    rw [at?_cons, members_object, hv, Option.bind_some, hat]
  · rintro ⟨hn, hv⟩ path ns hat
    cases path with
    | nil =>
      cases hat
      exact hn
    | cons key path =>
      obtain ⟨v, hf, hat⟩ := Option.bind_eq_some_iff.mp hat
      exact hv key v hf path ns hat

theorem NullFree.object {ms : Members} (hn : ∀ p ∈ ms, p.2 ≠ .null) (h : ∀ p ∈ ms, p.2.NullFree) :
    (object ms).NullFree :=
  nullFree_object.mpr ⟨hn, fun _ _ hv => h _ (Members.mem_of_find? hv)⟩

theorem NullFree.members {t : Tree} (h : t.NullFree) : (Tree.object t.members).NullFree := by
  cases t with
  | object ms => exact h
  | _ => exact .object nofun nofun

theorem NullFree.getD {ms : Members} (h : (Tree.object ms).NullFree) (key : String) :
    ((ms.find? key).getD .null).NullFree := by
  cases hv : ms.find? key with
  | none => exact nullFree_of_not_object rfl
  | some v => exact (nullFree_object.mp h).2 key v hv

theorem NullFree.erase {ms : Members} (h : (Tree.object ms).NullFree) (key : String) :
    (Tree.object (ms.erase key)).NullFree := by
  obtain ⟨hn, hv⟩ := nullFree_object.mp h
  refine nullFree_object.mpr ⟨fun p hp => hn p ((Members.erase_sublist key ms).mem hp), ?_⟩
  intro k v hf
  rw [Members.find?_erase] at hf
  split at hf
  · cases hf
  · exact hv k v hf

theorem NullFree.set {ms : Members} {value : Tree} (h : (Tree.object ms).NullFree) (key : String)
    (hne : value ≠ .null) (hvalue : value.NullFree) : (Tree.object (ms.set key value)).NullFree := by
  obtain ⟨hn, hv⟩ := nullFree_object.mp h
  refine nullFree_object.mpr ⟨fun p hp => ?_, fun k v hf => ?_⟩
  · obtain rfl | hp := Members.mem_set hp
    · exact hne
    · exact hn p hp
  · rw [Members.find?_set] at hf
    split at hf
    · cases hf
      exact hvalue
    · exact hv k v hf

theorem merge_ne_null {value : Tree} (t : Tree) (h : value ≠ .null) : t.merge value ≠ .null := by
  cases value with
  | null => exact absurd rfl h
  | _ => exact nofun

/-- Merging member by member: the null that stands in for a missing key is always replaced by what
was merged into it. -/
theorem NullFree.mergeMembers {target patch : Members} (ht : (Tree.object target).NullFree)
    (h : ∀ p ∈ patch, ∀ t : Tree, t.NullFree → (t.merge p.2).NullFree) :
    (Tree.object (mergeMembers target patch)).NullFree := by
  -- On the patch, with whatever the members before have made of the target.
  induction patch generalizing target with
  | nil => exact ht
  | cons p patch ih =>
    obtain ⟨key, value⟩ := p
    obtain ⟨hvalue, hpatch⟩ := List.forall_mem_cons.mp h
    by_cases hn : value = .null
    · subst hn
      exact ih (ht.erase key) hpatch
    · have hmerged := hvalue _ (ht.getD key)
      rw [mergeMembers_cons_of_ne_null _ _ _ hn]
      exact ih (ht.set key (merge_ne_null _ hn) hmerged) hpatch

theorem NullFree.merge {t : Tree} (ht : t.NullFree) (patch : Tree) : (t.merge patch).NullFree := by
  induction patch using Tree.induct generalizing t with
  | null | bool | number | text | list => exact nullFree_of_not_object rfl
  | object ms ih => exact ht.members.mergeMembers fun p hp u hu => ih p hp hu

/-- Merging an object leaves no null behind where there was none, and nothing at all where the object
has a null. -/
theorem merge_leaves_no_null {t : Tree} {patch : Members} (ht : t.NullFree)
    (hp : (object patch).InOrder) :
    (t.merge (.object patch)).NullFree ∧
      ∀ path, (object patch).at? path = some .null → (t.merge (.object patch)).at? path = none := by
  refine ⟨ht.merge _, fun path hnull => ?_⟩
  have hne : path ≠ [] := by
    rintro rfl
    cases hnull
  exact at?_merge_of_at? t hp hne hnull

def awaited : Members :=
  [("metadata", .object [("name", .text "ca")]), ("spec", .text "Managed"),
    ("status", .list [.object [("seen", .null)]])]

def withdrawal : Members :=
  [("metadata", .object [("labels", .object [("app", .null), ("tier", .null)]), ("name", .null)]),
    ("spec", .object [("mode", .object []), ("since", .null)])]

theorem merge_leaves_no_null_withdrawal :
    let merged := (Tree.object awaited).merge (.object withdrawal)
    (Tree.object awaited).NullFree ∧ (Tree.object withdrawal).InOrder ∧
      merged = .object [("metadata", .object [("labels", .object [])]),
        ("spec", .object [("mode", .object [])]), ("status", .list [.object [("seen", .null)]])] ∧
      merged.NullFree ∧
      ∀ path, (Tree.object withdrawal).at? path = some .null → merged.at? path = none := by
  intro merged
  have hname : (Tree.object [("name", .text "ca")]).NullFree :=
    .object (by simp) (by simpa using nullFree_of_not_object rfl)
  have ht : (Tree.object awaited).NullFree :=
    .object (by simp [awaited]) (by
      simpa [awaited, hname] using ⟨nullFree_of_not_object rfl, nullFree_of_not_object rfl⟩)
  have hp : (Tree.object withdrawal).InOrder :=
    Draft.inOrder_of_tree? (d := .ofTree (.object withdrawal)) rfl
  exact ⟨ht, hp, rfl, merge_leaves_no_null ht hp⟩

end ManifestSync.Tree
