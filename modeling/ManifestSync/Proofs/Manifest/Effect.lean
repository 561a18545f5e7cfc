import ManifestSync.Proofs.Manifest.Update

namespace ManifestSync

namespace Tree

theorem same_mergedWith {want : Tree} (h : want.isObject = false) (found? : Option Tree) :
    ((mergedWith found? want).getD .null).same want = true := by
  cases want with
  | object ms => cases h
  | null => rfl
  | _ => exact same_refl _

theorem eq_null_of_same {t : Tree} (h : t.same .null = true) : t = .null := by
  cases t with
  | null => rfl
  | _ => cases h

theorem apart_of_length_eq {p q : List String} (hl : p.length = q.length) (hne : p ≠ q) :
    Apart p q :=
  ⟨fun h => hne (h.eq_of_length hl), fun h => hne (h.eq_of_length hl.symm).symm⟩

end Tree

theorem difference?_eq_some {desired live want : Tree} {path : List String} :
    difference? desired live path = some want ↔
      desired.at? path = some want ∧ ((live.at? path).getD .null).same want = false := by
  simp [difference?, Option.filter_eq_some_iff]

structure Effective (desired live patch : Tree) : Prop where
  /-- What is wanted is there afterwards if it is no object. -/
  plain : ∀ path ∈ updatablePaths, ∀ want, desired.at? path = some want →
    want.isObject = false → (((live.merge patch).at? path).getD .null).same want = true
  null : ∀ path ∈ updatablePaths, desired.at? path = some .null →
    (live.merge patch).at? path = none ∨
      live.at? path = some .null ∧ (live.merge patch).at? path = some .null
  /-- An object that is wanted is merged into the one that was there, or into nothing. -/
  object : ∀ path ∈ updatablePaths, ∀ want, desired.at? path = some want →
    want.isObject = true → ((live.at? path).getD .null).same want = false →
    (live.merge patch).at? path = some (((live.at? path).getD .null).merge want)
  unset : ∀ path ∈ updatablePaths, desired.at? path = none →
    (live.merge patch).at? path = live.at? path
  /-- Paths that lead elsewhere than those that the patch carries are left alone. -/
  elsewhere : ∀ path, (∀ target ∈ updatablePaths, (patch.at? target).isSome = true →
    Tree.Apart path target) → (live.merge patch).at? path = live.at? path
  other : ∀ key, key ≠ "spec" → key ≠ "status" →
    (live.merge patch).at? [key] = live.at? [key]
  sibling : ∀ parent key, [parent, key] ∉ updatablePaths →
    (live.merge patch).at? [parent, key] = live.at? [parent, key]

theorem at?_merge_of_apart {desired live patch : Tree} (h : updatePatch desired live = some patch)
    (t : Tree) {path : List String} (ha : ∀ target ∈ updatablePaths,
      (patch.at? target).isSome = true → Tree.Apart path target) :
    (t.merge patch).at? path = t.at? path := by
  refine Tree.at?_merge_of_misses t (misses_of_updatePatch h fun target ht hs => ha target ht ?_)
  rwa [at?_updatePatch h target ht]

/-- Merging the patch of an update has the effect that is wanted, and no other one. -/
theorem update_effective {desired live patch : Tree} (h : updatePatch desired live = some patch) :
    Effective desired live patch := by
  have hm := at?_merge_updatePatch h live
  have hlen : ∀ target ∈ updatablePaths, target.length = 2 := by decide
  constructor
  case plain =>
    intro path hp want hw ho
    rw [hm path hp]
    cases hd : difference? desired live path with
    | none => exact difference?_eq_none.mp hd want hw
    | some found =>
      obtain rfl : found = want := Option.some.inj ((at?_of_difference? hd).symm.trans hw)
      exact Tree.same_mergedWith ho _
  case null =>
    intro path hp hw
    rw [hm path hp]
    cases hd : difference? desired live path with
    | none =>
      have hnull := Tree.eq_null_of_same (difference?_eq_none.mp hd .null hw)
      cases hl : live.at? path with
      | none => exact .inl rfl
      | some found =>
        rw [hl] at hnull
        obtain rfl : found = .null := hnull
        exact .inr ⟨rfl, rfl⟩
    | some found =>
      obtain rfl : found = .null := Option.some.inj ((at?_of_difference? hd).symm.trans hw)
      exact .inl rfl
  case object =>
    intro path hp want hw ho hs
    have hne : want ≠ .null := by
      rintro rfl
      cases ho
    rw [hm path hp, difference?_eq_some.mpr ⟨hw, hs⟩]
    exact Tree.mergedWith_of_ne_null _ hne
  case unset =>
    intro path hp hw
    have hd : difference? desired live path = none :=
      difference?_eq_none.mpr fun want hsome => nomatch hw.symm.trans hsome
    rw [hm path hp, hd]
    rfl
  case elsewhere => exact fun path ha => at?_merge_of_apart h live ha
  case other =>
    intro key hspec hstatus
    refine at?_merge_of_apart h live fun target ht _ => ?_
    simp only [updatablePaths, List.mem_cons, List.not_mem_nil, or_false] at ht
    obtain rfl | rfl := ht
    · simp [Tree.Apart, hspec, Ne.symm hspec]
    · simp [Tree.Apart, hstatus, Ne.symm hstatus]
  case sibling =>
    intro parent key hn
    refine at?_merge_of_apart h live fun target ht _ => ?_
    have hne : [parent, key] ≠ target := fun he => hn (he ▸ ht)
    exact Tree.apart_of_length_eq (hlen target ht).symm hne

def pausedMap : Tree :=
  .object [("spec", .object [("managementState", .null)]),
    ("status", .object [("observedGeneration", .object [("seen", .number (.whole 2))])])]

def managedMap : Tree :=
  .object [("kind", .text "ConfigMap"),
    ("spec", .object [("managementState", .text "Managed"), ("replicas", .number (.whole 3))]),
    ("status", .list [.null])]

theorem update_effective_paused : ∃ patch,
    updatePatch pausedMap managedMap = some patch ∧ Effective pausedMap managedMap patch ∧
      managedMap.merge patch = .object [("kind", .text "ConfigMap"),
        ("spec", .object [("replicas", .number (.whole 3))]),
        ("status", .object [("observedGeneration", .object [("seen", .number (.whole 2))])])] :=
  ⟨_, rfl, update_effective rfl, rfl⟩

end ManifestSync
