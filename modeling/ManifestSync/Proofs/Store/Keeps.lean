import ManifestSync.Store.Memory
import ManifestSync.Proofs.Manifest.Update

namespace ManifestSync

/-- The object is what it was, at least wherever updates do not reach if they are on. -/
def Tree.Preserved (update : Bool) (before after : Tree) : Prop :=
  if update then
    ∀ path, (∀ target ∈ updatablePaths, Tree.Apart path target) → after.at? path = before.at? path
  else after = before

namespace Tree.Preserved

variable {update : Bool} {t u v : Tree}

theorem refl (update : Bool) (t : Tree) : t.Preserved update t := by
  unfold Tree.Preserved
  split
  · exact fun _ _ => rfl
  · rfl

theorem trans (h : t.Preserved update u) (h' : u.Preserved update v) : t.Preserved update v := by
  unfold Tree.Preserved at *
  split at h
  · next hu =>
    rw [if_pos hu] at h' ⊢
    exact fun path ha => (h' path ha).trans (h path ha)
  · next hu =>
    rw [if_neg hu] at h' ⊢
    exact h'.trans h

end Tree.Preserved

/-- What a request must not do to be allowed: a patch is sent only if updates are on, and it misses
every path that updates do not reach. -/
def Request.Harmless (update : Bool) : Request → Prop
  | .get .. | .create .. => True
  | .patch _ _ _ body => update = true ∧
    ∀ path, (∀ target ∈ updatablePaths, Tree.Apart path target) → body.Misses path

namespace Memory

def Keeps (update : Bool) (before after : Memory) : Prop :=
  ∀ key object, before.object? key = some object →
    ∃ object', after.object? key = some object' ∧ object.Preserved update object'

variable {update : Bool} {m m' : Memory}

theorem keeps_of_objects (h : m'.objects = m.objects) : m.Keeps update m' := by
  intro key object hk
  refine ⟨object, ?_, .refl update object⟩
  rw [Memory.object?, h]
  exact hk

theorem Keeps.trans {m'' : Memory} (h : m.Keeps update m') (h' : m'.Keeps update m'') :
    m.Keeps update m'' := by
  intro key object hk
  obtain ⟨object', hk', hp⟩ := h key object hk
  obtain ⟨object'', hk'', hp'⟩ := h' key object' hk'
  exact ⟨object'', hk'', hp.trans hp'⟩

theorem keeps_set {key : ObjectKey} {t : Tree}
    (ho : m'.objects = m.objects.set key t)
    (h : ∀ object, m.object? key = some object → object.Preserved update t) :
    m.Keeps update m' := by
  intro k object hk
  by_cases hkey : key = k
  · subst hkey
    refine ⟨t, ?_, h object hk⟩
    rw [Memory.object?, ho, Table.find?_set, if_pos rfl]
  · refine ⟨object, ?_, .refl update object⟩
    rw [Memory.object?, ho, Table.find?_set, if_neg hkey]
    exact hk

theorem keeps_perform {r : Request} (h : r.Harmless update) (m : Memory) :
    m.Keeps update (m.perform r).2 := by
  cases hk : m.object? r.key with
  | none =>
    cases r with
    | get | patch =>
      simp only [perform, hk]
      exact keeps_of_objects rfl
    | create e ns object =>
      simp only [perform, hk]
      split
      · exact keeps_of_objects rfl
      · exact keeps_set rfl fun live hl => nomatch hk.symm.trans hl
  | some live =>
    cases r with
    | get =>
      simp only [perform, hk]
      exact keeps_of_objects rfl
    | create e ns object =>
      simp only [perform, hk]
      split <;> exact keeps_of_objects rfl
    | patch e ns name body =>
      obtain ⟨hu, hm⟩ := h
      simp only [perform, hk]
      refine keeps_set rfl fun object ho => ?_
      obtain rfl : live = object := Option.some.inj (hk.symm.trans ho)
      rw [Tree.Preserved, if_pos hu]
      exact fun path ha => Tree.at?_merge_of_misses live (hm path ha)

theorem keeps_settle {r : Request} (h : r.Harmless update) (m : Memory) :
    m.Keeps update (m.settle r).2 := by
  unfold settle
  split
  · exact keeps_of_objects rfl
  · exact keeps_perform h m

end Memory

end ManifestSync
