import ManifestSync.Manifest.Load
import ManifestSync.Store.Request

namespace ManifestSync

namespace Manifest

/-- The manifest goes by the name that its object gives itself. -/
structure Named (m : Manifest) : Prop where
  name_eq : m.object.ownName = m.name
  ne_empty : m.name ≠ ""

theorem named_of_ofTree {path : String} {object : Tree} {m : Manifest}
    (h : ofTree path object = .ok m) : m.Named := by
  unfold ofTree at h
  split at h
  · cases h
  · split at h
    · cases h
    · split at h
      · cases h
      · next name hn =>
        cases h
        obtain ⟨ht, hne⟩ := Option.filter_eq_some_iff.mp hn
        unfold Tree.textAt? at ht
        exact ⟨by simp [Tree.ownName, ht], by simpa using hne⟩

theorem inNamespace?_of_ofTree {path : String} {object : Tree} {m : Manifest}
    (h : ofTree path object = .ok m) :
    m.inNamespace? = m.object.ownNamespace?.filter (· ≠ "") := by
  unfold ofTree at h
  split at h
  · cases h
  · split at h
    · cases h
    · split at h
      · cases h
      · cases h
        rfl

theorem named_of_ofContent {decode : Decoder} {directory : Files.PathText}
    {names : List Files.Name} {content : List UInt8} {m : Manifest}
    (h : ofContent decode directory names content = .ok m) : m.Named := by
  unfold ofContent at h
  split at h
  · cases h
  · split at h
    · cases h
    · next object _ =>
      cases ht : ofTree (Files.shown (Files.joined names)) object with
      | error field =>
        simp only [ht] at h
        cases h
      | ok m' =>
        simp only [ht] at h
        cases h
        exact named_of_ofTree ht

theorem named_of_ofFile {decode : Decoder} {disk : Files.Disk} {directory : Files.PathText}
    {names : List Files.Name} {m : Manifest} (h : ofFile decode disk directory names = .ok m) :
    m.Named := by
  unfold ofFile at h
  split at h
  · cases h
  · exact named_of_ofContent h

end Manifest

theorem forall_mem_of_mapM {α β ε : Type} {f : α → Except ε β} {P : β → Prop}
    (hf : ∀ x y, f x = .ok y → P y) {xs : List α} {ys : List β} (h : xs.mapM f = .ok ys) :
    ∀ y ∈ ys, P y := by
  induction xs generalizing ys with
  | nil =>
    cases h
    exact nofun
  | cons x xs ih =>
    rw [List.mapM_cons] at h
    cases hx : f x with
    | error e =>
      rw [hx] at h
      cases h
    | ok y =>
      cases hxs : xs.mapM f with
      | error e =>
        rw [hx, hxs] at h
        cases h
      | ok rest =>
        rw [hx, hxs] at h
        cases h
        exact List.forall_mem_cons.mpr ⟨hf x y hx, ih hxs⟩

theorem named_of_loadFrom {decode : Decoder} {filters : List (Files.PathText → Bool)}
    {disk : Files.Disk} {directory : Files.PathText} {manifests : List Manifest}
    (h : loadFrom decode filters disk directory = .ok manifests) : ∀ m ∈ manifests, m.Named := by
  cases hf : disk.filesBelow directory with
  | error fault =>
    simp only [loadFrom, hf] at h
    cases h
  | ok names =>
    simp only [loadFrom, hf] at h
    exact forall_mem_of_mapM (fun _ _ => Manifest.named_of_ofFile) h

end ManifestSync
