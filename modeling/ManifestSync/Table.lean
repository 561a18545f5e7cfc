namespace ManifestSync

abbrev Table (κ α : Type) := List (κ × α)

namespace Table

variable {κ α : Type} [DecidableEq κ]

def find? (key : κ) : Table κ α → Option α
  | [] => none
  | (k, v) :: r => if k = key then some v else find? key r

/-- Gives the key its value, in place of the old one if there is one. New keys go to the end. -/
def set (key : κ) (value : α) : Table κ α → Table κ α
  | [] => [(key, value)]
  | (k, v) :: r => if k = key then (key, value) :: r else (k, v) :: set key value r

def setNew (key : κ) (value : α) (t : Table κ α) : Table κ α :=
  match t.find? key with
  | some _ => t
  | none => t ++ [(key, value)]

@[simp] theorem find?_nil (key : κ) : find? key ([] : Table κ α) = none := rfl

theorem find?_set (key : κ) (value : α) (t : Table κ α) (k : κ) :
    (t.set key value).find? k = if key = k then some value else t.find? k := by
  induction t with
  | nil => simp [set, find?]
  | cons p r ih =>
    simp only [set]
    split
    · next h => subst h; simp only [find?]; split <;> rfl
    · next h =>
      simp only [find?, ih]
      split
      · next h' => subst h'; simp [Ne.symm h]
      · rfl

theorem find?_append (key : κ) (t u : Table κ α) :
    find? key (t ++ u) = (t.find? key).or (u.find? key) := by
  induction t with
  | nil => rfl
  | cons p t ih =>
    simp only [List.cons_append, find?, ih]
    split <;> rfl

theorem find?_setNew (key : κ) (value : α) (t : Table κ α) (k : κ) :
    (t.setNew key value).find? k = (t.find? k).or (if key = k then some value else none) := by
  unfold setNew
  split
  · next v h =>
    by_cases hk : key = k
    · subst hk; simp [h]
    · simp [hk]
  · exact find?_append k t [(key, value)]

def keys (t : Table κ α) : List κ := t.map Prod.fst

theorem isSome_find? {key : κ} {t : Table κ α} : (t.find? key).isSome = true ↔ key ∈ t.keys := by
  induction t with
  | nil => simp [keys]
  | cons p t ih =>
    by_cases hp : p.1 = key
    · simp [find?, keys, hp]
    · have hne : key ≠ p.1 := Ne.symm hp
      simpa [find?, keys, hp, hne] using ih

theorem find?_eq_none {key : κ} {t : Table κ α} : t.find? key = none ↔ key ∉ t.keys := by
  rw [← isSome_find?, Option.not_isSome_iff_eq_none]

theorem keys_set_of_mem {key : κ} {t : Table κ α} (h : key ∈ t.keys) (value : α) :
    (t.set key value).keys = t.keys := by
  induction t with
  | nil => simp [keys] at h
  | cons p t ih =>
    by_cases hp : p.1 = key
    · simp [set, keys, hp]
    · have ht : key ∈ keys t := by simpa [keys, Ne.symm hp] using h
      simpa [set, keys, hp] using ih ht

theorem keys_set_of_not_mem {key : κ} {t : Table κ α} (h : key ∉ t.keys) (value : α) :
    (t.set key value).keys = t.keys ++ [key] := by
  induction t with
  | nil => rfl
  | cons p t ih =>
    obtain ⟨hp, ht⟩ : key ≠ p.1 ∧ key ∉ keys t := by simpa [keys] using h
    simpa [set, keys, Ne.symm hp] using ih ht

theorem keys_subset_set (key : κ) (value : α) (t : Table κ α) : t.keys ⊆ (t.set key value).keys := by
  by_cases h : key ∈ t.keys
  · rw [keys_set_of_mem h]
    exact fun _ hk => hk
  · rw [keys_set_of_not_mem h]
    exact List.subset_append_left _ _

theorem mem_of_find? {key : κ} {value : α} {t : Table κ α} (h : t.find? key = some value) :
    (key, value) ∈ t := by
  induction t with
  | nil => cases h
  | cons p t ih =>
    simp only [find?] at h
    split at h
    · next hk =>
      cases h
      exact hk ▸ List.mem_cons_self
    · exact List.mem_cons_of_mem p (ih h)

theorem find?_eq_some_iff {key : κ} {value : α} {t : Table κ α} (h : t.keys.Nodup) :
    t.find? key = some value ↔ (key, value) ∈ t := by
  refine ⟨mem_of_find?, fun hm => ?_⟩
  induction t with
  | nil => cases hm
  | cons p t ih =>
    obtain ⟨hp, ht⟩ := List.nodup_cons.mp h
    obtain rfl | hm := List.mem_cons.mp hm
    · exact if_pos rfl
    · have hne : p.1 ≠ key := fun he => hp (he ▸ List.mem_map_of_mem hm)
      rw [find?, if_neg hne]
      exact ih ht hm

theorem find?_perm {t u : Table κ α} (h : t.Perm u) (hn : t.keys.Nodup) (key : κ) :
    t.find? key = u.find? key := by
  have hu : u.keys.Nodup := (h.map Prod.fst).nodup_iff.mp hn
  refine Option.ext fun value => ?_
  rw [find?_eq_some_iff hn, find?_eq_some_iff hu, h.mem_iff]

end Table

end ManifestSync
