import ManifestSync.Proofs.Tree.Merge

namespace ManifestSync.Tree

/-- Neither path leads through the end of the other one. -/
def Apart (p q : List String) : Prop := ¬ p <+: q ∧ ¬ q <+: p

instance (p q : List String) : Decidable (Apart p q) := inferInstanceAs (Decidable (_ ∧ _))

theorem Apart.ne_nil {p q : List String} (h : Apart p q) : p ≠ [] := by
  rintro rfl
  exact h.1 List.nil_prefix

theorem Apart.of_cons {key : String} {p q : List String} (h : Apart (key :: p) (key :: q)) :
    Apart p q := by
  simpa [Apart, List.cons_prefix_cons] using h

theorem at?_append (t : Tree) (p q : List String) : t.at? (p ++ q) = (t.at? p).bind (·.at? q) := by
  induction p generalizing t with
  | nil => rfl
  | cons key p ih =>
    simp only [List.cons_append, at?, Option.bind_assoc]
    exact congrArg _ (funext ih)

theorem misses_nil {path : List String} (h : path ≠ []) : (object []).Misses path := by
  cases path with
  | nil => exact absurd rfl h
  | cons key path => exact ⟨[], rfl, nofun⟩

theorem misses_insertAt {ms : Members} {path target : List String} (value : Tree)
    (ha : Apart path target) (hm : (object ms).Misses path) :
    (object (insertAt ms target value)).Misses path := by
  induction target generalizing ms path with
  | nil => exact hm
  | cons k target ih =>
    cases path with
    | nil => exact hm.elim
    | cons key path =>
      obtain ⟨_, ⟨⟩, hv⟩ := hm
      cases target with
      | nil =>
        have hk : key ≠ k := by
          rintro rfl
          exact ha.2 (by simp)
        refine ⟨_, rfl, fun v hset => ?_⟩
        obtain he | hmem := Members.mem_set hset
        · exact absurd (congrArg Prod.fst he) hk
        · exact hv v hmem
      | cons next target =>
        refine ⟨_, rfl, fun v hset => ?_⟩
        obtain he | hmem := Members.mem_set hset
        · obtain ⟨rfl, rfl⟩ := Prod.mk.inj he
          refine ih ha.of_cons ?_
          cases hf : ms.find? key with
          | none => exact misses_nil ha.of_cons.ne_nil
          | some u =>
            have hu : u.Misses path := hv u (Members.mem_of_find? hf)
            cases u with
            | object ns => exact hu
            | _ =>
              cases path with
              | nil => exact hu.elim
              | cons _ _ => exact absurd hu (by rintro ⟨_, ⟨⟩, _⟩)
        · exact hv v hmem

end ManifestSync.Tree
