import ManifestSync.Kind

namespace ManifestSync

structure NameMap (α : Type) where
  entries : List (String × α)
  ascending : entries.Pairwise (fun a b => a.1 < b.1) := by simp

namespace NameMap

variable {α : Type}

def place (name : String) (value : α) : List (String × α) → List (String × α)
  | [] => [(name, value)]
  | (k, v) :: r =>
    if k = name then (name, value) :: r
    else if name < k then (name, value) :: (k, v) :: r
    else (k, v) :: place name value r

theorem mem_place {name : String} {value : α} {es : List (String × α)} {e : String × α}
    (h : e ∈ place name value es) : e = (name, value) ∨ e ∈ es := by
  induction es with
  | nil => simpa [place] using h
  | cons p r ih =>
    simp only [place] at h
    split at h
    · obtain h | h := List.mem_cons.mp h <;> simp [h]
    · split at h
      · obtain h | h := List.mem_cons.mp h
        · exact .inl h
        · exact .inr h
      · obtain h | h := List.mem_cons.mp h
        · simp [h]
        · obtain h | h := ih h <;> simp [h]

theorem pairwise_place {name : String} {value : α} {es : List (String × α)}
    (h : es.Pairwise (fun a b => a.1 < b.1)) :
    (place name value es).Pairwise (fun a b => a.1 < b.1) := by
  induction es with
  | nil => simp [place]
  | cons p r ih =>
    obtain ⟨hp, hr⟩ := List.pairwise_cons.mp h
    simp only [place]
    split
    · next heq =>
      refine List.pairwise_cons.mpr ⟨fun e he => ?_, hr⟩
      simpa [← heq] using hp e he
    · next hne =>
      split
      · next hlt =>
        refine List.pairwise_cons.mpr ⟨fun e he => ?_, h⟩
        obtain rfl | he := List.mem_cons.mp he
        · exact hlt
        · exact String.lt_trans hlt (hp e he)
      · next hge =>
        refine List.pairwise_cons.mpr ⟨fun e he => ?_, ih hr⟩
        obtain rfl | he := mem_place he
        · obtain h | h | h := Std.lt_trichotomy p.1 name
          · exact h
          · exact absurd h hne
          · exact absurd h hge
        · exact hp e he

def empty : NameMap α := ⟨[], .nil⟩

def insert (m : NameMap α) (name : String) (value : α) : NameMap α :=
  ⟨place name value m.entries, pairwise_place m.ascending⟩

def single (name : String) (value : α) : NameMap α := empty.insert name value

/-- Of equal names the last one counts. -/
def ofList (es : List (String × α)) : NameMap α := es.foldl (fun m e => m.insert e.1 e.2) empty

end NameMap

structure ServedResource where
  plural : String
  kind : String
  namespaced : Bool
  deriving DecidableEq, Repr

structure ServedGroup where
  name : String
  preferredVersion : String
  versions : NameMap (List ServedResource)

namespace ServedGroup

def single (name version : String) (resources : List ServedResource) : ServedGroup :=
  ⟨name, version, .single version resources⟩

def endpointOf (group version : String) (r : ServedResource) : Endpoint :=
  ⟨group, version, r.kind, r.plural, if r.namespaced then .namespaced else .cluster⟩

def endpoints (g : ServedGroup) : List Endpoint :=
  g.versions.entries.flatMap fun v => v.2.map (endpointOf g.name v.1)

end ServedGroup

end ManifestSync
