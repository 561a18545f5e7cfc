import ManifestSync.Catalog.Feed
import ManifestSync.Resolver

namespace ManifestSync

namespace Resolver

/-- Every kind of a certain version that is resolved is resolved to the same endpoint by the other
mapping. Kinds without a version are another matter, since the preferred version of a group is the
one that was reported last. -/
def KeptBy (r r' : Resolver) : Prop :=
  ∀ k e, k.version ≠ "" → r.resolve k = .ok e → r'.resolve k = .ok e

variable {r r' r'' : Resolver} {k : Kind} {e : Endpoint}

theorem resolve_eq_ok (hv : k.version ≠ "") :
    r.resolve k = .ok e ↔ r.endpoints.find? k = some e := by
  simp only [resolve, hv, ↓reduceIte, Option.bind_some]
  cases r.endpoints.find? k <;> simp

theorem KeptBy.refl (r : Resolver) : r.KeptBy r := fun _ _ _ h => h

theorem KeptBy.trans (h : r.KeptBy r') (h' : r'.KeptBy r'') : r.KeptBy r'' :=
  fun k e hv hr => h' k e hv (h k e hv hr)

theorem keptBy_addGroup (r : Resolver) (g : ServedGroup) : r.KeptBy (r.addGroup g) := by
  intro k e hv hr
  rw [resolve_eq_ok hv] at hr ⊢
  refine List.foldlRecOn (motive := fun t => Table.find? k t = some e) g.endpoints _ hr ?_
  intro t ht e' _
  rw [Table.find?_setNew, ht, Option.some_or]

theorem keptBy_ofGroups {earlier groups : List ServedGroup} (h : earlier <+: groups) :
    (ofGroups earlier).KeptBy (ofGroups groups) := by
  obtain ⟨later, rfl⟩ := h
  rw [ofGroups, ofGroups, List.foldl_append]
  exact List.foldlRecOn later _ (.refl _) fun r' h g _ => h.trans (keptBy_addGroup r' g)

theorem loaded_ofGroups (groups : List ServedGroup) : (ofGroups groups).loaded = true :=
  List.foldlRecOn (motive := fun r : Resolver => r.loaded = true) groups _ rfl fun _ h _ _ => h

theorem resolve_unloaded (k : Kind) : unloaded.resolve k = .error ⟨k⟩ := by
  by_cases hv : k.version = "" <;> simp [resolve, unloaded, hv]

/-- The mapping was never built, or built from the first of the groups. -/
def Behind (r : Resolver) (groups : List ServedGroup) : Prop :=
  r = unloaded ∨ ∃ earlier, earlier <+: groups ∧ r = ofGroups earlier

namespace Behind

variable {groups groups' : List ServedGroup}

theorem of_prefix (h : r.Behind groups) (hp : groups <+: groups') : r.Behind groups' := by
  obtain hu | ⟨earlier, he, hr⟩ := h
  · exact .inl hu
  · exact .inr ⟨earlier, he.trans hp, hr⟩

theorem ofGroups (groups : List ServedGroup) : (ofGroups groups).Behind groups :=
  .inr ⟨groups, List.prefix_rfl, rfl⟩

theorem keptBy (h : r.Behind groups) : r.KeptBy (Resolver.ofGroups groups) := by
  obtain rfl | ⟨earlier, he, rfl⟩ := h
  · exact fun k e _ hr => nomatch (resolve_unloaded k).symm.trans hr
  · exact keptBy_ofGroups he

theorem loaded_of_resolve (h : r.Behind groups) (hr : r.resolve k = .ok e) : r.loaded = true := by
  obtain rfl | ⟨earlier, _, rfl⟩ := h
  · exact nomatch (resolve_unloaded k).symm.trans hr
  · exact loaded_ofGroups earlier

end Behind

end Resolver

namespace Feed

theorem prefix_advance (f : Feed) : f.groups <+: f.advance.groups := List.prefix_append _ _

theorem serve_snd (f : Feed) : f.serve.2 = f.advance := by
  unfold serve
  dsimp only
  split <;> rfl

theorem groups_of_serve {f : Feed} {groups : List ServedGroup} (h : f.serve.1 = .ok groups) :
    groups = f.advance.groups := by
  unfold serve at h
  dsimp only at h
  split at h
  · cases h
  · cases h
    rfl

end Feed

end ManifestSync
