import ManifestSync.Http.Discovery
import ManifestSync.Proofs.Catalog.Lookup

namespace ManifestSync

namespace Table

variable {κ α : Type} [DecidableEq κ] {t : Table κ α}

theorem mem_set {key : κ} {value : α} {p : κ × α} (h : p ∈ t.set key value) :
    p = (key, value) ∨ p ∈ t := by
  induction t with
  | nil => exact .inl (List.mem_singleton.mp h)
  | cons q t ih =>
    simp only [set] at h
    split at h
    · obtain rfl | h := List.mem_cons.mp h
      · exact .inl rfl
      · exact .inr (List.mem_cons_of_mem q h)
    · obtain rfl | h := List.mem_cons.mp h
      · exact .inr List.mem_cons_self
      · exact (ih h).imp_right (List.mem_cons_of_mem q)

theorem nodup_keys_set (h : t.keys.Nodup) (key : κ) (value : α) : (t.set key value).keys.Nodup := by
  by_cases hk : key ∈ t.keys
  · rwa [keys_set_of_mem hk]
  · rw [keys_set_of_not_mem hk]
    exact List.concat_eq_append ▸ h.concat hk

theorem nodup_map_foldl_set (key : α → κ) (values : List α) (hn : t.keys.Nodup)
    (hk : ∀ p ∈ t, key p.2 = p.1) :
    (((values.foldl (fun t v => t.set (key v) v) t).map (·.2)).map key).Nodup := by
  induction values generalizing t with
  | nil =>
    have hkeys : (t.map (·.2)).map key = t.keys := by
      rw [List.map_map]
      exact List.map_congr_left hk
    rwa [List.foldl_nil, hkeys]
  | cons v values ih =>
    refine ih (nodup_keys_set hn (key v) v) fun p hp => ?_
    obtain rfl | hp := mem_set hp
    · rfl
    · exact hk p hp

end Table

namespace Activity

variable {σ α β : Type}

/-- Whatever the call finds when it goes on, its answer has the property. -/
def Yields (P : α → Prop) : Activity σ α → Prop
  | .done answer _ => P answer
  | .wait _ _ resume => ∀ s, (resume s).Yields P
  | .turn _ resume => ∀ s, (resume s).Yields P

theorem yields_bind {P : β → Prop} {next : α → σ → Activity σ β}
    (h : ∀ answer s, (next answer s).Yields P) (call : Activity σ α) :
    (call.bind next).Yields P := by
  induction call with
  | done answer s => exact h answer s
  | wait delay s resume ih => exact ih
  | turn s resume ih => exact ih

theorem yields_map {P : β → Prop} {f : α → β} {call : Activity σ α} :
    (call.map f).Yields P ↔ call.Yields fun answer => P (f answer) := by
  induction call with
  | done answer s => exact Iff.rfl
  | wait delay s resume ih => exact forall_congr' ih
  | turn s resume ih => exact forall_congr' ih

theorem Yields.mono {P Q : α → Prop} {call : Activity σ α} (hc : call.Yields P)
    (h : ∀ answer, P answer → Q answer) : call.Yields Q := by
  induction call with
  | done answer s => exact h answer hc
  | wait delay s resume ih => exact fun t => ih t (hc t)
  | turn s resume ih => exact fun t => ih t (hc t)

theorem yields_of_forall {P : α → Prop} (h : ∀ answer, P answer) (call : Activity σ α) :
    call.Yields P := by
  induction call with
  | done answer s => exact h answer
  | wait delay s resume ih => exact ih
  | turn s resume ih => exact ih

end Activity

namespace Http

variable {σ α β : Type}

theorem Inquiry.yields_bind {P : Except DiscoveryError β → Prop} (first : Inquiry σ α)
    {next : α → Inquiry σ β} (h : ∀ a s, (next a s).Yields P) (he : ∀ e, P (.error e)) (s : σ) :
    (first.bind next s).Yields P := by
  refine Activity.yields_bind (fun answer t => ?_) (first s)
  cases answer with
  | error e => exact he e
  | ok a => exact h a t

theorem Inquiry.yields_map {P : Except DiscoveryError β → Prop} {f : α → β}
    (h : ∀ a, P (.ok (f a))) (he : ∀ e, P (.error e)) (q : Inquiry σ α) (s : σ) :
    (q.map f s).Yields P := by
  refine Activity.yields_map.mpr (Activity.yields_of_forall (fun answer => ?_) (q s))
  cases answer with
  | error e => exact he e
  | ok a => exact h a

theorem discover_yields_distinct (transport : Transport σ) (s : σ) :
    (discover transport s).Yields fun answer =>
      ∀ groups, answer = .ok groups → (groups.map (·.name)).Nodup := by
  have hgroups : (askGroups transport s).Yields fun answer =>
      ∀ groups, answer = .ok groups → (groups.map (·.name)).Nodup := by
    refine Inquiry.yields_bind _ (fun listed t => ?_) (fun _ _ => nofun) s
    refine Inquiry.yields_bind _ (fun others u => ?_) (fun _ _ => nofun) t
    refine Inquiry.yields_map (fun core groups hg => ?_) (fun _ _ => nofun) _ u
    cases hg
    exact Table.nodup_map_foldl_set ServedGroup.name (others ++ [core]) .nil nofun
  refine Activity.yields_map.mpr (hgroups.mono fun answer h groups hg => ?_)
  cases answer with
  | error e => cases hg
  | ok found =>
    obtain rfl : found = groups := Except.ok.inj hg
    exact h found rfl

end Http

namespace Resolver

variable {groups groups' : List ServedGroup}

theorem scan_filter (groups : List ServedGroup) (k : Kind) :
    scan (groups.filter (·.name = k.group)) k = scan groups k := by
  induction groups with
  | nil => rfl
  | cons g groups ih =>
    unfold scan at ih ⊢
    by_cases hg : g.name = k.group
    · rw [List.filter_cons_of_pos (by simpa using hg), List.findSome?_cons, List.findSome?_cons, ih]
    · have hnone : g.scan k = none := if_neg hg
      rw [List.filter_cons_of_neg (by simpa using hg), List.findSome?_cons, hnone, ih]

/-- At most one group bears a name, so that there is nothing to reorder among those that do. -/
theorem filter_name_eq_of_perm (hd : (groups.map (·.name)).Nodup) (hp : groups.Perm groups')
    (name : String) : groups.filter (·.name = name) = groups'.filter (·.name = name) := by
  have hf : (groups.filter (·.name = name)).Perm (groups'.filter (·.name = name)) := hp.filter _
  have hone : (groups.filter (·.name = name)).Pairwise fun _ _ => False := by
    refine List.Pairwise.imp_of_mem (fun {g g'} hg hg' hne => ?_)
      ((List.pairwise_map.mp hd).filter _)
    obtain ⟨_, hn⟩ := List.mem_filter.mp hg
    obtain ⟨_, hn'⟩ := List.mem_filter.mp hg'
    exact hne ((of_decide_eq_true hn).trans (of_decide_eq_true hn').symm)
  exact hf.eq_of_pairwise (fun _ _ _ _ h _ => h.elim) hone (hf.pairwise hone fun h => h)

structure Interchangeable (groups groups' : List ServedGroup) : Prop where
  kinds : ∃ n, ∀ r : Resolver, (r.refreshed (some (.ok groups))).1 = .loaded n ∧
    (r.refreshed (some (.ok groups'))).1 = .loaded n
  resolve_eq : ∀ (r r' : Resolver) k, (r.refreshed (some (.ok groups))).2.resolve k =
    (r'.refreshed (some (.ok groups'))).2.resolve k

theorem interchangeable_of_perm (hd : (groups.map (·.name)).Nodup) (hp : groups.Perm groups') :
    Interchangeable groups groups' := by
  have hscan : ∀ k, scan groups k = scan groups' k := by
    intro k
    rw [← scan_filter groups, ← scan_filter groups', filter_name_eq_of_perm hd hp]
  have hpreferred : ∀ name, preferredOf groups name = preferredOf groups' name := by
    intro name
    rw [preferredOf, preferredOf, filter_name_eq_of_perm hd hp]
  have hsize : (ofGroups groups).size = (ofGroups groups').size := by
    rw [size_ofGroups, size_ofGroups, List.toFinset_eq_of_perm _ _ (hp.flatMap_right _)]
  constructor
  case kinds => exact ⟨_, fun r => ⟨rfl, congrArg Refresh.loaded hsize.symm⟩⟩
  case resolve_eq =>
    intro r r' k
    show (ofGroups groups).resolve k = (ofGroups groups').resolve k
    rw [resolve_ofGroups, resolve_ofGroups, lookup, lookup, hpreferred]
    simp only [hscan]

/-- It makes no difference in which order groups are reported that bear different names, as all
groups do that are found over HTTP. -/
theorem refreshed_perm :
    (∀ {groups groups' : List ServedGroup}, (groups.map (·.name)).Nodup → groups.Perm groups' →
      Interchangeable groups groups') ∧
    ∀ {σ : Type} (transport : Http.Transport σ) (s : σ),
      (Http.discover transport s).Yields fun answer => ∀ groups groups', answer = .ok groups →
        groups.Perm groups' → Interchangeable groups groups' := by
  refine ⟨interchangeable_of_perm, fun transport s => ?_⟩
  refine Activity.Yields.mono (Http.discover_yields_distinct transport s) ?_
  exact fun answer hd groups groups' ha => interchangeable_of_perm (hd groups ha)

def twoGroups : List ServedGroup :=
  [.single "apps" "v1" [⟨"deployments", "Deployment", true⟩],
    .single "batch" "v2" [⟨"jobs", "Job", true⟩, ⟨"tasks", "Job", true⟩]]

theorem refreshed_perm_reverse :
    (twoGroups.map (·.name)).Nodup ∧ twoGroups.Perm twoGroups.reverse ∧
      (unloaded.refreshed (some (.ok twoGroups.reverse))).1 = .loaded 2 ∧
      (unloaded.refreshed (some (.ok twoGroups.reverse))).2.resolve ⟨"batch", "", "Job"⟩ =
        .ok ⟨"batch", "v2", "Job", "jobs", .namespaced⟩ := by
  have hd : (twoGroups.map (·.name)).Nodup := by decide
  have hp : twoGroups.Perm twoGroups.reverse := (List.reverse_perm twoGroups).symm
  obtain ⟨⟨n, hn⟩, hr⟩ := refreshed_perm.1 hd hp
  have hcount : (unloaded.refreshed (some (.ok twoGroups))).1 = .loaded 2 := by decide +kernel
  have hsame := (hn unloaded).1.symm.trans hcount
  refine ⟨hd, hp, (hn unloaded).2.trans hsame, ?_⟩
  rw [← hr unloaded]
  decide +kernel

end Resolver

end ManifestSync
