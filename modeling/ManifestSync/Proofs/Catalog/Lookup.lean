import Mathlib.Data.Finset.Card
import ManifestSync.Proofs.Catalog.Growth
import ManifestSync.Proofs.Store.Answers
import ManifestSync.Reconcile.Run

namespace ManifestSync

namespace Table

variable {κ α : Type} [DecidableEq κ] {t : Table κ α}

theorem find?_foldl_setNew (key : α → κ) (values : List α) (t : Table κ α) (k : κ) :
    (values.foldl (fun t v => t.setNew (key v) v) t).find? k =
      (t.find? k).or (values.find? (key · = k)) := by
  induction values generalizing t with
  | nil => simp
  | cons v values ih =>
    rw [List.foldl_cons, ih, find?_setNew, Option.or_assoc, List.find?_cons]
    by_cases hk : key v = k <;> simp [hk]

theorem keys_setNew_of_mem {key : κ} (h : key ∈ t.keys) (value : α) :
    t.setNew key value = t := by
  obtain ⟨v, hv⟩ := Option.isSome_iff_exists.mp (isSome_find?.mpr h)
  simp only [setNew, hv]

theorem keys_setNew_of_not_mem {key : κ} (h : key ∉ t.keys) (value : α) :
    (t.setNew key value).keys = t.keys ++ [key] := by
  simp only [setNew, find?_eq_none.mpr h, keys, List.map_append, List.map_singleton]

theorem nodup_keys_setNew (h : t.keys.Nodup) (key : κ) (value : α) :
    (t.setNew key value).keys.Nodup := by
  by_cases hk : key ∈ t.keys
  · rwa [keys_setNew_of_mem hk]
  · rw [keys_setNew_of_not_mem hk]
    exact List.concat_eq_append ▸ h.concat hk

theorem toFinset_keys_setNew (key : κ) (value : α) (t : Table κ α) :
    (t.setNew key value).keys.toFinset = insert key t.keys.toFinset := by
  by_cases hk : key ∈ t.keys
  · rw [keys_setNew_of_mem hk, Finset.insert_eq_of_mem (List.mem_toFinset.mpr hk)]
  · rw [keys_setNew_of_not_mem hk]
    ext k
    simp

theorem keys_foldl_setNew (key : α → κ) (values : List α) (h : t.keys.Nodup) :
    (values.foldl (fun t v => t.setNew (key v) v) t).keys.Nodup ∧
      (values.foldl (fun t v => t.setNew (key v) v) t).keys.toFinset =
        t.keys.toFinset ∪ (values.map key).toFinset := by
  induction values generalizing t with
  | nil => simpa using h
  | cons v values ih =>
    obtain ⟨hn, hk⟩ := ih (nodup_keys_setNew h (key v) v)
    refine ⟨hn, hk.trans ?_⟩
    rw [toFinset_keys_setNew, List.map_cons, List.toFinset_cons, Finset.insert_union,
      Finset.union_insert]

end Table

namespace ServedGroup

def scan (g : ServedGroup) (k : Kind) : Option Endpoint :=
  if g.name = k.group then
    g.versions.entries.findSome? fun (version, resources) =>
      if version = k.version then
        (resources.find? (·.kind = k.name)).map (endpointOf g.name version)
      else none
  else none

def kinds (g : ServedGroup) : List Kind :=
  g.versions.entries.flatMap fun (version, resources) =>
    resources.map fun r => ⟨g.name, version, r.kind⟩

theorem map_servedKind (g : ServedGroup) : g.endpoints.map Endpoint.servedKind = g.kinds := by
  simp only [endpoints, kinds, List.map_flatMap, List.map_map]
  rfl

theorem find?_endpoints (g : ServedGroup) (k : Kind) :
    g.endpoints.find? (·.servedKind = k) = g.scan k := by
  obtain ⟨group, version, name⟩ := k
  rw [endpoints, List.find?_flatMap, scan]
  by_cases hg : g.name = group
  · simp only [hg, ↓reduceIte, List.find?_map]
    congr 1
    funext v
    by_cases hv : v.1 = version
    · simp only [hv, ↓reduceIte]
      congr 2
      funext r
      simp only [Function.comp_apply, endpointOf, Endpoint.servedKind, Kind.mk.injEq, true_and]
    · simp [hv, endpointOf, Endpoint.servedKind]
  · simp [hg, endpointOf, Endpoint.servedKind]

end ServedGroup

namespace Resolver

/-- The first resource that is listed for the kind: groups in order, the versions of each by name and
the resources of each as listed. -/
def scan (groups : List ServedGroup) (k : Kind) : Option Endpoint :=
  groups.findSome? (·.scan k)

/-- The preferred version of the last of the groups that bears the name. -/
def preferredOf (groups : List ServedGroup) (name : String) : Option String :=
  (groups.filter (·.name = name)).getLast?.map (·.preferredVersion)

/-- What the groups say of a kind, where the preferred version stands in for an empty one. -/
def lookup (groups : List ServedGroup) (k : Kind) : Except NoMatch Endpoint :=
  let version? := if k.version = "" then preferredOf groups k.group else some k.version
  match version?.bind fun v => scan groups { k with version := v } with
  | some e => .ok e
  | none => .error ⟨k⟩

theorem find?_endpoints_foldl (groups : List ServedGroup) (r : Resolver) (k : Kind) :
    (groups.foldl addGroup r).endpoints.find? k = (r.endpoints.find? k).or (scan groups k) := by
  induction groups generalizing r with
  | nil => simp [scan]
  | cons g groups ih =>
    have hg : (r.addGroup g).endpoints.find? k = (r.endpoints.find? k).or (g.scan k) := by
      rw [← g.find?_endpoints]
      exact Table.find?_foldl_setNew Endpoint.servedKind g.endpoints r.endpoints k
    have hs : scan (g :: groups) k = (g.scan k).or (scan groups k) := by
      unfold scan
      rw [List.findSome?_cons]
      cases g.scan k <;> rfl
    rw [List.foldl_cons, ih, hg, hs, Option.or_assoc]

theorem preferredOf_cons (g : ServedGroup) (groups : List ServedGroup) (name : String) :
    preferredOf (g :: groups) name =
      (preferredOf groups name).or (if g.name = name then some g.preferredVersion else none) := by
  unfold preferredOf
  by_cases hn : g.name = name
  · rw [List.filter_cons_of_pos (by simpa using hn), if_pos hn, List.getLast?_cons]
    cases (groups.filter (·.name = name)).getLast? <;> rfl
  · rw [List.filter_cons_of_neg (by simpa using hn), if_neg hn, Option.or_none]

theorem find?_preferred_foldl (groups : List ServedGroup) (r : Resolver) (name : String) :
    (groups.foldl addGroup r).preferred.find? name =
      (preferredOf groups name).or (r.preferred.find? name) := by
  induction groups generalizing r with
  | nil => simp [preferredOf]
  | cons g groups ih =>
    have hg : (r.addGroup g).preferred.find? name =
        if g.name = name then some g.preferredVersion else r.preferred.find? name :=
      Table.find?_set g.name g.preferredVersion r.preferred name
    rw [List.foldl_cons, ih, hg, preferredOf_cons, Option.or_assoc]
    split <;> rfl

theorem resolve_ofGroups (groups : List ServedGroup) (k : Kind) :
    (ofGroups groups).resolve k = lookup groups k := by
  have hp : (ofGroups groups).preferred.find? k.group = preferredOf groups k.group := by
    rw [ofGroups, find?_preferred_foldl, Table.find?_nil, Option.or_none]
  have he : ∀ k, (ofGroups groups).endpoints.find? k = scan groups k := by
    intro k
    rw [ofGroups, find?_endpoints_foldl, Table.find?_nil, Option.none_or]
  simp only [resolve, hp, he]
  rfl

theorem keys_foldl (groups : List ServedGroup) {r : Resolver} (h : r.endpoints.keys.Nodup) :
    (groups.foldl addGroup r).endpoints.keys.Nodup ∧
      (groups.foldl addGroup r).endpoints.keys.toFinset =
        r.endpoints.keys.toFinset ∪ (groups.flatMap ServedGroup.kinds).toFinset := by
  induction groups generalizing r with
  | nil => simpa using h
  | cons g groups ih =>
    obtain ⟨hn, hk⟩ := Table.keys_foldl_setNew Endpoint.servedKind g.endpoints h
    obtain ⟨hn', hk'⟩ := ih (r := r.addGroup g) hn
    refine ⟨hn', hk'.trans ?_⟩
    have hg : (r.addGroup g).endpoints.keys.toFinset =
        r.endpoints.keys.toFinset ∪ g.kinds.toFinset := g.map_servedKind ▸ hk
    rw [hg, List.flatMap_cons, List.toFinset_append, Finset.union_assoc]

theorem size_ofGroups (groups : List ServedGroup) :
    (ofGroups groups).size = (groups.flatMap ServedGroup.kinds).toFinset.card := by
  obtain ⟨hn, hk⟩ := keys_foldl groups (r := ⟨true, [], []⟩) List.nodup_nil
  have hs : (ofGroups groups).size = (ofGroups groups).endpoints.keys.length :=
    (List.length_map _).symm
  rw [hs, ofGroups, ← List.toFinset_card_of_nodup hn, hk]
  simp [Table.keys]

theorem scan_eq_some {groups : List ServedGroup} {k : Kind} {e : Endpoint}
    (h : scan groups k = some e) : e.servedKind = k := by
  obtain ⟨g, _, hg⟩ := List.exists_of_findSome?_eq_some h
  rw [← g.find?_endpoints] at hg
  simpa using List.find?_some hg

theorem lookup_eq_ok {groups : List ServedGroup} {k : Kind} {e : Endpoint}
    (h : lookup groups k = .ok e) :
    e.group = k.group ∧ e.kind = k.name ∧ (k.version ≠ "" → e.version = k.version) := by
  unfold lookup at h
  dsimp only at h
  split at h
  · next found hf =>
    cases h
    obtain ⟨version, hv, hs⟩ := Option.bind_eq_some_iff.mp hf
    have hk := scan_eq_some hs
    refine ⟨congrArg Kind.group hk, congrArg Kind.name hk, fun hne => ?_⟩
    rw [if_neg hne] at hv
    cases hv
    exact congrArg Kind.version hk
  · cases h

def after (history : List (Option (Except StoreError (List ServedGroup)))) : Resolver :=
  history.foldl (fun r answer? => (r.refreshed answer?).2) unloaded

def served? : Option (Except StoreError (List ServedGroup)) → Option (List ServedGroup)
  | some (.ok groups) => some groups
  | _ => none

/-- The groups of the last answer that came in time and is no error. -/
def lastServed? (history : List (Option (Except StoreError (List ServedGroup)))) :
    Option (List ServedGroup) :=
  (history.filterMap served?).getLast?

variable {history : List (Option (Except StoreError (List ServedGroup)))}

theorem refreshed_snd (r : Resolver) (answer? : Option (Except StoreError (List ServedGroup))) :
    (r.refreshed answer?).2 = ((served? answer?).map ofGroups).getD r := by
  rcases answer? with _ | _ | _ <;> rfl

theorem lastServed?_concat (answer? : Option (Except StoreError (List ServedGroup))) :
    lastServed? (history ++ [answer?]) = (served? answer?).or (lastServed? history) := by
  unfold lastServed?
  rw [List.filterMap_append, List.getLast?_append]
  cases h : served? answer? <;> simp [h]

theorem after_eq (history : List (Option (Except StoreError (List ServedGroup)))) :
    after history = ((lastServed? history).map ofGroups).getD unloaded := by
  induction history using List.reverseRecOn with
  | nil => rfl
  | append_singleton history answer? ih =>
    have hstep : after (history ++ [answer?]) = ((after history).refreshed answer?).2 :=
      List.foldl_concat ..
    rw [hstep, refreshed_snd, ih, lastServed?_concat]
    cases served? answer? <;> rfl

theorem lastServed?_eq_none :
    lastServed? history = none ↔ ¬ ∃ groups, some (.ok groups) ∈ history := by
  have hmem : ∀ answer? ∈ history, ∀ groups, served? answer? = some groups ↔
      answer? = some (.ok groups) := by
    intro answer? _ groups
    rcases answer? with _ | _ | _ <;> simp [served?]
  unfold lastServed?
  rw [List.getLast?_eq_none_iff, List.filterMap_eq_nil_iff]
  constructor
  · rintro h ⟨groups, hg⟩
    exact nomatch h _ hg
  · intro h answer? ha
    refine Option.eq_none_iff_forall_ne_some.mpr fun groups hs => h ⟨groups, ?_⟩
    rwa [← (hmem answer? ha groups).mp hs]

structure Reflects (history : List (Option (Except StoreError (List ServedGroup))))
    (r : Resolver) : Prop where
  loaded_iff : r.loaded = true ↔ ∃ groups, some (.ok groups) ∈ history
  resolve_eq : ∀ k, r.resolve k = lookup ((lastServed? history).getD []) k
  resolve_ok : ∀ k e, r.resolve k = .ok e →
    e.group = k.group ∧ e.kind = k.name ∧ (k.version ≠ "" → e.version = k.version)
  refreshed_ok : ∀ groups, r.refreshed (some (.ok groups)) =
    (.loaded (groups.flatMap ServedGroup.kinds).toFinset.card, .ofGroups groups)
  refreshed_error : ∀ e, r.refreshed (some (.error e)) = (.failed e, r)
  refreshed_none : r.refreshed none = (.cutOff, r)

/-- After any history of refreshes, a mapping answers as a scan of what was reported last does. -/
theorem after_reflects (history : List (Option (Except StoreError (List ServedGroup)))) :
    Reflects history (after history) := by
  have hresolve : ∀ k, (after history).resolve k = lookup ((lastServed? history).getD []) k := by
    intro k
    rw [after_eq]
    cases lastServed? history with
    | some groups => exact resolve_ofGroups groups k
    -- A mapping that was never built finds no more than one of no groups.
    | none => exact resolve_ofGroups [] k
  constructor
  case loaded_iff =>
    rw [after_eq]
    cases hl : lastServed? history with
    | some groups =>
      refine iff_of_true (loaded_ofGroups groups) ?_
      by_contra hn
      exact nomatch (lastServed?_eq_none.mpr hn).symm.trans hl
    | none => exact iff_of_false nofun (lastServed?_eq_none.mp hl)
  case resolve_eq => exact hresolve
  case resolve_ok =>
    intro k e h
    rw [hresolve] at h
    exact lookup_eq_ok h
  case refreshed_ok =>
    intro groups
    rw [refreshed, size_ofGroups]
  case refreshed_error => exact fun _ => rfl
  case refreshed_none => rfl

/-- Two reports of one group: the first resource of a kind and the last preferred version count. -/
example :
    let apps (plural : String) := ServedGroup.single "apps" "v1" [⟨plural, "Deployment", true⟩]
    let groups := [apps "deployments", { apps "others" with preferredVersion := "v2" }]
    let r := after [some (.ok groups), none, some (.error (.rejected 503 "busy"))]
    r.resolve ⟨"apps", "v1", "Deployment"⟩ =
        .ok ⟨"apps", "v1", "Deployment", "deployments", .namespaced⟩ ∧
      r.resolve ⟨"apps", "", "Deployment"⟩ = .error ⟨⟨"apps", "", "Deployment"⟩⟩ := by
  decide +kernel

end Resolver

end ManifestSync
