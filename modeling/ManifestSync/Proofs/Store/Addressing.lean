import ManifestSync.Proofs.Manifest.Convergence

namespace ManifestSync

open Scenario

namespace Manifest

variable {path : String} {object : Tree} {m : Manifest} {memory before after : Memory} {e : Endpoint}

theorem key_eq_of_ownNamespace? (h : ofTree path object = .ok m) (e : Endpoint) :
    ObjectKey.of e m.object.ownNamespace? m.object.ownName = m.key e := by
  have hn : m.object.ownName = m.name := (named_of_ofTree h).name_eq
  have hns : (e.scopedNamespace m.object.ownNamespace?).getD "" =
      (e.scopedNamespace m.inNamespace?).getD "" := by
    rw [inNamespace?_of_ofTree h]
    unfold Endpoint.scopedNamespace
    cases e.isNamespaced with
    | false => rfl
    | true =>
      cases m.object.ownNamespace? with
      | none => rfl
      | some ns => by_cases hempty : ns = "" <;> simp [Option.filter, hempty]
  unfold key ObjectKey.of
  rw [hn, hns]

theorem addObject_eq (h : ofTree path object = .ok m) (e : Endpoint) (memory : Memory) :
    memory.addObject e m.object =
      { memory with objects := memory.objects.set (m.key e) m.object } := by
  rw [Memory.addObject, key_eq_of_ownNamespace? h]

/-- The manifest's object was put where the manifest looks for it, and nothing else was. Whoever asks
for it gets it as it is, and applying the manifest, with updates or without, only looks at it. -/
structure Deposited (m : Manifest) (e : Endpoint) (before after : Memory) : Prop where
  stored : after.object? (m.key e) = some m.object
  elsewhere : ∀ key, key ≠ m.key e → after.object? key = before.object? key
  found : ∀ feed now, ∃ later,
    (World.stagedServices.send (.get e m.inNamespace? m.name) (.still after feed)).await
        World.stagedServices.drift now =
      (.ok m.object, ⟨later, .still (m.looked e after) feed⟩)
  unchanged : ∀ update feed now, ∃ later,
    (m.apply update e).await World.stagedServices ⟨now, .still after feed⟩ =
      (.ok .unchanged, ⟨later, .still (m.looked e after) feed⟩)

theorem deposited_of_set (hf : after.failures = [])
    (ho : after.objects = before.objects.set (m.key e) m.object) : m.Deposited e before after := by
  have hs : after.object? (m.key e) = some m.object := by
    rw [Memory.object?, ho, Table.find?_set, if_pos rfl]
  constructor
  case stored => exact hs
  case elsewhere =>
    intro key hne
    rw [Memory.object?, ho, Table.find?_set, if_neg (Ne.symm hne)]
    rfl
  case found =>
    intro feed now
    rw [World.await_send_still, Memory.served_get hf hs]
    exact ⟨_, rfl⟩
  case unchanged =>
    intro update feed now
    rw [Dialogue.await_still, converse_apply_unchanged hf hs fun _ => updatePatch_self m.object]
    exact ⟨_, rfl⟩

/-- In a store without staged failures the manifest's object comes to the same place whether it is put
there by hand or, if the place is free, created, and is found there. -/
theorem deposited_alike (h : ofTree path object = .ok m) (hf : memory.failures = [])
    (e : Endpoint) :
    m.Deposited e memory (memory.addObject e m.object) ∧
    (memory.object? (m.key e) = none → ∀ feed now, ∃ later created,
      (World.stagedServices.send (.create e m.inNamespace? m.object) (.still memory feed)).await
          World.stagedServices.drift now = (.ok m.object, ⟨later, .still created feed⟩) ∧
        created.objects = (memory.addObject e m.object).objects ∧
        m.Deposited e memory created) := by
  have hn := named_of_ofTree h
  rw [addObject_eq h]
  refine ⟨deposited_of_set hf rfl, fun hfree feed now => ?_⟩
  have hne : m.object.ownName ≠ "" := hn.name_eq ▸ hn.ne_empty
  have hk : memory.object? (.of e m.inNamespace? m.object.ownName) = none := by
    rw [hn.name_eq]
    exact hfree
  have hc := Memory.served_create hf hne hk
  have hkey : ObjectKey.of e m.inNamespace? m.object.ownName = m.key e := by rw [hn.name_eq, key]
  rw [hkey] at hc
  rw [World.await_send_still, hc]
  exact ⟨_, _, rfl, rfl, deposited_of_set hf rfl⟩

def unplacedMap : Tree :=
  .object [("apiVersion", .text "v1"), ("kind", .text "ConfigMap"),
    ("metadata", .object [("name", .text "ca"), ("namespace", .text "")]),
    ("status", .object [("observedGeneration", .object [("seen", .null)])])]

def placedMemory : Memory :=
  { Memory.empty.addObject stateMaps (stateMap .null) with delays := [(.get, 3)] }

theorem deposited_alike_unplaced : ∃ m,
    ofTree "ca.yaml" unplacedMap = .ok m ∧ m.object.ownNamespace? = some "" ∧
      m.inNamespace? = none ∧ placedMemory.failures = [] ∧
      placedMemory.object? (m.key stateMaps) = none ∧
      m.Deposited stateMaps placedMemory (placedMemory.addObject stateMaps m.object) ∧
      ∃ later created,
        (World.stagedServices.send (.create stateMaps none m.object)
            (.still placedMemory (.ofGroups []))).await World.stagedServices.drift 0 =
          (.ok m.object, ⟨later, .still created (.ofGroups [])⟩) ∧
        created.objects = (placedMemory.addObject stateMaps m.object).objects ∧
        m.Deposited stateMaps placedMemory created := by
  have hm : ofTree "ca.yaml" unplacedMap = .ok _ := rfl
  have hf : placedMemory.failures = [] := rfl
  obtain ⟨hseeded, hcreated⟩ := deposited_alike hm hf stateMaps
  exact ⟨_, rfl, rfl, rfl, hf, rfl, hseeded, hcreated rfl (.ofGroups []) 0⟩

end Manifest

end ManifestSync
