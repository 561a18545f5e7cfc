import ManifestSync.Proofs.Reconcile.Independence
import ManifestSync.Proofs.Reconcile.Inventory

namespace ManifestSync

open Scenario

namespace Scenario.World

/-- Of two worlds, the later one differs from the earlier one at these keys at most if that was
undisturbed. -/
def ChangesOnly (keys : ObjectKey → Prop) (before after : World) : Prop :=
  before.Undisturbed → after.Undisturbed ∧
    ∀ key, ¬ keys key → after.memory.object? key = before.memory.object? key

variable {keys : ObjectKey → Prop} {w w' w'' : World}

theorem ChangesOnly.trans (h : w.ChangesOnly keys w') (h' : w'.ChangesOnly keys w'') :
    w.ChangesOnly keys w'' := by
  intro hu
  obtain ⟨hu', ho⟩ := h hu
  obtain ⟨hu'', ho'⟩ := h' hu'
  exact ⟨hu'', fun key hk => (ho' key hk).trans (ho key hk)⟩

theorem changesOnly_of_objects (h : w.Undisturbed → w'.Undisturbed ∧
    w'.memory.objects = w.memory.objects) : w.ChangesOnly keys w' := by
  intro hu
  obtain ⟨hu', ho⟩ := h hu
  exact ⟨hu', fun key _ => congrArg (Table.find? key) ho⟩

theorem ChangesOnly.mono {keys' : ObjectKey → Prop} (h : w.ChangesOnly keys w')
    (hk : ∀ key, keys key → keys' key) : w.ChangesOnly keys' w' := by
  intro hu
  obtain ⟨hu', ho⟩ := h hu
  exact ⟨hu', fun key hne => ho key fun hkey => hne (hk key hkey)⟩

theorem changesOnly_settle {r : Request} (h : keys r.key) (w : World) :
    w.ChangesOnly keys { w with memory := (w.memory.settle r).2 } := by
  refine fun hu => ⟨hu, fun key hk => ?_⟩
  obtain ⟨f, hf⟩ | hp := Memory.settle_cases r w.memory
  · rw [hf]
  · have hput : Memory.AgreeOn (fun key => ¬ keys key) _ w.memory :=
      Memory.put_elsewhere (not_not_intro h) (r.effect (w.memory.object? r.key)).2 w.memory
    rw [hp, Memory.perform_eq]
    exact hput.object? key hk

theorem staged_changesOnly (keys : ObjectKey → Prop) :
    stagedServices.Within (fun r => keys r.key) (ChangesOnly keys) where
  refl _ hu := ⟨hu, fun _ _ => rfl⟩
  trans := ChangesOnly.trans
  drift before after _ := changesOnly_of_objects fun hu => hu.drift before after
  discover _ := changesOnly_of_objects fun hu => ⟨hu, rfl⟩
  send _ w hr := send_within (R := ChangesOnly keys) ChangesOnly.trans
    (fun _ => changesOnly_of_objects fun hu => ⟨hu, rfl⟩) (changesOnly_settle hr) w

end Scenario.World

namespace Manifest

variable {m : Manifest} {e : Endpoint} {update : Bool} {resolver : Resolver} {deadline : Nat}
  {moment moment' : Moment World} {a : Attempt}

theorem Attempts.changesOnly
    (h : m.Attempts World.stagedServices update resolver deadline moment a moment')
    {done : Applied} (hr : a.result = .ok done) :
    moment.world.ChangesOnly (m.Claims done.endpoint) moment'.world := by
  cases h with
  | unresolved | refused | cutOff => cases hr
  | @applied e held outcome _ hh =>
    cases hr
    exact ((World.staged_changesOnly (m.Claims e)).frame deadline).holds
      (m.apply_claims update e) hh

end Manifest

structure Atomic (m : Manifest) (resolver : Resolver) (a : Attempt) (before after : World) :
    Prop where
  /-- Whatever others do meanwhile, one that fails does nothing but send requests and wait. -/
  idles : ∀ error, a.result = .error error → before.Idles after
  failure : before.Undisturbed → ∀ error, a.result = .error error →
    after.memory.objects = before.memory.objects
  success : ∀ done, a.result = .ok done →
    resolver.resolve m.kind = .ok done.endpoint ∧ before.ChangesOnly (m.Claims done.endpoint) after
  named : m.Named → ∀ done, a.result = .ok done →
    before.ChangesOnly (fun key => key = m.key done.endpoint) after

/-- A run changes the objects at most where the manifests that it applied claim to be. -/
theorem Ran.changesOnly {options : Options} {deadline : Nat} {manifests : List Manifest}
    {resolver : Resolver} {stage : Stage World} {made : RunRecord World}
    (h : Ran World.stagedServices options deadline manifests resolver stage made) :
    stage.moment.world.ChangesOnly
      (fun key => ∃ a ∈ made.attempts, ∃ done, a.result = .ok done ∧
        a.manifest.Claims done.endpoint key) made.stage.moment.world := by
  have hc : World.stagedServices.Chronicle options deadline (fun _ => True) fun attempts m m' =>
      m.world.ChangesOnly (fun key => ∃ a ∈ attempts, ∃ done, a.result = .ok done ∧
        a.manifest.Claims done.endpoint key) m'.world := by
    constructor
    case nil => exact fun m hu => ⟨hu, fun _ _ => rfl⟩
    case append =>
      intro as bs m m' m'' h h'
      refine (h.mono ?_).trans (h'.mono ?_)
      · rintro key ⟨a, ha, hd⟩
        exact ⟨a, List.mem_append_left _ ha, hd⟩
      · rintro key ⟨a, ha, hd⟩
        exact ⟨a, List.mem_append_right _ ha, hd⟩
    case pause =>
      intro m instant _
      have hi := World.Idles.refl.until (m := m) instant
      exact World.changesOnly_of_objects hi.objects_eq
    case discover => exact fun m hu => ⟨hu, fun _ _ => rfl⟩
    case attempt =>
      intro resolver m moment a moment' _ _ h
      cases hr : a.result with
      | error error => exact World.changesOnly_of_objects (h.idles hr).objects_eq
      | ok done =>
        refine (h.changesOnly hr).mono fun key hk => ?_
        exact ⟨a, List.mem_singleton_self a, done, hr, h.manifest_eq ▸ hk⟩
  exact hc.run (fun _ _ => trivial) h

/-- An attempt that fails leaves the objects as they were, at whatever point it does, and one that
succeeds those at other keys than its own, as long as nobody else puts objects into the store. -/
theorem attempt_atomic (options : Options) (resolver : Resolver) (deadline : Nat) (m : Manifest)
    (stage : Stage World) :
    let (a, stage') := stage.attempt World.stagedServices options resolver deadline m
    Atomic m resolver a stage.moment.world stage'.moment.world := by
  rcases ha : stage.attempt World.stagedServices options resolver deadline m with ⟨a, stage'⟩
  have h := Stage.attempts ha
  constructor
  case idles => exact fun _ hr => h.idles hr
  case failure => exact fun hu _ hr => ((h.idles hr).objects_eq hu).2
  case success => exact fun done hr => ⟨h.resolve_eq hr, h.changesOnly hr⟩
  case named => exact fun hn done hr => (h.changesOnly hr).mono fun _ => hn.claims_iff.mp

def sluggishWorld : World :=
  ⟨{ Memory.empty with
      objects := [(⟨"", "configmaps", "apps", "cb"⟩, stateMap .null)]
      delays := [(.create, 30)] }, .ofGroups [], .empty, [(10, .clearFailures)]⟩

theorem attempt_atomic_cutOff :
    sluggishWorld.Undisturbed ∧
      let made := Stage.attempt World.stagedServices ⟨true, false, [], 5⟩
        (.ofGroups [.single "" "v1" [⟨"configmaps", "ConfigMap", true⟩]]) 20
        (stateManifest (.text "Managed")) ⟨⟨0, sluggishWorld⟩, ⟨true, []⟩⟩
      made.1.exchanges.map (·.request.verb) = [.get, .create] ∧
        made.1.result = .error (.deadlineExceeded "ca.yaml") ∧
        made.2.moment.world.memory.objects = sluggishWorld.memory.objects := by
  have hu : sluggishWorld.Undisturbed := List.forall_mem_singleton.mpr rfl
  refine ⟨hu, ?_⟩
  intro made
  have ha := attempt_atomic ⟨true, false, [], 5⟩
    (.ofGroups [.single "" "v1" [⟨"configmaps", "ConfigMap", true⟩]]) 20
    (stateManifest (.text "Managed")) ⟨⟨0, sluggishWorld⟩, ⟨true, []⟩⟩
  have hr : made.1.result = .error (.deadlineExceeded "ca.yaml") := rfl
  exact ⟨by decide +kernel, hr, ha.failure hu _ hr⟩

end ManifestSync
