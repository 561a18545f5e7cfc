import ManifestSync.Proofs.Reconcile.Runs
import ManifestSync.Proofs.Scenario.Staged
import ManifestSync.Proofs.Store.Keeps

namespace ManifestSync

open Scenario

theorem Manifest.apply_harmless (update : Bool) (m : Manifest) (e : Endpoint) :
    (m.apply update e).All (Request.Harmless update) :=
  m.apply_all trivial trivial fun hu _ _ hp =>
    ⟨hu, fun _ ha => misses_of_updatePatch hp fun target ht _ => ha target ht⟩

namespace Scenario

def Change.addsObject : Change → Bool
  | .addObject .. => true
  | _ => false

namespace World

/-- No object is going to be put into the store from outside. -/
def Undisturbed (w : World) : Prop := ∀ c ∈ w.timeline, c.2.addsObject = false

/-- Of two worlds, the later one keeps the objects of the earlier one if that was undisturbed. -/
def Keeps (update : Bool) (before after : World) : Prop :=
  before.Undisturbed → after.Undisturbed ∧ before.memory.Keeps update after.memory

variable {update : Bool} {w w' : World}

theorem keeps_of_memory (ht : w'.timeline = w.timeline) (h : w.memory.Keeps update w'.memory) :
    w.Keeps update w' := fun hu => ⟨by rwa [Undisturbed, ht], h⟩

theorem Keeps.trans {w'' : World} (h : w.Keeps update w') (h' : w'.Keeps update w'') :
    w.Keeps update w'' := by
  intro hu
  obtain ⟨hu', hk⟩ := h hu
  obtain ⟨hu'', hk'⟩ := h' hu'
  exact ⟨hu'', hk.trans hk'⟩

theorem change_objects {c : Change} (h : c.addsObject = false) (w : World) :
    (w.change c).memory.objects = w.memory.objects := by
  cases c with
  | addObject => cases h
  | _ => rfl

theorem change_timeline (c : Change) (w : World) : (w.change c).timeline = w.timeline := by
  cases c <;> rfl

theorem Undisturbed.drift (h : w.Undisturbed) (before after : Nat) :
    (drift before after w).Undisturbed ∧
      (World.drift before after w).memory.objects = w.memory.objects := by
  refine drift_induction
    (P := fun w' => w'.Undisturbed ∧ w'.memory.objects = w.memory.objects) before after
    (fun later hl => ⟨fun c hc => h c (hl hc), rfl⟩) ?_
  rintro w' c hc ⟨hu, ho⟩
  rw [Undisturbed, change_timeline]
  exact ⟨hu, (change_objects (h c hc) w').trans ho⟩

theorem keeps_drift (before after : Nat) (w : World) : w.Keeps update (drift before after w) := by
  intro hu
  obtain ⟨hu', ho⟩ := hu.drift before after
  exact ⟨hu', Memory.keeps_of_objects ho⟩

theorem send_within {R : World → World → Prop} {r : Request}
    (htrans : ∀ {w w' w''}, R w w' → R w' w'' → R w w'') (hrecord : ∀ w, R w (w.recorded r))
    (hsettle : ∀ w, R w { w with memory := (w.memory.settle r).2 }) (w : World) :
    (stagedServices.send r w).Within R w := by
  simp only [stagedServices, Memory.send]
  cases (w.memory.record r).delayOf? r with
  | none => exact htrans (hrecord w) (hsettle (w.recorded r))
  | some delay => exact ⟨hrecord w, hsettle⟩

theorem staged_within (update : Bool) :
    stagedServices.Within (Request.Harmless update) (Keeps update) where
  refl _ := keeps_of_memory rfl (Memory.keeps_of_objects rfl)
  trans := Keeps.trans
  drift := keeps_drift
  discover _ := keeps_of_memory rfl (Memory.keeps_of_objects rfl)
  send _ w hr := send_within (R := Keeps update) Keeps.trans
    (fun _ => keeps_of_memory rfl (Memory.keeps_of_objects rfl))
    (fun w => keeps_of_memory rfl (Memory.keeps_settle hr w.memory)) w

end World

end Scenario

/-- A run on any manifests loses no object and changes none but at the updatable paths, and neither
does one that is given any more rounds. -/
theorem run_keeps (options : Options) (deadline : Nat) (manifests : List Manifest)
    (resolver : Resolver) (stage : Stage World) (h : stage.moment.world.Undisturbed) :
    stage.moment.world.memory.Keeps options.update
        (run World.stagedServices options deadline manifests resolver
          stage).stage.moment.world.memory ∧
      (manifests ≠ [] → ∀ more, stage.moment.world.memory.Keeps options.update
        (runBeyond World.stagedServices options deadline manifests resolver stage
          more).stage.moment.world.memory) := by
  have hframe := (World.staged_within options.update).frame deadline
  exact run_and_beyond fun _ hr => (hframe.run (Manifest.apply_harmless options.update) hr h).2

def waitingWorld : World :=
  ⟨Memory.empty.addObject stateMaps (stateMap .null),
    .ofGroups [.single "" "v1" [⟨"configmaps", "ConfigMap", true⟩]], .empty,
    [(50, .addFailure ⟨.get, none, 500, "later"⟩)]⟩

theorem run_keeps_name :
    ∃ object,
      (run World.stagedServices ⟨true, false, [], 5⟩ 100 [stateManifest (.text "Managed")] .unloaded
        ⟨⟨0, waitingWorld⟩, ⟨true, []⟩⟩).stage.moment.world.memory.object?
          ⟨"", "configmaps", "apps", "ca"⟩ = some object ∧
      object.at? ["metadata", "name"] = some (.text "ca") ∧
      object.at? ["spec", "managementState"] = some (.text "Managed") := by
  have hu : waitingWorld.Undisturbed := by
    intro c hc
    rw [List.mem_singleton.mp hc]
    rfl
  have ha : ∀ target ∈ updatablePaths, Tree.Apart ["metadata", "name"] target := by decide
  obtain ⟨object, ho, hp⟩ := (run_keeps ⟨true, false, [], 5⟩ 100
    [stateManifest (.text "Managed")] .unloaded ⟨⟨0, waitingWorld⟩, ⟨true, []⟩⟩ hu).1
    ⟨"", "configmaps", "apps", "ca"⟩ (stateMap .null) rfl
  refine ⟨object, ho, hp _ ha, ?_⟩
  obtain rfl : stateMap (.text "Managed") = object := Option.some.inj ho
  rfl

end ManifestSync
