import ManifestSync.Proofs.Reconcile.Presence
import ManifestSync.Proofs.Reconcile.Tally

namespace ManifestSync

open Scenario

/-- What attempts make of the stored objects, one after another. -/
inductive Turned : List Attempt → Table ObjectKey Tree → Table ObjectKey Tree → Prop where
  | nil {t} : Turned [] t t
  | failed {a attempts t u error} : a.result = .error error → Turned attempts t u →
      Turned (a :: attempts) t u
  | ensured {a attempts t u v done} : a.result = .ok done →
      a.manifest.Ensures (a.manifest.key done.endpoint) t done.outcome u →
      Turned attempts u v → Turned (a :: attempts) t v

def Attempt.created? (a : Attempt) : Option ObjectKey :=
  if a.outcome? = some .created then a.key? else none

theorem Attempt.created?_of_error {a : Attempt} {error : ApplyError}
    (h : a.result = .error error) : a.created? = none := by
  rw [created?, outcome?_of_error h]
  rfl

theorem Attempt.created?_of_ok {a : Attempt} {done : Applied} (h : a.result = .ok done) :
    a.created? =
      if done.outcome = .created then some (a.manifest.key done.endpoint) else none := by
  have hk : a.key? = some (a.manifest.key done.endpoint) := key?_eq_some.mpr ⟨done, h, rfl⟩
  rw [created?, outcome?_of_ok h, hk]
  simp

theorem Attempt.isSome_created? (a : Attempt) :
    a.created?.isSome = decide (a.outcome? = some .created) := by
  cases hr : a.result with
  | error error =>
    rw [created?_of_error hr, outcome?_of_error hr]
    rfl
  | ok done =>
    rw [created?_of_ok hr, outcome?_of_ok hr]
    by_cases hc : done.outcome = .created <;> simp [hc]

namespace Turned

variable {as bs : List Attempt} {t u v : Table ObjectKey Tree}

theorem append (h : Turned as t u) (h' : Turned bs u v) : Turned (as ++ bs) t v := by
  induction h with
  | nil => exact h'
  | failed hr _ ih => exact .failed hr (ih h')
  | ensured hr he _ ih => exact .ensured hr he (ih h')

theorem keys_eq (h : Turned as t u) : u.keys = t.keys ++ as.filterMap Attempt.created? := by
  induction h with
  | nil => exact (List.append_nil _).symm
  | failed hr _ ih => rw [ih, List.filterMap_cons_none (Attempt.created?_of_error hr)]
  | @ensured a attempts t u v done hr he _ ih =>
    rw [ih, he.keys_eq, List.append_assoc, List.filterMap_cons, Attempt.created?_of_ok hr]
    by_cases hc : done.outcome = .created <;> simp [hc]

theorem length_eq (h : Turned as t u) :
    u.length = t.length + as.countP (·.outcome? = some .created) := by
  have hk := congrArg List.length h.keys_eq
  have hc : ∀ t : Table ObjectKey Tree, t.keys.length = t.length := fun t => List.length_map _
  rw [List.length_append, hc, hc, List.length_filterMap_eq_countP] at hk
  simpa only [Attempt.isSome_created?] using hk

theorem created_fresh (h : Turned as t u) :
    (as.filterMap Attempt.created?).Nodup ∧ ∀ key ∈ as.filterMap Attempt.created?, key ∉ t.keys := by
  induction h with
  | nil => exact ⟨.nil, nofun⟩
  | failed hr _ ih =>
    rw [List.filterMap_cons_none (Attempt.created?_of_error hr)]
    exact ih
  | @ensured a attempts t u v done hr he _ ih =>
    obtain ⟨hd, hf⟩ := ih
    rw [he.keys_eq] at hf
    rw [List.filterMap_cons, Attempt.created?_of_ok hr]
    by_cases hc : done.outcome = .created
    · simp only [hc, ↓reduceIte, List.mem_append, List.mem_singleton, not_or] at hf ⊢
      refine ⟨List.nodup_cons.mpr ⟨fun hk => (hf _ hk).2 rfl, hd⟩, List.forall_mem_cons.mpr ?_⟩
      exact ⟨he.not_mem_keys hc, fun key hk => (hf key hk).1⟩
    · simp only [hc, ↓reduceIte, List.append_nil] at hf ⊢
      exact ⟨hd, hf⟩

end Turned

theorem Scenario.World.Idles.objects_eq {w w' : World} (h : w.Idles w') (hu : w.Undisturbed) :
    w'.Undisturbed ∧ w'.memory.objects = w.memory.objects := by
  induction h with
  | refl => exact ⟨hu, rfl⟩
  | record r _ ih => exact ih
  | wait before after _ ih =>
    obtain ⟨hu', ho⟩ := ih
    obtain ⟨hd, hs⟩ := hu'.drift before after
    exact ⟨hd, hs.trans ho⟩

theorem Manifest.Leaves.ensures {m : Manifest} {e : Endpoint} {w w' : World} {outcome : Outcome}
    (h : m.Leaves e w (some outcome) w') (hu : w.Undisturbed) :
    w'.Undisturbed ∧ m.Ensures (m.key e) w.memory.objects outcome w'.memory.objects := by
  cases h with
  | ensured hi he =>
    obtain ⟨hu', ho⟩ := hi.objects_eq hu
    exact ⟨hu', ho ▸ he⟩

theorem turning_chronicle (options : Options) (deadline : Nat) :
    World.stagedServices.Chronicle options deadline Manifest.Named fun attempts m m' =>
      m.world.Undisturbed → m'.world.Undisturbed ∧
        Turned attempts m.world.memory.objects m'.world.memory.objects where
  nil _ hu := ⟨hu, .nil⟩
  append := by
    intro as bs m m' m'' h h' hu
    obtain ⟨hu', ht⟩ := h hu
    obtain ⟨hu'', ht'⟩ := h' hu'
    exact ⟨hu'', ht.append ht'⟩
  pause m instant _ hu := by
    obtain ⟨hu', ho⟩ := (World.Idles.refl.until (m := m) instant).objects_eq hu
    exact ⟨hu', ho ▸ .nil⟩
  discover _ hu := ⟨hu, .nil⟩
  attempt := by
    intro resolver m moment a moment' hn _ h hu
    cases hr : a.result with
    | error error =>
      obtain ⟨hu', ho⟩ := (h.idles hr).objects_eq hu
      exact ⟨hu', ho ▸ .failed hr .nil⟩
    | ok done =>
      obtain ⟨hu', he⟩ := (h.leaves hn hr).ensures hu
      rw [← h.manifest_eq] at he
      exact ⟨hu', .ensured hr he .nil⟩

def RunRecord.created {σ : Type} (made : RunRecord σ) : List ObjectKey :=
  made.attempts.filterMap Attempt.created?

structure Inventoried (manifests : List Manifest) (before after : Memory)
    (made : RunRecord World) : Prop where
  turned : Turned made.attempts before.objects after.objects
  resolved : ∀ r ∈ made.rounds, r.Resolved
  present : ∀ a ∈ made.attempts, ∀ key, a.key? = some key → (after.object? key).isSome = true
  created : after.objects.keys = before.objects.keys ++ made.created
  fresh : made.created.Nodup ∧ ∀ key ∈ made.created, before.object? key = none
  grown : after.objects.length =
    before.objects.length + made.attempts.countP (·.outcome? = some .created)
  success : ∀ summary, made.result = .ok summary →
    summary.created = made.attempts.countP (·.outcome? = some .created) ∧
      ((made.attempts.filter (·.succeeded)).map Attempt.manifest).Perm manifests

theorem Ran.inventoried {options : Options} {deadline : Nat} {manifests : List Manifest}
    (hn : ∀ m ∈ manifests, m.Named) {resolver : Resolver} {stage : Stage World}
    (hu : stage.moment.world.Undisturbed) {made : RunRecord World}
    (h : Ran World.stagedServices options deadline manifests resolver stage made) :
    Inventoried manifests stage.moment.world.memory made.stage.moment.world.memory made := by
  obtain ⟨_, hturned⟩ := (turning_chronicle options deadline).run hn h hu
  obtain ⟨_, hpresent⟩ := (presence_chronicle options deadline).run hn h
  obtain ⟨hd, hf⟩ := hturned.created_fresh
  constructor
  case turned => exact hturned
  case resolved => exact h.resolved
  case present => exact fun a ha key hk => Table.isSome_find?.mpr (hpresent a ha key hk)
  case created => exact hturned.keys_eq
  case fresh => exact ⟨hd, fun key hk => Table.find?_eq_none.mpr (hf key hk)⟩
  case grown => exact hturned.length_eq
  case success =>
    intro summary hs
    obtain ⟨hcount, hperm⟩ := h.tally hs
    exact ⟨hcount .created, hperm⟩

/-- A run accounts for the objects that are stored after it, whatever fails or is late, and so does one
that is given any more rounds. -/
theorem run_inventoried (options : Options) (deadline : Nat) {manifests : List Manifest}
    (hn : ∀ m ∈ manifests, m.Named) (resolver : Resolver) (stage : Stage World)
    (hu : stage.moment.world.Undisturbed) :
    let made := run World.stagedServices options deadline manifests resolver stage
    let beyond := runBeyond World.stagedServices options deadline manifests resolver stage
    Inventoried manifests stage.moment.world.memory made.stage.moment.world.memory made ∧
      (manifests ≠ [] → ∀ more, Inventoried manifests stage.moment.world.memory
        (beyond more).stage.moment.world.memory (beyond more)) :=
  run_and_beyond fun _ h => h.inventoried hn hu

def recoveringWorld : World :=
  ⟨{ Memory.empty with failures := [⟨.create, none, 500, "broken"⟩], delays := [(.get, 2)] },
    .ofGroups [.single "" "v1" [⟨"configmaps", "ConfigMap", true⟩]], .empty, [(8, .clearFailures)]⟩

theorem run_inventoried_recovering :
    let manifests := [stateManifest .null, stateManifest (.text "Managed")]
    (∀ m ∈ manifests, m.Named) ∧ recoveringWorld.Undisturbed ∧
      let made := run World.stagedServices ⟨false, false, [], 5⟩ 100 manifests .unloaded
        ⟨⟨0, recoveringWorld⟩, ⟨true, []⟩⟩
      made.stage.moment.world.memory.objects.keys = [⟨"", "configmaps", "apps", "ca"⟩] ∧
        made.result.toOption.map RunSummary.created = some 1 := by
  intro manifests
  have hn : ∀ m ∈ manifests, m.Named :=
    List.forall_mem_cons.mpr ⟨Manifest.named_of_ofTree (ofTree_stateMap _),
      List.forall_mem_singleton.mpr (Manifest.named_of_ofTree (ofTree_stateMap _))⟩
  have hu : recoveringWorld.Undisturbed := List.forall_mem_singleton.mpr rfl
  refine ⟨hn, hu, ?_⟩
  intro made
  obtain ⟨hi, _⟩ := run_inventoried ⟨false, false, [], 5⟩ 100 hn .unloaded
    ⟨⟨0, recoveringWorld⟩, ⟨true, []⟩⟩ hu
  have hcreated : made.created = [⟨"", "configmaps", "apps", "ca"⟩] := by decide +kernel
  have hkeys := hi.created
  rw [hcreated] at hkeys
  exact ⟨hkeys, by decide +kernel⟩

end ManifestSync
