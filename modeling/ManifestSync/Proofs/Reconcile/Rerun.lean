import ManifestSync.Proofs.Catalog.Schedule
import ManifestSync.Proofs.Manifest.Update
import ManifestSync.Proofs.Reconcile.Keeping

namespace ManifestSync

open Scenario

variable {options : Options} {resolver : Resolver} {deadline now : Nat} {m : Manifest} {w : World}

theorem Manifest.attempt_settled {e : Endpoint} {live : Tree}
    (he : resolver.resolve m.kind = .ok e) (hk : w.memory.object? (m.key e) = some live)
    (hc : w.memory.Calm) (deadline now : Nat) :
    m.attempt World.stagedServices false resolver deadline ⟨now, w⟩ =
      (⟨m, (m.apply false e).exchanges now w.memory, .ok ⟨e, .unchanged⟩⟩,
        ⟨now, { w with memory := m.looked e w.memory }⟩) := by
  have hsame : (m.apply false e).converse w.memory = (.ok .unchanged, m.looked e w.memory) :=
    converse_apply_unchanged hc.failures hk nofun
  unfold attempt
  rw [he]
  simp only [Dialogue.hold_of_prompt _ hc.delays, hsame]

theorem Manifest.Settled.of_objects {memory memory' : Memory} (h : m.Settled resolver memory)
    (ho : memory'.objects = memory.objects) : m.Settled resolver memory' := by
  obtain ⟨e, live, he, hl⟩ := h
  refine ⟨e, live, he, ?_⟩
  rw [Memory.object?, ho]
  exact hl

/-- From one memory to another the objects of some manifests were looked for and nothing else. -/
structure Memory.Looks (resolver : Resolver) (manifests : List Manifest)
    (before after : Memory) : Prop where
  objects : after.objects = before.objects
  actions : after.actions = before.actions ++
    manifests.filterMap fun m => (resolver.found? m.kind).map m.look

structure SweptIdly (resolver : Resolver) (pending : List Manifest) (before : Memory)
    (made : Sweep World) : Prop where
  remaining : made.remaining = []
  report : made.report = { SweepReport.blank false with unchanged := pending.length }
  looks : before.Looks resolver pending made.stage.moment.world.memory

theorem Sweeps.sweptIdly {pending : List Manifest} {s : Stage World} {made : Sweep World}
    (hs : Sweeps World.stagedServices options resolver deadline pending s made)
    (hu : options.update = false) (hc : s.moment.world.memory.Calm)
    (hsettled : ∀ m ∈ pending, m.Settled resolver s.moment.world.memory)
    (hd : s.moment.now < deadline) :
    SweptIdly resolver pending s.moment.world.memory made := by
  have hone : ∀ {m : Manifest} {s s' : Stage World} {a : Attempt},
      s.attempt World.stagedServices options resolver deadline m = (a, s') →
      s.moment.world.memory.Calm → m.Settled resolver s.moment.world.memory →
      ∃ e, resolver.resolve m.kind = .ok e ∧ a.result = .ok ⟨e, .unchanged⟩ ∧
        s'.moment = ⟨s.moment.now,
          { s.moment.world with memory := m.looked e s.moment.world.memory }⟩ := by
    intro m s s' a ha hc hm
    obtain ⟨e, live, he, hl⟩ := hm
    have hattempt := Stage.attempt_moment ha
    rw [hu] at hattempt
    have hmade := (Manifest.attempt_settled he hl hc deadline s.moment.now).symm.trans hattempt
    obtain ⟨rfl, hmoment⟩ := Prod.mk.inj hmade
    exact ⟨e, he, rfl, hmoment.symm⟩
  induction hs with
  | nil => exact ⟨rfl, rfl, rfl, (List.append_nil _).symm⟩
  | late hl => exact absurd hd (Nat.not_lt.mpr hl)
  | @success m rest s a s' done later _ ha hr _ ih =>
    obtain ⟨hm, hrest⟩ := List.forall_mem_cons.mp hsettled
    obtain ⟨e, he, hr', hmoment⟩ := hone ha hc hm
    cases hr.symm.trans hr'
    rw [hmoment] at ih
    have hi := ih (Manifest.looked_calm hc) (fun m hm => (hrest m hm).of_objects rfl) hd
    refine ⟨hi.remaining, ?_, hi.looks.objects, ?_⟩
    · rw [hi.report]
      rfl
    · have hf := Resolver.found?_eq_some.mpr he
      have hl : (m.looked e s.moment.world.memory).actions =
          s.moment.world.memory.actions ++ [m.look e] := Memory.actions_record _ _
      rw [hi.looks.actions, hl, List.append_assoc, List.filterMap_cons, hf]
      rfl
  | cutOff _ ha hr | failure _ ha hr =>
    obtain ⟨hm, _⟩ := List.forall_mem_cons.mp hsettled
    obtain ⟨e, _, hr', _⟩ := hone ha hc hm
    exact nomatch hr.symm.trans hr'

namespace Progress

variable {σ : Type} {services : Services σ} {p q : Progress σ}

theorem Refreshes.idle_of (hn : p.needsReload = false) {refresh? : Option Refresh}
    (h : Refreshes services options deadline p refresh? q) : refresh? = none ∧ q = p := by
  cases h with
  | idle => exact ⟨rfl, rfl⟩
  | loaded ht | failed ht | cutOff ht => exact nomatch hn.symm.trans ht

end Progress

structure Idle (manifests : List Manifest) (resolver : Resolver) (before : Memory)
    (made : RunRecord World) : Prop where
  result : made.result = .ok ⟨1, 0, 0, 0, manifests.length⟩
  looks : before.Looks resolver manifests made.stage.moment.world.memory

theorem Progress.Steps.settled {manifests : List Manifest} {stage : Stage World}
    {q : Progress World} {r : Round} {verdict : Verdict}
    (h : Steps World.stagedServices options deadline (.start manifests resolver stage) r verdict q)
    (hu : options.update = false) (hc : stage.moment.world.memory.Calm)
    (hl : resolver.loaded = true)
    (hsettled : ∀ m ∈ manifests, m.Settled resolver stage.moment.world.memory)
    (hd : stage.moment.now < deadline) :
    verdict = .finished ∧ q.summary = ⟨1, 0, 0, 0, manifests.length⟩ ∧
      stage.moment.world.memory.Looks resolver manifests q.stage.moment.world.memory := by
  have hn : (Progress.start manifests resolver stage).counted.needsReload = false := by
    simp [Progress.counted, Progress.start, hl]
  cases h with
  | cutOff hf | failed hf => exact absurd (hf.idle_of hn).1 (Option.some_ne_none _)
  | @swept _ q made hf _ hsw =>
    obtain ⟨rfl, rfl⟩ := hf.idle_of hn
    have hi := hsw.sweptIdly hu hc hsettled hd
    refine ⟨?_, ?_, hi.looks⟩
    · rw [Progress.verdictOf, hi.remaining]
      rfl
    · simp only [Progress.after, RunSummary.afterSweep, hi.report]
      simp [Progress.counted, Progress.start, RunSummary.zero, SweepReport.blank]

theorem Ran.idle_of_settled {manifests : List Manifest} (hne : manifests ≠ [])
    {stage : Stage World} {made : RunRecord World}
    (h : Ran World.stagedServices options deadline manifests resolver stage made)
    (hu : options.update = false) (hc : stage.moment.world.memory.Calm)
    (hl : resolver.loaded = true)
    (hsettled : ∀ m ∈ manifests, m.Settled resolver stage.moment.world.memory)
    (hd : stage.moment.now < deadline) :
    Idle manifests resolver stage.moment.world.memory made := by
  cases h with
  | idle hnil => exact absurd hnil hne
  | rounds _ hrounds hr =>
    cases hr with
    | spent => exact absurd rfl hrounds
    | finished hs =>
      obtain ⟨_, hsummary, hlooks⟩ := hs.settled hu hc hl hsettled hd
      exact ⟨congrArg Except.ok hsummary, hlooks⟩
    | outOfTime hs | late hs | again hs => exact nomatch (hs.settled hu hc hl hsettled hd).1

theorem Ran.idle_of_success {manifests : List Manifest} (hne : manifests ≠ [])
    (hn : ∀ m ∈ manifests, m.Named) (hv : ∀ m ∈ manifests, m.kind.version ≠ "")
    {stage : Stage World} {made : RunRecord World}
    (h : Ran World.stagedServices options deadline manifests resolver stage made)
    (hg : stage.moment.world.Growing) (hb : resolver.Behind stage.moment.world.feed.groups)
    {summary : RunSummary} (hok : made.result = .ok summary)
    {options' : Options} (hu : options'.update = false) {stage' : Stage World}
    (ho : stage'.moment.world.memory.objects = made.stage.moment.world.memory.objects)
    (hc : stage'.moment.world.memory.Calm) {deadline' : Nat} (hd : stage'.moment.now < deadline')
    {made' : RunRecord World}
    (h' : Ran World.stagedServices options' deadline' manifests made.resolver stage' made') :
    Idle manifests made.resolver stage'.moment.world.memory made' := by
  have hsettled := h.settled hn hv hg hb hok
  obtain ⟨hbehind, _⟩ := h.keeping hg hb
  obtain ⟨m, hm⟩ := List.exists_mem_of_ne_nil _ hne
  obtain ⟨e, _, he, _⟩ := hsettled m hm
  exact h'.idle_of_settled hne hu hc (hbehind.loaded_of_resolve he)
    (fun m hm => (hsettled m hm).of_objects ho) hd

/-- If a run succeeds while the feed only adds groups, the next one with the mapping that it leaves,
without updates and with a store at its best, looks for the objects of all manifests once, finds
them and changes nothing. So it is for runs that are given any more rounds. -/
theorem run_again {manifests : List Manifest} (hne : manifests ≠ [])
    (hn : ∀ m ∈ manifests, m.Named) (hv : ∀ m ∈ manifests, m.kind.version ≠ "")
    (options : Options) (deadline : Nat) (stage : Stage World)
    (hg : stage.moment.world.Growing) (hb : resolver.Behind stage.moment.world.feed.groups)
    (options' : Options) (hu : options'.update = false) {stage' : Stage World}
    (hc : stage'.moment.world.memory.Calm) {deadline' : Nat} (hd : stage'.moment.now < deadline') :
    let made := run World.stagedServices options deadline manifests resolver stage
    let beyond := runBeyond World.stagedServices options deadline manifests resolver stage
    (∀ summary, made.result = .ok summary →
      stage'.moment.world.memory.objects = made.stage.moment.world.memory.objects →
      Idle manifests made.resolver stage'.moment.world.memory
        (run World.stagedServices options' deadline' manifests made.resolver stage')) ∧
    ∀ more more' summary, (beyond more).result = .ok summary →
      stage'.moment.world.memory.objects = (beyond more).stage.moment.world.memory.objects →
      Idle manifests (beyond more).resolver stage'.moment.world.memory
        (runBeyond World.stagedServices options' deadline' manifests (beyond more).resolver stage'
          more') := by
  intro made beyond
  constructor
  · intro summary hok ho
    exact (run_ran ..).idle_of_success hne hn hv hg hb hok hu ho hc hd (run_ran ..)
  · intro more more' summary hok ho
    exact (runBeyond_ran _ _ _ hne ..).idle_of_success hne hn hv hg hb hok hu ho hc hd
      (runBeyond_ran _ _ _ hne ..)

def growingWorld : World :=
  ⟨.empty,
    ⟨[], [(2, .single "apps" "v1" []), (3, .single "" "v1" [⟨"configmaps", "ConfigMap", true⟩])],
      some "down", 0⟩,
    .empty, [(4, .clearDiscoveryFailure)]⟩

def growingRun : RunRecord World :=
  run World.stagedServices ⟨true, false, [], 5⟩ 100 [stateManifest (.text "Managed")] .unloaded
    ⟨⟨0, growingWorld⟩, ⟨true, []⟩⟩

theorem run_again_growing :
    let manifests := [stateManifest (.text "Managed")]
    manifests ≠ [] ∧ (∀ m ∈ manifests, m.Named) ∧ (∀ m ∈ manifests, m.kind.version ≠ "") ∧
      growingWorld.Growing ∧ Resolver.unloaded.Behind growingWorld.feed.groups ∧
      growingRun.result = .ok ⟨3, 2, 1, 0, 0⟩ ∧ growingRun.stage.moment.world.memory.Calm ∧
      growingRun.stage.moment.now < 200 ∧
      (run World.stagedServices ⟨false, false, [], 5⟩ 200 manifests growingRun.resolver
        growingRun.stage).result = .ok ⟨1, 0, 0, 0, 1⟩ := by
  intro manifests
  have hne : manifests ≠ [] := List.cons_ne_nil _ _
  have hn : ∀ m ∈ manifests, m.Named :=
    List.forall_mem_singleton.mpr (Manifest.named_of_ofTree (ofTree_stateMap _))
  have hv : ∀ m ∈ manifests, m.kind.version ≠ "" := List.forall_mem_singleton.mpr (by decide)
  have hg : growingWorld.Growing := List.forall_mem_singleton.mpr rfl
  have hb : Resolver.unloaded.Behind growingWorld.feed.groups := .inl rfl
  have hok : growingRun.result = .ok ⟨3, 2, 1, 0, 0⟩ := by
    have hsummary : growingRun.result.toOption = some ⟨3, 2, 1, 0, 0⟩ := by decide +kernel
    generalize growingRun.result = result at hsummary ⊢
    cases result with
    | ok => exact congrArg Except.ok (Option.some.inj hsummary)
    | error => exact absurd hsummary.symm (Option.some_ne_none _)
  have hc : growingRun.stage.moment.world.memory.Calm := ⟨by decide +kernel, by decide +kernel⟩
  have hd : growingRun.stage.moment.now < 200 := by decide +kernel
  obtain ⟨hagain, _⟩ := run_again hne hn hv ⟨true, false, [], 5⟩ 100
    ⟨⟨0, growingWorld⟩, ⟨true, []⟩⟩ hg hb ⟨false, false, [], 5⟩ rfl hc hd
  exact ⟨hne, hn, hv, hg, hb, hok, hc, hd, (hagain _ hok rfl).result⟩

end ManifestSync
