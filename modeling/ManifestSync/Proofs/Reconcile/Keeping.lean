import ManifestSync.Proofs.Catalog.Growth
import ManifestSync.Proofs.Reconcile.Presence
import ManifestSync.Proofs.Reconcile.Tally

namespace ManifestSync

open Scenario

namespace Scenario

def Change.setsGroups : Change → Bool
  | .setGroups _ => true
  | _ => false

namespace World

def Growing (w : World) : Prop := ∀ c ∈ w.timeline, c.2.setsGroups = false

/-- Of two worlds, the later one serves the groups of the earlier one, and maybe others after them,
if that was growing. -/
def Grows (before after : World) : Prop :=
  before.Growing → after.Growing ∧ before.feed.groups <+: after.feed.groups

theorem Grows.trans {w w' w'' : World} (h : w.Grows w') (h' : w'.Grows w'') : w.Grows w'' := by
  intro hg
  obtain ⟨hg', hp⟩ := h hg
  obtain ⟨hg'', hp'⟩ := h' hg'
  exact ⟨hg'', hp.trans hp'⟩

theorem groups_change {c : Change} (h : c.setsGroups = false) (w : World) :
    w.feed.groups <+: (w.change c).feed.groups := by
  cases c with
  | setGroups => cases h
  | addGroup g => exact List.prefix_append _ _
  | _ => exact List.prefix_rfl

theorem grows_drift (before after : Nat) (w : World) : w.Grows (drift before after w) := by
  intro hg
  refine drift_induction
    (P := fun w' => w'.Growing ∧ w.feed.groups <+: w'.feed.groups) before after
    (fun later hl => ⟨fun c hc => hg c (hl hc), List.prefix_rfl⟩) ?_
  rintro w' c hc ⟨hg', hp⟩
  rw [Growing, change_timeline]
  exact ⟨hg', hp.trans (groups_change (hg c hc) w')⟩

theorem growing_within : stagedServices.Within (fun _ => True) Grows where
  refl w hg := ⟨hg, List.prefix_rfl⟩
  trans := Grows.trans
  drift := grows_drift
  discover w hg := by
    refine ⟨hg, ?_⟩
    have hs := w.feed.prefix_advance
    rwa [← Feed.serve_snd] at hs
  send r w _ := send_within (R := Grows) Grows.trans (fun _ hg => ⟨hg, List.prefix_rfl⟩)
    (fun _ hg => ⟨hg, List.prefix_rfl⟩) w

end World

end Scenario

variable {options : Options} {deadline : Nat}

namespace Progress

variable {p q : Progress World} {r : Round} {rounds : List Round} {verdict : Verdict}
  {finished : Bool}

/-- The mapping is one of the groups that are served, or of the first of them, and no others are going
to take their place. -/
structure Keeping (p : Progress World) : Prop where
  growing : p.stage.moment.world.Growing
  behind : p.resolver.Behind p.stage.moment.world.feed.groups

theorem Refreshes.keeping {refresh? : Option Refresh}
    (h : Refreshes World.stagedServices options deadline p refresh? q) (hp : p.Keeping) :
    q.Keeping ∧ p.resolver.KeptBy q.resolver := by
  have hg := (World.growing_within.frame deadline).refreshes h
  obtain ⟨hg', hprefix⟩ := hg hp.growing
  cases h with
  | idle => exact ⟨hp, .refl _⟩
  | @loaded groups moment _ ha =>
    have hd : (some p.stage.moment.world.feed.serve.1, Moment.mk p.stage.moment.now
        { p.stage.moment.world with feed := p.stage.moment.world.feed.serve.2 }) =
          (some (.ok groups), moment) := ha
    obtain ⟨hserve, rfl⟩ := Prod.mk.inj hd
    have hgroups := Feed.groups_of_serve (Option.some.inj hserve)
    rw [Feed.serve_snd, ← hgroups] at hprefix
    refine ⟨⟨hg', ?_⟩, (hp.behind.of_prefix hprefix).keptBy⟩
    rw [Feed.serve_snd, ← hgroups]
    exact .ofGroups groups
  | failed | cutOff => exact ⟨⟨hg', hp.behind.of_prefix hprefix⟩, .refl _⟩

theorem Keeping.of_grows {p' : Progress World} (hp : p.Keeping) (hr : p'.resolver = p.resolver)
    (hg : p.stage.moment.world.Grows p'.stage.moment.world) : p'.Keeping := by
  obtain ⟨hg', hprefix⟩ := hg hp.growing
  exact ⟨hg', hr ▸ hp.behind.of_prefix hprefix⟩

theorem Steps.keeping (h : Steps World.stagedServices options deadline p r verdict q)
    (hp : p.Keeping) : q.Keeping ∧ p.resolver.KeptBy q.resolver := by
  have hc : p.counted.Keeping := ⟨hp.growing, hp.behind⟩
  cases h with
  | cutOff hr | failed hr => exact hr.keeping hc
  | @swept _ q made hr _ hs =>
    obtain ⟨hq, hk⟩ := hr.keeping hc
    have hg := (World.growing_within.frame deadline).sweeps (fun _ _ => Dialogue.all_true _) hs
    exact ⟨hq.of_grows rfl hg, hk⟩

theorem Keeping.pause (hp : p.Keeping) (options : Options) (deadline : Nat) :
    (p.pause World.stagedServices options deadline).Keeping :=
  hp.of_grows rfl (World.growing_within.pause p.stage.moment _)

theorem Runs.keeping (h : Runs World.stagedServices options deadline p rounds finished q)
    (hp : p.Keeping) :
    q.Keeping ∧ p.resolver.KeptBy q.resolver ∧ ∀ r ∈ rounds, r.resolver.KeptBy q.resolver := by
  -- The mapping of each round is the one that the rest of the run begins with, which the last one
  -- keeps by induction.
  induction h with
  | spent => exact ⟨hp, .refl _, fun _ hr => absurd hr List.not_mem_nil⟩
  | finished hs | outOfTime hs =>
    obtain ⟨hq, hk⟩ := hs.keeping hp
    refine ⟨hq, hk, List.forall_mem_singleton.mpr ?_⟩
    rw [hs.resolver_eq]
    exact .refl _
  | late hs =>
    obtain ⟨hq, hk⟩ := hs.keeping hp
    refine ⟨hq.pause options deadline, hk, List.forall_mem_singleton.mpr ?_⟩
    rw [hs.resolver_eq]
    exact .refl _
  | again hs _ _ ih =>
    obtain ⟨hq, hk⟩ := hs.keeping hp
    obtain ⟨hlast, hkept, hrounds⟩ := ih (hq.pause options deadline)
    refine ⟨hlast, hk.trans hkept, List.forall_mem_cons.mpr ⟨?_, hrounds⟩⟩
    rw [hs.resolver_eq]
    exact hkept

end Progress

/-- The manifest's kind is resolved and its object is stored there. -/
def Manifest.Settled (m : Manifest) (resolver : Resolver) (memory : Memory) : Prop :=
  ∃ e live, resolver.resolve m.kind = .ok e ∧ memory.object? (m.key e) = some live

theorem Ran.keeping {manifests : List Manifest} {resolver : Resolver} {stage : Stage World}
    {made : RunRecord World}
    (h : Ran World.stagedServices options deadline manifests resolver stage made)
    (hg : stage.moment.world.Growing) (hb : resolver.Behind stage.moment.world.feed.groups) :
    made.resolver.Behind made.stage.moment.world.feed.groups ∧
      ∀ r ∈ made.rounds, r.resolver.KeptBy made.resolver := by
  cases h with
  | idle => exact ⟨hb, fun _ hr => absurd hr List.not_mem_nil⟩
  | rounds _ _ hr =>
    obtain ⟨hlast, _, hkept⟩ := hr.keeping ⟨hg, hb⟩
    exact ⟨hlast.behind, hkept⟩

theorem Ran.settled {manifests : List Manifest} {resolver : Resolver} {stage : Stage World}
    {made : RunRecord World}
    (h : Ran World.stagedServices options deadline manifests resolver stage made)
    (hn : ∀ m ∈ manifests, m.Named) (hv : ∀ m ∈ manifests, m.kind.version ≠ "")
    (hg : stage.moment.world.Growing) (hb : resolver.Behind stage.moment.world.feed.groups)
    {summary : RunSummary} (hok : made.result = .ok summary) :
    ∀ m ∈ manifests, m.Settled made.resolver made.stage.moment.world.memory := by
  intro m hm
  obtain ⟨_, hpresent⟩ := (presence_chronicle options deadline).run hn h
  obtain ⟨_, hkept⟩ := h.keeping hg hb
  obtain ⟨_, hperm⟩ := h.tally hok
  obtain ⟨a, hmem, rfl⟩ := List.mem_map.mp (hperm.symm.subset hm)
  obtain ⟨ha, hs⟩ := List.mem_filter.mp hmem
  obtain ⟨done, hr⟩ := exists_of_succeeded hs
  obtain ⟨r, hround, har⟩ := List.mem_flatMap.mp ha
  have hkey := hpresent a ha _ (Attempt.key?_eq_some.mpr ⟨done, hr, rfl⟩)
  obtain ⟨live, hlive⟩ := Option.isSome_iff_exists.mp (Table.isSome_find?.mpr hkey)
  have hresolve := hkept r hround _ _ (hv _ hm) (h.resolved r hround a har done hr)
  exact ⟨done.endpoint, live, hresolve, hlive⟩

end ManifestSync
