import ManifestSync.Proofs.Manifest.Update
import ManifestSync.Proofs.Reconcile.Calm
import ManifestSync.Proofs.Reconcile.Runs

namespace ManifestSync

open Scenario

namespace Feed

def waiting (f : Feed) (manifests : List Manifest) (n : Nat) : List Manifest :=
  manifests.filter fun m => (f.foundBy m.kind n).isNone

def looks (f : Feed) (manifests : List Manifest) (n : Nat) : List Action :=
  manifests.filterMap fun m => (f.foundBy m.kind n).map m.look

theorem waiting_succ (f : Feed) (manifests : List Manifest) (n : Nat) :
    f.waiting manifests (n + 1) = (f.waiting manifests n).filter fun m =>
      ((f.mappingAt (n + 1)).found? m.kind).isNone := by
  unfold waiting
  rw [List.filter_filter]
  refine List.filter_congr fun m _ => ?_
  rw [foundBy, Option.isNone_or, Bool.and_comm]

theorem perm_looks_succ (f : Feed) (manifests : List Manifest) (n : Nat) :
    (f.looks manifests (n + 1)).Perm (f.looks manifests n ++
      (f.waiting manifests n).filterMap fun m =>
        ((f.mappingAt (n + 1)).found? m.kind).map m.look) := by
  induction manifests with
  | nil => exact .nil
  | cons m manifests ih =>
    unfold looks waiting at *
    rw [List.filterMap_cons, List.filterMap_cons, foundBy]
    cases hf : f.foundBy m.kind n with
    | some e =>
      rw [List.filter_cons_of_neg (by simp [hf])]
      exact ih.cons _
    | none =>
      rw [List.filter_cons_of_pos (by simp [hf]), List.filterMap_cons, Option.none_or]
      cases (f.mappingAt (n + 1)).found? m.kind with
      | none => exact ih
      | some e => exact (ih.cons _).trans List.perm_middle.symm

theorem mem_waiting {f : Feed} {manifests : List Manifest} {n : Nat} {m : Manifest} :
    m ∈ f.waiting manifests n ↔ m ∈ manifests ∧ n < f.firstCall m.kind := by
  rw [waiting, List.mem_filter, foundBy_isNone]

theorem waiting_eq_nil {f : Feed} {manifests : List Manifest} {n : Nat} :
    f.waiting manifests n = [] ↔ ∀ m ∈ manifests, f.firstCall m.kind ≤ n := by
  simp only [List.eq_nil_iff_forall_not_mem, mem_waiting, not_and, not_lt]

theorem waiting_eq_filter (f : Feed) (manifests : List Manifest) (n : Nat) :
    f.waiting manifests n = manifests.filter fun m => n < f.firstCall m.kind := by
  refine List.filter_congr fun m _ => ?_
  rw [Bool.eq_iff_iff, foundBy_isNone, decide_eq_true_iff]

end Feed

variable {options : Options} {deadline : Nat} {feed : Feed} {manifests : List Manifest}
  {memory : Memory}

namespace Progress

structure Awaits (feed : Feed) (manifests : List Manifest) (memory : Memory) (n now : Nat)
    (p : Progress World) : Prop where
  pending : p.pending = feed.waiting manifests n
  needsReload : p.pending ≠ [] → p.needsReload = true
  rounds : p.summary.rounds = n
  reloads : p.summary.reloads = n
  moment : ∃ memory', p.stage.moment = ⟨now, .still memory' (feed.called n)⟩ ∧ memory'.Calm ∧
    memory'.gets.Perm (memory.gets ++ feed.looks manifests n)

theorem Awaits.now_eq {p : Progress World} {n now : Nat}
    (h : p.Awaits feed manifests memory n now) : p.stage.moment.now = now := by
  obtain ⟨_, hm, _⟩ := h.moment
  rw [hm]

theorem Awaits.pause {p : Progress World} {n now : Nat} (options : Options) (deadline : Nat)
    (h : p.Awaits feed manifests memory n now) :
    (p.pause World.stagedServices options deadline).Awaits feed manifests memory n
      (max now (min (now + options.retryInterval) deadline)) := by
  obtain ⟨memory', hm, hc, hg⟩ := h.moment
  refine ⟨h.pending, h.needsReload, h.rounds, h.reloads, memory', ?_, hc, hg⟩
  have hu := World.until_still now (min (now + options.retryInterval) deadline) memory'
    (feed.called n)
  rw [← hu, ← hm]
  simp only [Progress.pause, hm]
  rfl

theorem run_discover_called (hf : feed.failure? = none) {n now : Nat} {moment : Moment World}
    (hm : moment = ⟨now, .still memory (feed.called n)⟩) (deadline : Nat) :
    (World.stagedServices.discover moment.world).run World.stagedServices.drift deadline
      moment.now =
        (some (.ok (feed.called (n + 1)).groups), ⟨now, .still memory (feed.called (n + 1))⟩) := by
  rw [hm, World.discover_still, Feed.serve_called hf]
  rfl

theorem verdictOf_cases {made : Sweep World} (h : made.report.interrupted = false) :
    verdictOf made = .finished ∧ made.remaining = [] ∨
      verdictOf made = .again ∧ made.remaining ≠ [] := by
  unfold verdictOf
  rw [h]
  cases made.remaining with
  | nil => exact .inl ⟨rfl, rfl⟩
  | cons m rest => exact .inr ⟨rfl, nofun⟩

theorem Steps.awaits {p q : Progress World} {r : Round} {verdict : Verdict} {n now : Nat}
    (hs : Steps World.stagedServices options deadline p r verdict q)
    (hp : p.Awaits feed manifests memory n now) (hf : feed.failure? = none)
    (hn : ∀ m ∈ manifests, m.Named) (hd : now < deadline) (hne : p.pending ≠ []) :
    q.Awaits feed manifests memory (n + 1) now ∧
      (verdict = .finished ∧ q.pending = [] ∨ verdict = .again ∧ q.pending ≠ []) := by
  obtain ⟨memory', hm, hc, hg⟩ := hp.moment
  have hstage : p.counted.stage.moment = ⟨now, .still memory' (feed.called n)⟩ := hm
  have hdiscover := run_discover_called hf hstage deadline
  cases hs with
  | cutOff hr =>
    cases hr with
    | cutOff _ ha => exact nomatch hdiscover.symm.trans ha
  | failed hr =>
    cases hr with
    | failed _ ha => exact nomatch hdiscover.symm.trans ha
  | @swept refresh? q made hr hsome hsw =>
    cases hr with
    | idle hidle => exact nomatch (hp.needsReload hne).symm.trans hidle
    | failed => simp at hsome
    | cutOff => simp at hsome
    | @loaded groups moment _ ha =>
      obtain ⟨hgroups, rfl⟩ := Prod.mk.inj (hdiscover.symm.trans ha)
      cases hgroups
      have hnamed : ∀ m ∈ p.pending, m.Named := by
        rw [hp.pending]
        exact fun m hm => hn m (List.mem_of_mem_filter hm)
      have hsc := hsw.sweptCalmly hnamed hc rfl hd
      obtain ⟨memory'', hm'', hc'', hg''⟩ := hsc.moment
      refine ⟨⟨?_, hsc.needsReload, ?_, ?_, memory'', hm'', hc'', ?_⟩,
        verdictOf_cases hsc.interrupted⟩
      · rw [Feed.waiting_succ, ← hp.pending]
        exact hsc.remaining
      · exact congrArg (· + 1) hp.rounds
      · exact congrArg (· + 1) hp.reloads
      · have hlooks := feed.perm_looks_succ manifests n
        rw [← hp.pending] at hlooks
        rw [hg'']
        refine (hg.append_right _).trans ?_
        rw [List.append_assoc]
        exact hlooks.symm.append_left memory.gets

theorem Runs.awaits {p q : Progress World} {rounds : List Round} {finished : Bool}
    {n now : Nat} (start : Nat)
    (hr : Runs World.stagedServices options deadline p rounds finished q)
    (hi : 0 < options.retryInterval) (hf : feed.failure? = none)
    (hn : ∀ m ∈ manifests, m.Named) (hp : p.Awaits feed manifests memory n now)
    (hnow : now = start + n * options.retryInterval) (hd : now < deadline)
    (hne : p.pending ≠ []) :
    ∃ last later, q.Awaits feed manifests memory (last + 1) later ∧
      start + last * options.retryInterval < deadline ∧ feed.waiting manifests last ≠ [] ∧
      (finished = true ∧ q.pending = [] ∨
        finished = false ∧ q.pending ≠ [] ∧
          deadline ≤ start + (last + 1) * options.retryInterval) := by
  have hwaiting : feed.waiting manifests n ≠ [] := hp.pending ▸ hne
  have hnext : start + (n + 1) * options.retryInterval = now + options.retryInterval := by
    rw [hnow, Nat.succ_mul, Nat.add_assoc]
  induction hr generalizing n now with
  | spent hz => omega
  | finished hs =>
    obtain ⟨hq, ⟨_, hnil⟩ | ⟨hv, _⟩⟩ := hs.awaits hp hf hn hd hne
    · exact ⟨n, now, hq, hnow ▸ hd, hwaiting, .inl ⟨rfl, hnil⟩⟩
    · cases hv
  | outOfTime hs =>
    obtain ⟨_, ⟨hv, _⟩ | ⟨hv, _⟩⟩ := hs.awaits hp hf hn hd hne
    · cases hv
    · cases hv
  | late hs hl =>
    obtain ⟨hq, ⟨hv, _⟩ | ⟨_, hleft⟩⟩ := hs.awaits hp hf hn hd hne
    · cases hv
    · have hpause := hq.pause options deadline
      rw [hpause.now_eq] at hl
      exact ⟨n, _, hpause, hnow ▸ hd, hwaiting, .inr ⟨rfl, hleft, by omega⟩⟩
  | again hs hl _ ih =>
    obtain ⟨hq, ⟨hv, _⟩ | ⟨_, hleft⟩⟩ := hs.awaits hp hf hn hd hne
    · cases hv
    · have hpause := hq.pause options deadline
      rw [hpause.now_eq] at hl
      refine ih hpause (by omega) hl hleft (hq.pending ▸ hleft) ?_
      rw [Nat.succ_mul]
      omega

end Progress

/-- Between two moments the object of every manifest was looked for once, and where the call that
first resolves the kind says. -/
def LooksOnce (feed : Feed) (manifests : List Manifest) (before after : Memory) : Prop :=
  ∃ endpoint : Kind → Endpoint,
    (∀ m ∈ manifests, ∃ call : ℕ, feed.firstCall m.kind = call ∧
      (feed.mappingAt call).resolve m.kind = .ok (endpoint m.kind)) ∧
    after.gets.Perm (before.gets ++ manifests.map fun m => m.look (endpoint m.kind))

theorem looksOnce_of_waiting {after : Memory} {n : ℕ} (h : feed.waiting manifests n = [])
    (hg : after.gets.Perm (memory.gets ++ feed.looks manifests n)) :
    LooksOnce feed manifests memory after := by
  have hfound : ∀ m ∈ manifests, ∃ e, feed.foundBy m.kind n = some e := fun m hm =>
    Option.isSome_iff_exists.mp (Feed.foundBy_isSome.mpr (Feed.waiting_eq_nil.mp h m hm))
  obtain ⟨anywhere⟩ : Nonempty Endpoint := ⟨⟨"", "", "", "", .cluster⟩⟩
  refine ⟨fun k => (feed.foundBy k n).getD anywhere, fun m hm => ?_, ?_⟩
  · obtain ⟨e, he⟩ := hfound m hm
    simp only [he, Option.getD_some]
    exact Feed.resolve_of_foundBy he
  · have hlooks : feed.looks manifests n =
        manifests.map fun m => m.look ((feed.foundBy m.kind n).getD anywhere) := by
      rw [← List.filterMap_eq_map]
      refine List.filterMap_congr fun m hm => ?_
      obtain ⟨e, he⟩ := hfound m hm
      rw [Function.comp_apply, he]
      rfl
    rwa [hlooks] at hg

theorem awaits_start (hc : memory.Calm) (feed : Feed) (manifests : List Manifest) (start : ℕ)
    (sink : Sink) :
    (Progress.start manifests .unloaded ⟨⟨start, .still memory feed⟩, sink⟩).Awaits feed
      manifests memory 0 start := by
  have hlooks : feed.looks manifests 0 = [] := List.filterMap_eq_nil_iff.mpr fun _ _ => rfl
  refine ⟨(List.filter_eq_self.mpr fun _ _ => rfl).symm, fun _ => rfl, rfl, rfl, memory, rfl, hc, ?_⟩
  rw [hlooks, List.append_nil]

theorem iSup_firstCall {n : ℕ} (h : feed.waiting manifests n ≠ [])
    (hnext : feed.waiting manifests (n + 1) = []) :
    ⨆ m ∈ manifests, feed.firstCall m.kind = (n + 1 : ℕ) := by
  obtain ⟨m, hm⟩ := List.exists_mem_of_ne_nil _ h
  obtain ⟨hmem, hlt⟩ := Feed.mem_waiting.mp hm
  refine le_antisymm (iSup₂_le (Feed.waiting_eq_nil.mp hnext)) ?_
  exact (Order.add_one_le_of_lt hlt).trans
    (le_iSup₂ (f := fun (m : Manifest) (_ : m ∈ manifests) => feed.firstCall m.kind) m hmem)

/-- Over a calm store and a fresh feed that never fails, a run takes as many rounds as the feed takes
calls to resolve every kind, if so many rounds begin before the deadline. Otherwise it makes all the
rounds that do and fails with the manifests whose kinds are not resolved by then. -/
theorem run_of_schedule (hne : manifests ≠ []) (hn : ∀ m ∈ manifests, m.Named)
    (hc : memory.Calm) (options : Options) (hi : 0 < options.retryInterval) {start : ℕ}
    (hd : start < deadline)
    (groups : List ServedGroup) (schedule : List (ℕ × ServedGroup)) (sink : Sink) :
    let feed : Feed := ⟨groups, schedule, none, 0⟩
    let made := run World.stagedServices options deadline manifests .unloaded
      ⟨⟨start, .still memory feed⟩, sink⟩
    let limit := (deadline - start) ⌈/⌉ options.retryInterval
    ((∀ m ∈ manifests, feed.firstCall m.kind ≤ limit) →
      ∃ summary, made.result = .ok summary ∧
        summary.rounds = ⨆ m ∈ manifests, feed.firstCall m.kind ∧
        summary.reloads = summary.rounds ∧
        made.stage.moment.world.feed.calls = summary.rounds ∧
        LooksOnce feed manifests memory made.stage.moment.world.memory) ∧
    (¬ (∀ m ∈ manifests, feed.firstCall m.kind ≤ limit) →
      ∃ failure, made.result = .error failure ∧
        made.stage.moment.world.feed.calls = limit ∧
        failure.remaining = manifests.filter fun m => limit < feed.firstCall m.kind) := by
  intro feed made limit
  obtain ⟨rounds, finished, q, hr, he⟩ := (run_ran World.stagedServices options deadline
    manifests .unloaded ⟨⟨start, .still memory feed⟩, sink⟩).exists_runs hne
  have hmade : made = .ofRounds rounds finished q := he
  have hp := awaits_start hc feed manifests start sink
  obtain ⟨last, now, hq, hlast, hwaiting, hend⟩ :=
    hr.awaits start hi rfl hn hp (by omega) hd hne
  obtain ⟨memory', hm, _, hg⟩ := hq.moment
  have hmoment : made.stage.moment = ⟨now, .still memory' (feed.called (last + 1))⟩ := by
    rw [hmade]
    exact hm
  have hcalls : made.stage.moment.world.feed.calls = last + 1 := by
    rw [hmoment]
    exact (Feed.calls_called feed (last + 1)).trans (Nat.zero_add _)
  have hlt : last < limit := (lt_ceilDiv_iff hi).mpr hlast
  obtain ⟨rfl, hnil⟩ | ⟨rfl, hleft, hlate⟩ := hend
  · have hnext : feed.waiting manifests (last + 1) = [] := hq.pending ▸ hnil
    refine ⟨fun _ => ⟨q.summary, ?_, ?_, ?_, ?_, ?_⟩, fun h => absurd (fun m hm => ?_) h⟩
    · rw [hmade]
      rfl
    · rw [hq.rounds, iSup_firstCall hwaiting hnext]
    · rw [hq.rounds, hq.reloads]
    · rw [hq.rounds, hcalls]
    · rw [hmoment]
      exact looksOnce_of_waiting hnext hg
    · exact (Feed.waiting_eq_nil.mp hnext m hm).trans (ENat.natCast_le_natCast.mpr hlt)
  · have hlimit : limit = last + 1 := by
      refine le_antisymm (not_lt.mp fun h => ?_) hlt
      have hbefore := (lt_ceilDiv_iff hi).mp h
      omega
    have hpending : q.pending = feed.waiting manifests limit := hlimit ▸ hq.pending
    refine ⟨fun h => absurd (Feed.waiting_eq_nil.mpr h) (hpending ▸ hleft), fun _ => ?_⟩
    refine ⟨⟨q.pending, q.needsReload, q.pending.length, q.last?⟩, ?_, ?_, ?_⟩
    · rw [hmade]
      rfl
    · rw [hcalls, hlimit]
    · rw [← Feed.waiting_eq_filter]
      exact hpending

def lateFeed : Feed := ⟨[], [(2, .single "" "v1" [⟨"configmaps", "ConfigMap", true⟩])], none, 0⟩

theorem firstCall_lateFeed : lateFeed.firstCall ⟨"", "v1", "ConfigMap"⟩ = (2 : ℕ) := by
  have hle : lateFeed.firstCall ⟨"", "v1", "ConfigMap"⟩ ≤ (2 : ℕ) := Feed.foundBy_isSome.mp rfl
  have hlt : (1 : ℕ) < lateFeed.firstCall ⟨"", "v1", "ConfigMap"⟩ := Feed.foundBy_isNone.mp rfl
  exact hle.antisymm (Order.add_one_le_of_lt hlt)

theorem run_of_lateFeed :
    ∃ summary, (run World.stagedServices ⟨false, false, [], 5⟩ 100
        [stateManifest (.text "Managed")] .unloaded
        ⟨⟨0, .still .empty lateFeed⟩, ⟨true, []⟩⟩).result = .ok summary ∧
      summary.rounds = 2 ∧ summary.reloads = 2 := by
  have hn : ∀ m ∈ [stateManifest (.text "Managed")], m.Named := by
    intro m hm
    rw [List.mem_singleton.mp hm]
    exact Manifest.named_of_ofTree (ofTree_stateMap _)
  have hall : ∀ m ∈ [stateManifest (.text "Managed")],
      lateFeed.firstCall m.kind ≤ ((100 - 0) ⌈/⌉ 5 : ℕ) := by
    intro m hm
    rw [List.mem_singleton.mp hm, stateManifest, firstCall_lateFeed]
    exact ENat.natCast_le_natCast.mpr (by decide)
  have hc : Memory.empty.Calm := ⟨rfl, rfl⟩
  obtain ⟨summary, hr, hrounds, hreloads, _⟩ := (run_of_schedule (List.cons_ne_nil _ _) hn hc
    ⟨false, false, [], 5⟩ (by decide) (by decide) lateFeed.groups lateFeed.pending
    ⟨true, []⟩).1 hall
  have htwo : summary.rounds = 2 := by
    refine Nat.cast_injective (R := ℕ∞) (hrounds.trans ?_)
    simp only [List.mem_singleton, iSup_iSup_eq_left]
    exact firstCall_lateFeed
  exact ⟨summary, hr, htwo, hreloads.trans htwo⟩

end ManifestSync
