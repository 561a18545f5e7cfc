import ManifestSync.Reconcile.Run
import ManifestSync.Proofs.Reconcile.Sweep

namespace ManifestSync

variable {σ : Type} {services : Services σ} {options : Options} {deadline : Nat}

namespace Progress

def counted (p : Progress σ) : Progress σ :=
  { p with summary := { p.summary with rounds := p.summary.rounds + 1 } }

def after (p : Progress σ) (made : Sweep σ) : Progress σ :=
  { p with
    pending := made.remaining
    needsReload := made.report.needsReload
    summary := p.summary.afterSweep made.report
    last? := (made.report.lastError?.map .attempt).or p.last?
    stage := made.stage }

def verdictOf (made : Sweep σ) : Verdict :=
  if made.remaining.isEmpty then .finished
  else if made.report.interrupted then .outOfTime
  else .again

inductive Refreshes (services : Services σ) (options : Options) (deadline : Nat) (p : Progress σ) :
    Option Refresh → Progress σ → Prop where
  | idle : p.needsReload = false → Refreshes services options deadline p none p
  | loaded {groups moment} : p.needsReload = true →
      (services.discover p.stage.moment.world).run services.drift deadline p.stage.moment.now =
        (some (.ok groups), moment) →
      Refreshes services options deadline p (some (.loaded (Resolver.ofGroups groups).size))
        { p with
          resolver := .ofGroups groups
          needsReload := false
          summary := { p.summary with reloads := p.summary.reloads + 1 }
          stage := { p.stage with moment } }
  | failed {e moment} : p.needsReload = true →
      (services.discover p.stage.moment.world).run services.drift deadline p.stage.moment.now =
        (some (.error e), moment) →
      Refreshes services options deadline p (some (.failed e))
        { p with
          last? := some (.refresh e)
          stage := ⟨moment, p.stage.sink.write options.verbose (.refreshFailed e)⟩ }
  | cutOff {moment} : p.needsReload = true →
      (services.discover p.stage.moment.world).run services.drift deadline p.stage.moment.now =
        (none, moment) →
      Refreshes services options deadline p (some .cutOff)
        { p with stage := { p.stage with moment } }

theorem refresh_refreshes (services : Services σ) (options : Options) (deadline : Nat)
    (p : Progress σ) :
    Refreshes services options deadline p (p.refresh services options deadline).1
      (p.refresh services options deadline).2 := by
  cases hn : p.needsReload with
  | false =>
    simp only [refresh, hn, Bool.false_eq_true, ↓reduceIte]
    exact .idle hn
  | true =>
    rcases ha : (services.discover p.stage.moment.world).run services.drift deadline
      p.stage.moment.now with ⟨_ | _ | _, moment⟩
    all_goals simp only [refresh, hn, ha, ↓reduceIte, Resolver.refreshed, RunSummary.afterRefresh]
    · simpa [hn] using! Refreshes.cutOff hn ha
    · simpa [hn] using! Refreshes.failed hn ha
    · exact .loaded hn ha

/-- One round: the mapping is due and not rebuilt, or there is a sweep. -/
inductive Steps (services : Services σ) (options : Options) (deadline : Nat) (p : Progress σ) :
    Round → Verdict → Progress σ → Prop where
  | cutOff {q} : Refreshes services options deadline p.counted (some .cutOff) q →
      Steps services options deadline p
        ⟨p.stage.moment.now, some .cutOff, q.resolver, none⟩ .outOfTime q
  | failed {e q} : Refreshes services options deadline p.counted (some (.failed e)) q →
      Steps services options deadline p
        ⟨p.stage.moment.now, some (.failed e), q.resolver, none⟩ .again q
  | swept {refresh? q made} : Refreshes services options deadline p.counted refresh? q →
      (refresh? = none ∨ ∃ kinds, refresh? = some (.loaded kinds)) →
      Sweeps services options q.resolver deadline q.pending q.stage made →
      Steps services options deadline p
        ⟨p.stage.moment.now, refresh?, q.resolver, some (made.report, made.attempts)⟩
        (verdictOf made) (q.after made)

theorem round_steps (services : Services σ) (options : Options) (deadline : Nat)
    (p : Progress σ) :
    Steps services options deadline p (p.round services options deadline).1
      (p.round services options deadline).2.1 (p.round services options deadline).2.2 := by
  have hf := refresh_refreshes services options deadline p.counted
  unfold round
  rw [← counted]
  dsimp only
  generalize p.counted.refresh services options deadline = made at hf ⊢
  obtain ⟨refresh?, q⟩ := made
  have hs := sweep_sweeps services options q.resolver deadline q.pending q.stage
  rcases refresh? with _ | kinds | e | _
  · exact .swept hf (.inl rfl) hs
  · exact .swept hf (.inr ⟨kinds, rfl⟩) hs
  · exact .failed hf
  · exact .cutOff hf

/-- Rounds, each after a pause, until one has the last word. Only where there are no pauses the rounds
may also come to an end because there were so many. -/
inductive Runs (services : Services σ) (options : Options) (deadline : Nat) :
    Progress σ → List Round → Bool → Progress σ → Prop where
  | spent {p} : options.retryInterval = 0 → Runs services options deadline p [] false p
  | finished {p r q} : Steps services options deadline p r .finished q →
      Runs services options deadline p [r] true q
  | outOfTime {p r q} : Steps services options deadline p r .outOfTime q →
      Runs services options deadline p [r] false q
  | late {p r q} : Steps services options deadline p r .again q →
      deadline ≤ (q.pause services options deadline).stage.moment.now →
      Runs services options deadline p [r] false (q.pause services options deadline)
  | again {p r q rs finished last} : Steps services options deadline p r .again q →
      (q.pause services options deadline).stage.moment.now < deadline →
      Runs services options deadline (q.pause services options deadline) rs finished last →
      Runs services options deadline p (r :: rs) finished last

theorem Runs.forall_rounds {P : Round → Prop} {p q : Progress σ} {rounds : List Round}
    {finished : Bool}
    (hP : ∀ {p q r verdict}, Steps services options deadline p r verdict q → P r)
    (h : Runs services options deadline p rounds finished q) : ∀ r ∈ rounds, P r := by
  induction h with
  | spent => exact fun _ hr => absurd hr List.not_mem_nil
  | finished hs | outOfTime hs | late hs => exact List.forall_mem_singleton.mpr (hP hs)
  | again hs _ _ ih => exact List.forall_mem_cons.mpr ⟨hP hs, ih⟩

end Progress

def Progress.start (manifests : List Manifest) (resolver : Resolver) (stage : Stage σ) :
    Progress σ :=
  ⟨manifests, resolver, !resolver.loaded, .zero, none, stage⟩

def RunRecord.ofRounds (rounds : List Round) (finished : Bool) (last : Progress σ) : RunRecord σ :=
  ⟨rounds,
    if finished then .ok last.summary
    else .error ⟨last.pending, last.needsReload, last.pending.length, last.last?⟩,
    last.resolver, last.stage⟩

end ManifestSync
