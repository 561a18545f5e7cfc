import Mathlib.Data.List.Chain
import ManifestSync.Proofs.Reconcile.Punctuality
import ManifestSync.Proofs.Reconcile.Tally
import ManifestSync.Proofs.Reconcile.Trace

namespace ManifestSync

variable {σ : Type} {services : Services σ} {options : Options} {resolver : Resolver}
  {deadline : Nat}

def Refresh.isLoaded : Refresh → Bool
  | .loaded _ => true
  | _ => false

def Refresh.isFailed : Refresh → Bool
  | .failed _ => true
  | _ => false

namespace Round

def reloaded (r : Round) : Bool := r.refresh?.any Refresh.isLoaded

def refused (r : Round) : Bool := r.refresh?.any Refresh.isFailed

/-- The discovery service refused to answer, or some kind was not resolved. -/
def Outdated (r : Round) : Prop :=
  (∃ e, r.refresh? = some (.failed e)) ∨ ∃ a ∈ r.attempts, a.unresolved = true

end Round

namespace Progress

variable {p q : Progress σ} {r : Round} {rounds : List Round} {verdict : Verdict} {finished : Bool}

theorem Refreshes.isSome_eq {refresh? : Option Refresh}
    (h : Refreshes services options deadline p refresh? q) : refresh?.isSome = p.needsReload := by
  cases h with
  | idle hn => exact hn.symm
  | loaded hn | failed hn | cutOff hn => exact hn.symm

theorem Refreshes.refreshed_eq {refresh : Refresh}
    (h : Refreshes services options deadline p (some refresh) q) (resolver : Resolver) :
    refresh = (resolver.refreshed ((services.discover p.stage.moment.world).run services.drift
      deadline p.stage.moment.now).1).1 := by
  cases h with
  | loaded _ ha | failed _ ha | cutOff _ ha =>
    rw [ha]
    rfl

theorem Refreshes.needsReload_eq {refresh? : Option Refresh}
    (h : Refreshes services options deadline p refresh? q) :
    q.needsReload = refresh?.any (!·.isLoaded) := by
  cases h with
  | idle hn => exact hn
  | loaded => rfl
  | failed hn | cutOff hn => exact hn

theorem Steps.isSome_refresh (h : Steps services options deadline p r verdict q) :
    r.refresh?.isSome = p.needsReload := by
  cases h with
  | cutOff hr | failed hr | swept hr => exact hr.isSome_eq

theorem Steps.refreshed_eq (h : Steps services options deadline p r verdict q) {refresh : Refresh}
    (hr : r.refresh? = some refresh) (resolver : Resolver) :
    refresh = (resolver.refreshed ((services.discover p.stage.moment.world).run services.drift
      deadline r.started).1).1 := by
  cases h with
  | cutOff hf | failed hf =>
    cases hr
    exact hf.refreshed_eq resolver
  | swept hf =>
    cases hr
    exact hf.refreshed_eq resolver

theorem Steps.needsReload_iff (h : Steps services options deadline p r verdict q) :
    q.needsReload = true ↔
      r.refresh?.any (!·.isLoaded) = true ∨ ∃ a ∈ r.attempts, a.unresolved = true := by
  cases h with
  | cutOff hr | failed hr => exact iff_of_true hr.needsReload_eq (.inl rfl)
  | @swept refresh? q made hr hready hs =>
    have hloaded : refresh?.any (!·.isLoaded) = false := by
      obtain rfl | ⟨kinds, rfl⟩ := hready
      · rfl
      · rfl
    have hany : (q.after made).needsReload = made.attempts.any Attempt.unresolved :=
      hs.needsReload_eq
    rw [hany, hloaded, List.any_eq_true]
    simp [Round.attempts]

theorem Steps.attempts_of_unready (h : Steps services options deadline p r verdict q)
    {refresh : Refresh} (hr : r.refresh? = some refresh) (hl : refresh.isLoaded = false) :
    r.attempts = [] := by
  cases h with
  | cutOff | failed => rfl
  | swept _ hready =>
    obtain hn | ⟨kinds, hk⟩ := hready
    · exact nomatch hn.symm.trans hr
    · cases hk.symm.trans hr
      cases hl

theorem Steps.calls_of_unready (h : Steps services options deadline p r verdict q)
    {refresh : Refresh} (hr : r.refresh? = some refresh) (hl : refresh.isLoaded = false) :
    r.calls = [.discover] := by
  rw [Round.calls, h.attempts_of_unready hr hl, hr]
  rfl

theorem Steps.refresh_ne_cutOff (h : Steps services options deadline p r verdict q)
    (hv : verdict ≠ .outOfTime) : r.refresh? ≠ some .cutOff := by
  cases h with
  | cutOff => exact absurd rfl hv
  | failed => exact nofun
  | swept _ hready =>
    obtain rfl | ⟨kinds, rfl⟩ := hready
    · exact nofun
    · exact nofun

theorem Steps.swept_iff (h : Steps services options deadline p r verdict q)
    (hv : verdict ≠ .outOfTime) : r.sweep?.isSome = !r.refused := by
  cases h with
  | cutOff => exact absurd rfl hv
  | failed => rfl
  | swept _ hready =>
    obtain rfl | ⟨kinds, rfl⟩ := hready
    · rfl
    · rfl

theorem Steps.outdated_iff (h : Steps services options deadline p r verdict q)
    (hv : verdict ≠ .outOfTime) : q.needsReload = true ↔ r.Outdated := by
  have hc := h.refresh_ne_cutOff hv
  rw [h.needsReload_iff]
  refine or_congr ?_ Iff.rfl
  rcases hr : r.refresh? with _ | kinds | e | _
  · exact iff_of_false nofun nofun
  · exact iff_of_false nofun nofun
  · exact iff_of_true rfl ⟨e, rfl⟩
  · exact absurd hr hc

theorem Refreshes.reloads_eq {refresh? : Option Refresh}
    (h : Refreshes services options deadline p refresh? q) :
    q.summary.reloads = p.summary.reloads + if refresh?.any Refresh.isLoaded then 1 else 0 := by
  cases h <;> rfl

theorem Steps.reloads_eq (h : Steps services options deadline p r verdict q) :
    q.summary.reloads = p.summary.reloads + if r.reloaded then 1 else 0 := by
  cases h with
  | cutOff hr | failed hr | swept hr => exact hr.reloads_eq

theorem Runs.reloads_eq (h : Runs services options deadline p rounds finished q) :
    q.summary.reloads = p.summary.reloads + rounds.countP Round.reloaded := by
  induction h with
  | spent => rfl
  | finished hs | outOfTime hs | late hs =>
    rw [List.countP_singleton]
    exact hs.reloads_eq
  | @again p r q rs _ last hs _ _ ih =>
    have hq : (q.pause services options deadline).summary.reloads = q.summary.reloads := rfl
    rw [ih, hq, hs.reloads_eq, List.countP_cons]
    omega

theorem Runs.length_eq (h : Runs services options deadline p rounds true q) :
    rounds.length = rounds.countP (·.sweep?.isSome) + rounds.countP Round.refused := by
  generalize hf : true = finished at h
  induction h with
  | spent | outOfTime | late => cases hf
  | finished hs =>
    have hr := hs.swept_iff nofun
    simp only [List.length_singleton, List.countP_singleton, hr]
    split <;> simp_all
  | again hs _ _ ih =>
    have hr := hs.swept_iff nofun
    simp only [List.length_cons, List.countP_cons, ih hf, hr]
    split <;> simp_all <;> omega

theorem Runs.first_refresh (h : Runs services options deadline p (r :: rounds) finished q) :
    r.refresh?.isSome = p.needsReload := by
  cases h with
  | finished hs | outOfTime hs | late hs | again hs => exact hs.isSome_refresh

theorem Runs.refresh_iff (h : Runs services options deadline p rounds finished q) :
    rounds.IsChain fun r r' => r'.refresh?.isSome = true ↔ r.Outdated := by
  induction h with
  | spent => exact .nil
  | finished | outOfTime | late => exact .singleton _
  | @again p r q rs _ last hs _ hr ih =>
    cases rs with
    | nil => exact .singleton _
    | cons r' rs =>
      refine .cons_cons ?_ ih
      rw [hr.first_refresh]
      exact hs.outdated_iff nofun

end Progress

structure Reloads (services : Services σ) (deadline : Nat) (resolver : Resolver)
    (made : RunRecord σ) : Prop where
  /-- What comes of a refresh is up to the discovery service alone. -/
  refresh_eq : ∀ r ∈ made.rounds, ∀ refresh, r.refresh? = some refresh → ∃ world,
    refresh = (resolver.refreshed ((services.discover world).run services.drift deadline
      r.started).1).1
  first : ∃ r later, made.rounds = r :: later ∧
    (r.refresh?.isSome = true ↔ resolver.loaded = false)
  next : made.rounds.IsChain fun r r' => r'.refresh?.isSome = true ↔ r.Outdated
  /-- Neither successes nor what the store refuses are a reason for it. -/
  idle : made.rounds.IsChain fun r r' => r.refused = false →
    (∀ a ∈ r.attempts, ∀ e, a.result = .error e →
      ∃ verb target cause, e = .requestFailed verb target cause) → r'.refresh? = none
  /-- If the mapping is due and not rebuilt, the store is not called. -/
  unready : ∀ r ∈ made.rounds, ∀ refresh, r.refresh? = some refresh → refresh.isLoaded = false →
    r.calls = [.discover]
  success : ∀ summary, made.result = .ok summary →
    summary.reloads = made.rounds.countP Round.reloaded ∧
      summary.rounds = made.rounds.countP (·.sweep?.isSome) + made.rounds.countP Round.refused

theorem Round.not_outdated {r : Round} (hr : r.refused = false)
    (ha : ∀ a ∈ r.attempts, ∀ e, a.result = .error e →
      ∃ verb target cause, e = .requestFailed verb target cause) : ¬ r.Outdated := by
  rintro (⟨e, he⟩ | ⟨a, hm, hu⟩)
  · rw [refused, he] at hr
    cases hr
  · unfold Attempt.unresolved at hu
    cases hres : a.result with
    | ok done =>
      rw [hres] at hu
      cases hu
    | error e =>
      obtain ⟨verb, target, cause, rfl⟩ := ha a hm e hres
      rw [hres] at hu
      cases hu

theorem Progress.Runs.reloads {manifests : List Manifest} {stage : Stage σ} {rounds : List Round}
    {finished : Bool} {last : Progress σ}
    (h : Runs services options deadline (.start manifests resolver stage) rounds finished last)
    (hne : rounds ≠ []) : Reloads services deadline resolver (.ofRounds rounds finished last) where
  refresh_eq := h.forall_rounds fun hs _ hr => ⟨_, hs.refreshed_eq hr resolver⟩
  first := by
    obtain ⟨r, later, rfl⟩ := List.exists_cons_of_ne_nil hne
    have hr : r.refresh?.isSome = !resolver.loaded := h.first_refresh
    exact ⟨r, later, rfl, by simp [hr]⟩
  next := h.refresh_iff
  idle := h.refresh_iff.imp fun r r' hr hf ha => by
    have hs := mt hr.mp (Round.not_outdated hf ha)
    simpa using hs
  unready := h.forall_rounds fun hs _ hr => hs.calls_of_unready hr
  success := by
    intro summary hs
    cases finished with
    | false => cases hs
    | true =>
      cases hs
      have hreloads := h.reloads_eq
      have hrounds := h.rounds_eq
      exact ⟨hreloads.trans (Nat.zero_add _),
        (hrounds.trans (Nat.zero_add _)).trans h.length_eq⟩

theorem Ran.reloads {manifests : List Manifest} {stage : Stage σ} {made : RunRecord σ}
    (h : Ran services options deadline manifests resolver stage made) :
    made.rounds = [] ∧ manifests = [] ∧ made.result = .ok .zero ∨
      Reloads services deadline resolver made := by
  cases h with
  | idle hnil => exact .inl ⟨rfl, hnil, rfl⟩
  | rounds _ hne hr => exact .inr (hr.reloads hne)

/-- A run on some manifests refreshes its mapping in its first round if it has none, and in a later
round exactly if the one before failed to or met a kind that it does not know. So does one that never
pauses and is given any more rounds. A run makes no other calls of the discovery service, and each
before all that its round asks of the store. -/
theorem run_reloads (services : Services σ) (options : Options) (deadline : Nat)
    (manifests : List Manifest) (resolver : Resolver) (stage : Stage σ) :
    let made := run services options deadline manifests resolver stage
    let limit := roundLimit options.retryInterval (deadline - stage.moment.now)
    (∀ more,
      let (rounds, finished, last) :=
        Progress.rounds services options deadline (limit + more) (.start manifests resolver stage)
      Reloads services deadline resolver (.ofRounds rounds finished last)) ∧
    (made.rounds = [] ∧ manifests = [] ∧ made.result = .ok .zero ∨
      Reloads services deadline resolver made) ∧
    run services.traced options deadline manifests resolver (stage.beside []) =
      made.beside (made.rounds.flatMap Round.calls) := by
  intro made limit
  refine ⟨fun more => ?_, (run_ran services options deadline manifests resolver stage).reloads,
    run_traced services options deadline manifests resolver stage []⟩
  obtain ⟨hr, hne⟩ := Progress.rounds_runs_beyond services options deadline
    (.start manifests resolver stage) more
  exact hr.reloads hne

/-- A kind that the second answer brings: the mapping is rebuilt once more, and not again. -/
example :
    (run Scenario.World.stagedServices ⟨false, false, [], 5⟩ 100 [stateManifest .null] .unloaded
      ⟨⟨0, .still .empty lateFeed⟩, ⟨true, []⟩⟩).rounds.map (·.refresh?) =
      [some (.loaded 0), some (.loaded 1)] := by
  decide +kernel

end ManifestSync
