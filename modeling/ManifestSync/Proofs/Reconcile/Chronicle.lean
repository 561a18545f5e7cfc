import ManifestSync.Proofs.Reconcile.Conservation
import ManifestSync.Proofs.Reconcile.Conversation

namespace ManifestSync

variable {σ : Type} {services : Services σ} {options : Options} {resolver : Resolver}
  {deadline : Nat} {Q : Manifest → Prop} {T : List Attempt → Moment σ → Moment σ → Prop}

def RunRecord.attempts (made : RunRecord σ) : List Attempt := made.rounds.flatMap Round.attempts

/-- A relation between moments and the attempts between them that holds of each attempt at a manifest
with the property, and of every call of the discovery service and every pause as no attempts. -/
structure Services.Chronicle (services : Services σ) (options : Options) (deadline : Nat)
    (Q : Manifest → Prop) (T : List Attempt → Moment σ → Moment σ → Prop) : Prop where
  nil : ∀ m, T [] m m
  append : ∀ {as bs m m' m''}, T as m m' → T bs m' m'' → T (as ++ bs) m m''
  pause : ∀ m instant, instant ≤ deadline → T [] m (m.until services.drift instant)
  discover : ∀ m, T [] m ((services.discover m.world).run services.drift deadline m.now).2
  attempt : ∀ {resolver manifest m a m'}, Q manifest → m.now < deadline →
    manifest.Attempts services options.update resolver deadline m a m' → T [a] m m'

namespace Services.Chronicle

theorem refreshes (h : services.Chronicle options deadline Q T) {p q : Progress σ}
    {refresh? : Option Refresh} (hr : Progress.Refreshes services options deadline p refresh? q) :
    T [] p.stage.moment q.stage.moment := by
  have hw := h.discover p.stage.moment
  cases hr with
  | idle => exact h.nil _
  | loaded _ ha | failed _ ha | cutOff _ ha =>
    rw [ha] at hw
    exact hw

theorem sweeps (h : services.Chronicle options deadline Q T) {pending : List Manifest}
    {s : Stage σ} {made : Sweep σ} (hQ : ∀ m ∈ pending, Q m)
    (hs : Sweeps services options resolver deadline pending s made) :
    T made.attempts s.moment made.stage.moment := by
  induction hs with
  | nil | late => exact h.nil _
  | success hn ha _ _ ih | failure hn ha _ _ _ ih =>
    obtain ⟨hm, hrest⟩ := List.forall_mem_cons.mp hQ
    exact h.append (h.attempt hm hn (Stage.attempts ha)) (ih hrest)
  | cutOff hn ha => exact h.attempt (hQ _ List.mem_cons_self) hn (Stage.attempts ha)

theorem steps (h : services.Chronicle options deadline Q T) {p q : Progress σ} {r : Round}
    {verdict : Verdict} (hQ : ∀ m ∈ p.pending, Q m)
    (hs : Progress.Steps services options deadline p r verdict q) :
    T r.attempts p.stage.moment q.stage.moment := by
  cases hs with
  | cutOff hr | failed hr => exact h.refreshes (p := p.counted) hr
  | swept hr _ hm =>
    have hq := hr.pending_eq
    exact h.append (h.refreshes (p := p.counted) hr) (h.sweeps (fun m hm => hQ m (hq ▸ hm)) hm)

theorem rested (h : services.Chronicle options deadline Q T) {p q : Progress σ} {r : Round}
    {verdict : Verdict} (hQ : ∀ m ∈ p.pending, Q m)
    (hs : Progress.Steps services options deadline p r verdict q) :
    T r.attempts p.stage.moment (q.pause services options deadline).stage.moment := by
  have hp := h.pause q.stage.moment (min (q.stage.moment.now + options.retryInterval) deadline)
    (Nat.min_le_right _ _)
  have hw := h.append (h.steps hQ hs) hp
  rwa [List.append_nil] at hw

theorem runs (h : services.Chronicle options deadline Q T) {p q : Progress σ}
    {rounds : List Round} {finished : Bool} (hQ : ∀ m ∈ p.pending, Q m)
    (hr : Progress.Runs services options deadline p rounds finished q) :
    T (rounds.flatMap Round.attempts) p.stage.moment q.stage.moment := by
  induction hr with
  | spent => exact h.nil _
  | finished hs | outOfTime hs =>
    rw [List.flatMap_singleton]
    exact h.steps hQ hs
  | late hs =>
    rw [List.flatMap_singleton]
    exact h.rested hQ hs
  | @again p r q _ _ _ hs _ _ ih =>
    have hsub : q.pending ⊆ p.pending := by
      rw [hs.pending_eq]
      exact (unapplied_sublist p.pending r.attempts).subset
    exact h.append (h.rested hQ hs) (ih fun m hm => hQ m (hsub hm))

theorem run (h : services.Chronicle options deadline Q T) {manifests : List Manifest}
    (hQ : ∀ m ∈ manifests, Q m) {stage : Stage σ} {made : RunRecord σ}
    (hr : Ran services options deadline manifests resolver stage made) :
    T made.attempts stage.moment made.stage.moment := by
  cases hr with
  | idle => exact h.nil _
  | rounds _ _ hr => exact h.runs hQ hr

end Services.Chronicle

section ForallAttempts

variable {P : Resolver → Attempt → Prop}
  (hP : ∀ {resolver m moment a moment'}, Q m →
    m.Attempts services options.update resolver deadline moment a moment' → P resolver a)

include hP

theorem Sweeps.forall_attempts {pending : List Manifest} {s : Stage σ} {made : Sweep σ}
    (hQ : ∀ m ∈ pending, Q m)
    (h : Sweeps services options resolver deadline pending s made) :
    ∀ a ∈ made.attempts, P resolver a := by
  induction h with
  | nil | late => exact fun _ ha => absurd ha List.not_mem_nil
  | success _ ha _ _ ih | failure _ ha _ _ _ ih =>
    obtain ⟨hm, hrest⟩ := List.forall_mem_cons.mp hQ
    exact List.forall_mem_cons.mpr ⟨hP hm (Stage.attempts ha), ih hrest⟩
  | cutOff _ ha =>
    have hm := hQ _ List.mem_cons_self
    exact List.forall_mem_singleton.mpr (hP hm (Stage.attempts ha))

namespace Progress

variable {p q : Progress σ} {r : Round}

theorem Steps.forall_attempts {verdict : Verdict} (hQ : ∀ m ∈ p.pending, Q m)
    (h : Steps services options deadline p r verdict q) :
    ∀ a ∈ r.attempts, P r.resolver a := by
  cases h with
  | cutOff | failed => exact fun _ ha => absurd ha List.not_mem_nil
  | swept hr _ hs =>
    have hq := hr.pending_eq
    exact hs.forall_attempts hP fun m hm => hQ m (hq ▸ hm)

theorem Runs.forall_attempts {rounds : List Round} {finished : Bool}
    (hQ : ∀ m ∈ p.pending, Q m)
    (h : Runs services options deadline p rounds finished q) :
    ∀ r ∈ rounds, ∀ a ∈ r.attempts, P r.resolver a := by
  induction h with
  | spent => exact fun _ hr => absurd hr List.not_mem_nil
  | finished hs | outOfTime hs | late hs =>
    exact List.forall_mem_singleton.mpr (hs.forall_attempts hP hQ)
  | @again p r q _ _ _ hs _ _ ih =>
    have hsub : q.pending ⊆ p.pending := by
      rw [hs.pending_eq]
      exact (unapplied_sublist p.pending r.attempts).subset
    exact List.forall_mem_cons.mpr ⟨hs.forall_attempts hP hQ, ih fun m hm => hQ m (hsub hm)⟩

end Progress

theorem Ran.forall_attempts {manifests : List Manifest} (hQ : ∀ m ∈ manifests, Q m)
    {stage : Stage σ} {made : RunRecord σ}
    (h : Ran services options deadline manifests resolver stage made) :
    ∀ r ∈ made.rounds, ∀ a ∈ r.attempts, P r.resolver a := by
  cases h with
  | idle => exact fun _ hr => absurd hr List.not_mem_nil
  | rounds _ _ hr => exact hr.forall_attempts hP hQ

end ForallAttempts

/-- Every success of the round is where its mapping says that the kind is served. -/
def Round.Resolved (r : Round) : Prop :=
  ∀ a ∈ r.attempts, ∀ done, a.result = .ok done →
    r.resolver.resolve a.manifest.kind = .ok done.endpoint

theorem Progress.Steps.resolver_eq {p q : Progress σ} {r : Round} {verdict : Verdict}
    (h : Steps services options deadline p r verdict q) : r.resolver = q.resolver := by
  cases h <;> rfl

theorem Ran.resolved {manifests : List Manifest} {stage : Stage σ} {made : RunRecord σ}
    (h : Ran services options deadline manifests resolver stage made) :
    ∀ r ∈ made.rounds, r.Resolved := by
  refine h.forall_attempts (Q := fun _ => True) (P := fun resolver a => ∀ done,
    a.result = .ok done → resolver.resolve a.manifest.kind = .ok done.endpoint) ?_
    fun _ _ => trivial
  intro resolver m moment a moment' _ ha done hr
  rw [ha.manifest_eq]
  exact ha.resolve_eq hr

end ManifestSync
