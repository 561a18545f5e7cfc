import ManifestSync.Proofs.Reconcile.Ledger

namespace ManifestSync

variable {σ τ κ ε : Type}

def Progress.onto (f : Stage σ → Stage τ) (p : Progress σ) : Progress τ :=
  ⟨p.pending, p.resolver, p.needsReload, p.summary, p.last?, f p.stage⟩

def RunRecord.onto (f : Stage σ → Stage τ) (made : RunRecord σ) : RunRecord τ :=
  ⟨made.rounds, made.result, made.resolver, f made.stage⟩

/-- How something is kept beside a stage, and what one step of a run adds to it. -/
structure Companion (services : Services σ) (options : Options) (services' : Services τ)
    (options' : Options) (deadline : Nat) (κ ε : Type) where
  stage : κ → Stage σ → Stage τ
  add : κ → List ε → κ
  ofRefresh : Option Refresh → List ε
  ofAttempt : Attempt → List ε
  retryInterval_eq : options'.retryInterval = options.retryInterval
  add_nil : ∀ k, add k [] = k
  add_append : ∀ k es es', add k (es ++ es') = add (add k es) es'
  now_stage : ∀ k s, (stage k s).moment.now = s.moment.now
  attempt_stage : ∀ k s resolver m, (stage k s).attempt services' options' resolver deadline m =
    let (a, s') := s.attempt services options resolver deadline m
    (a, stage (add k (ofAttempt a)) s')
  refresh_onto : ∀ k (p : Progress σ), (p.onto (stage k)).refresh services' options' deadline =
    let (refresh?, q) := p.refresh services options deadline
    (refresh?, q.onto (stage (add k (ofRefresh refresh?))))
  pause_onto : ∀ k (p : Progress σ), (p.onto (stage k)).pause services' options' deadline =
    (p.pause services options deadline).onto (stage k)

namespace Companion

variable {services : Services σ} {options : Options} {services' : Services τ} {options' : Options}
  {deadline : Nat} (c : Companion services options services' options' deadline κ ε) (k : κ)

def ofRound (r : Round) : List ε := c.ofRefresh r.refresh? ++ r.attempts.flatMap c.ofAttempt

theorem sweep_stage (resolver : Resolver) (pending : List Manifest) (s : Stage σ) :
    sweep services' options' resolver deadline pending (c.stage k s) =
      let made := sweep services options resolver deadline pending s
      ⟨made.report, made.remaining, made.attempts,
        c.stage (c.add k (made.attempts.flatMap c.ofAttempt)) made.stage⟩ := by
  induction pending generalizing k s with
  | nil => simp only [sweep, List.flatMap_nil, c.add_nil]
  | cons m rest ih =>
    have hnow := c.now_stage k s
    have ha := c.attempt_stage k s resolver m
    rcases hs : s.attempt services options resolver deadline m with ⟨a, s'⟩
    rw [hs] at ha
    by_cases hd : deadline ≤ s.moment.now
    · simp only [sweep, hnow, hd, ↓reduceIte, List.flatMap_nil, c.add_nil]
    · cases hr : a.result with
      | ok done =>
        simp only [sweep, hnow, hd, ↓reduceIte, ha, hs, hr, ih, List.flatMap_cons, c.add_append]
      | error e =>
        cases he : e.isDeadlineExceeded with
        | true => simp only [sweep, hnow, hd, ↓reduceIte, ha, hs, hr, he, List.flatMap_singleton]
        | false =>
          simp only [sweep, hnow, hd, ↓reduceIte, ha, hs, hr, he, ih, List.flatMap_cons,
            c.add_append, Bool.false_eq_true]

theorem sweep_onto (p : Progress σ) :
    (p.onto (c.stage k)).sweep services' options' deadline =
      let (made, verdict, q) := p.sweep services options deadline
      (made, verdict, q.onto (c.stage (c.add k (made.2.flatMap c.ofAttempt)))) := by
  have hs := c.sweep_stage k p.resolver p.pending p.stage
  unfold Progress.sweep Progress.onto
  simp only [hs]

theorem round_onto (p : Progress σ) :
    (p.onto (c.stage k)).round services' options' deadline =
      let (r, verdict, q) := p.round services options deadline
      (r, verdict, q.onto (c.stage (c.add k (c.ofRound r)))) := by
  have hr := c.refresh_onto k p.counted
  have hc : (p.onto (c.stage k)).counted = p.counted.onto (c.stage k) := rfl
  have hnow : (p.onto (c.stage k)).stage.moment.now = p.stage.moment.now := c.now_stage k p.stage
  unfold Progress.round
  rw [← Progress.counted, ← Progress.counted, hc, hnow]
  dsimp only
  rw [hr]
  generalize p.counted.refresh services options deadline = made
  obtain ⟨refresh?, q⟩ := made
  have hs := fun k => c.sweep_onto k q
  rcases refresh? with _ | kinds | e | _
  · simp only [hs, ofRound, Round.attempts, c.add_append]
    rfl
  · simp only [hs, ofRound, Round.attempts, c.add_append]
    rfl
  · simp only [ofRound, Round.attempts, List.flatMap_nil, List.append_nil]
    rfl
  · simp only [ofRound, Round.attempts, List.flatMap_nil, List.append_nil]
    rfl

theorem rounds_onto (limit : Nat) (p : Progress σ) :
    (p.onto (c.stage k)).rounds services' options' deadline limit =
      let (rs, finished, q) := p.rounds services options deadline limit
      (rs, finished, q.onto (c.stage (c.add k (rs.flatMap c.ofRound)))) := by
  induction limit generalizing k p with
  | zero => simp only [Progress.rounds, List.flatMap_nil, c.add_nil]
  | succ limit ih =>
    have hr := c.round_onto k p
    rcases hp : p.round services options deadline with ⟨r, verdict, q⟩
    rw [hp] at hr
    cases verdict with
    | finished | outOfTime => simp only [Progress.rounds, hr, hp, List.flatMap_singleton]
    | again =>
      have hb := c.pause_onto (c.add k (c.ofRound r)) q
      have hnow : ((q.pause services options deadline).onto
          (c.stage (c.add k (c.ofRound r)))).stage.moment.now =
            (q.pause services options deadline).stage.moment.now := c.now_stage _ _
      by_cases hd : deadline ≤ (q.pause services options deadline).stage.moment.now
      · simp only [Progress.rounds, hr, hp, hb, hnow, hd, ↓reduceIte, List.flatMap_singleton]
      · simp only [Progress.rounds, hr, hp, hb, hnow, hd, ↓reduceIte, ih, List.flatMap_cons,
          c.add_append]

theorem run_onto (manifests : List Manifest) (resolver : Resolver) (s : Stage σ) :
    run services' options' deadline manifests resolver (c.stage k s) =
      let made := run services options deadline manifests resolver s
      made.onto (c.stage (c.add k (made.rounds.flatMap c.ofRound))) := by
  have hr := fun limit => c.rounds_onto k limit (.start manifests resolver s)
  cases manifests with
  | nil =>
    simp only [run, List.isEmpty_nil, ↓reduceIte, List.flatMap_nil, c.add_nil]
    rfl
  | cons m rest =>
    unfold Progress.start Progress.onto at hr
    have hnow := c.now_stage k s
    simp only [run, List.isEmpty_cons, Bool.false_eq_true, ↓reduceIte, hnow, c.retryInterval_eq, hr]
    rfl

end Companion

end ManifestSync
