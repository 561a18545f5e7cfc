import ManifestSync.Proofs.Reconcile.Companion

namespace ManifestSync

inductive Call where
  | discover
  | send (request : Request)

variable {σ α : Type} {services : Services σ} {options : Options} {resolver : Resolver}
  {deadline : Nat}

def Services.traced (services : Services σ) : Services (σ × List Call) where
  send r w := (services.send r w.1).onPart Prod.fst (fun s w => (s, w.2)) (w.1, w.2 ++ [.send r])
  discover w :=
    (services.discover w.1).onPart Prod.fst (fun s w => (s, w.2)) (w.1, w.2 ++ [.discover])
  drift before after w := (services.drift before after w.1, w.2)

def Moment.beside (m : Moment σ) (calls : List Call) : Moment (σ × List Call) :=
  ⟨m.now, (m.world, calls)⟩

def Stage.beside (s : Stage σ) (calls : List Call) : Stage (σ × List Call) :=
  ⟨s.moment.beside calls, s.sink⟩

def Progress.beside (p : Progress σ) (calls : List Call) : Progress (σ × List Call) :=
  ⟨p.pending, p.resolver, p.needsReload, p.summary, p.last?, p.stage.beside calls⟩

def RunRecord.beside (made : RunRecord σ) (calls : List Call) : RunRecord (σ × List Call) :=
  ⟨made.rounds, made.result, made.resolver, made.stage.beside calls⟩

def Attempt.calls (a : Attempt) : List Call := a.exchanges.map fun x => .send x.request

/-- The calls of the round: the discovery service is asked once if the mapping is due, and then come
the requests of the sweep. -/
def Round.calls (r : Round) : List Call :=
  (if r.refresh?.isSome then [.discover] else []) ++ r.attempts.flatMap Attempt.calls

variable (services options resolver deadline)

theorem Moment.until_beside (m : Moment σ) (calls : List Call) (instant : Nat) :
    (m.beside calls).until services.traced.drift instant =
      (m.until services.drift instant).beside calls := by
  unfold Moment.until Moment.beside
  split
  · rfl
  · rfl

theorem Activity.run_onPart (call : Activity σ α) (s : σ) (calls : List Call) (now : Nat) :
    (call.onPart Prod.fst (fun s w => (s, w.2)) (s, calls)).run services.traced.drift deadline now =
      ((call.run services.drift deadline now).1,
        (call.run services.drift deadline now).2.beside calls) := by
  induction call generalizing s now with
  | done answer t => rfl
  | wait delay t resume ih =>
    have hu := (Moment.mk now t).until_beside services calls
    unfold Moment.beside at hu
    by_cases hd : now + delay ≤ deadline
    · simp only [onPart, run, hd, ↓reduceIte, hu]
      exact ih _ _ _
    · simp only [onPart, run, hd, ↓reduceIte, hu]
      rfl
  | turn t resume ih =>
    by_cases hn : now < deadline
    · simp only [onPart, run, hn, ↓reduceIte]
      exact ih _ _ _
    · simp only [onPart, run, hn, ↓reduceIte]
      rfl

theorem Dialogue.hold_traced (d : Dialogue α) (m : Moment σ) (calls : List Call) :
    d.hold services.traced deadline (m.beside calls) =
      let held := d.hold services deadline m
      ⟨held.exchanges, held.result?,
        held.moment.beside (calls ++ held.exchanges.map fun x => .send x.request)⟩ := by
  induction d generalizing m calls with
  | done result => simp only [hold, List.map_nil, List.append_nil]
  | ask r next ih =>
    have hsend : (services.traced.send r (m.beside calls).world).run services.traced.drift deadline
        (m.beside calls).now =
          (((services.send r m.world).run services.drift deadline m.now).1,
            ((services.send r m.world).run services.drift deadline m.now).2.beside
              (calls ++ [.send r])) :=
      Activity.run_onPart services deadline _ _ _ _
    rcases ha : (services.send r m.world).run services.drift deadline m.now with ⟨_ | answer, m'⟩
    · simp only [hold, hsend, ha]
      rfl
    · simp only [hold, hsend, ha, ih, List.map_cons, List.append_assoc, List.singleton_append]
      rfl

theorem Manifest.attempt_traced (m : Manifest) (update : Bool) (moment : Moment σ)
    (calls : List Call) :
    m.attempt services.traced update resolver deadline (moment.beside calls) =
      let (a, moment') := m.attempt services update resolver deadline moment
      (a, moment'.beside (calls ++ a.calls)) := by
  unfold attempt
  cases resolver.resolve m.kind with
  | error cause => simp only [Attempt.calls, List.map_nil, List.append_nil]
  | ok e => simp only [Dialogue.hold_traced, Attempt.calls]

theorem Stage.attempt_traced (s : Stage σ) (m : Manifest) (calls : List Call) :
    (s.beside calls).attempt services.traced options resolver deadline m =
      let (a, s') := s.attempt services options resolver deadline m
      (a, s'.beside (calls ++ a.calls)) := by
  have hm := m.attempt_traced services resolver deadline options.update s.moment calls
  unfold attempt beside
  simp only [hm]

namespace Progress

theorem refresh_traced (p : Progress σ) (calls : List Call) :
    (p.beside calls).refresh services.traced options deadline =
      let (refresh?, q) := p.refresh services options deadline
      (refresh?, q.beside (calls ++ if refresh?.isSome then [.discover] else [])) := by
  cases hn : p.needsReload with
  | false =>
    have hn' : (p.beside calls).needsReload = false := hn
    simp only [refresh, hn, hn', Bool.false_eq_true, ↓reduceIte, Option.isSome_none,
      List.append_nil]
  | true =>
    have hn' : (p.beside calls).needsReload = true := hn
    have hcall : (services.traced.discover (p.beside calls).stage.moment.world).run
        services.traced.drift deadline (p.beside calls).stage.moment.now =
          (((services.discover p.stage.moment.world).run services.drift deadline
              p.stage.moment.now).1,
            ((services.discover p.stage.moment.world).run services.drift deadline
              p.stage.moment.now).2.beside (calls ++ [.discover])) :=
      Activity.run_onPart services deadline _ _ _ _
    rcases ha : (services.discover p.stage.moment.world).run services.drift deadline
      p.stage.moment.now with ⟨_ | _ | _, moment⟩
    all_goals
      simp only [refresh, hn, hn', hcall, ha, ↓reduceIte, Resolver.refreshed, Option.isSome_some]
      rfl

theorem pause_beside (p : Progress σ) (calls : List Call) :
    (p.beside calls).pause services.traced options deadline =
      (p.pause services options deadline).beside calls := by
  have hu := p.stage.moment.until_beside services calls
    (min (p.stage.moment.now + options.retryInterval) deadline)
  unfold pause beside Stage.beside
  simp only [← hu]
  rfl

end Progress

def Services.traces :
    Companion services options services.traced options deadline (List Call) Call where
  stage calls s := s.beside calls
  add := (· ++ ·)
  ofRefresh refresh? := if refresh?.isSome then [.discover] else []
  ofAttempt := Attempt.calls
  retryInterval_eq := rfl
  add_nil := List.append_nil
  add_append _ _ _ := (List.append_assoc ..).symm
  now_stage _ _ := rfl
  attempt_stage calls s resolver m := s.attempt_traced services options resolver deadline m calls
  refresh_onto calls p := p.refresh_traced services options deadline calls
  pause_onto calls p := p.pause_beside services options deadline calls

/-- A trace makes no difference to a run, and it holds the calls of its rounds. -/
theorem run_traced (services : Services σ) (options : Options) (deadline : Nat)
    (manifests : List Manifest) (resolver : Resolver) (stage : Stage σ) (calls : List Call) :
    run services.traced options deadline manifests resolver (stage.beside calls) =
      let made := run services options deadline manifests resolver stage
      made.beside (calls ++ made.rounds.flatMap Round.calls) :=
  (services.traces options deadline).run_onto calls manifests resolver stage

end ManifestSync
