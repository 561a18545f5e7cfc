import ManifestSync.Proofs.Reconcile.Frame

namespace ManifestSync

variable {σ α : Type} {services : Services σ} {deadline : Nat} {update : Bool} {resolver : Resolver}

theorem Activity.deadline_le_of_run {drift : Drift σ} {call : Activity σ α} {now : Nat}
    {moment : Moment σ} (h : call.run drift deadline now = (none, moment)) :
    deadline ≤ moment.now := by
  induction call generalizing now with
  | done answer s => cases h
  | wait delay s resume ih =>
    unfold Activity.run at h
    split at h
    · exact ih _ h
    · cases h
      unfold Moment.until
      split
      · exact Nat.le_refl deadline
      · next hn => exact Nat.le_of_not_lt hn
  | turn s resume ih =>
    unfold Activity.run at h
    split at h
    · exact ih s h
    · next hn =>
      cases h
      exact Nat.le_of_not_lt hn

namespace Dialogue

inductive Holds (services : Services σ) (deadline : Nat) :
    Dialogue α → Moment σ → Conversation σ α → Prop where
  | done {result m} : Holds services deadline (.done result) m ⟨[], some result, m⟩
  | answered {r next m answer m' rest} :
      (services.send r m.world).run services.drift deadline m.now = (some answer, m') →
      Holds services deadline (next answer) m' rest →
      Holds services deadline (.ask r next) m
        { rest with exchanges := ⟨r, m.now, some answer⟩ :: rest.exchanges }
  | cutOff {r next m m'} :
      (services.send r m.world).run services.drift deadline m.now = (none, m') →
      Holds services deadline (.ask r next) m ⟨[⟨r, m.now, none⟩], none, m'⟩

theorem hold_holds (services : Services σ) (deadline : Nat) (d : Dialogue α) (m : Moment σ) :
    d.Holds services deadline m (d.hold services deadline m) := by
  induction d generalizing m with
  | done result => exact .done
  | ask r next ih =>
    rcases ha : (services.send r m.world).run services.drift deadline m.now with ⟨_ | answer, m'⟩
    · simp only [hold, ha]
      exact .cutOff ha
    · simp only [hold, ha]
      exact .answered ha (ih answer m')

/-- Whatever the answers are, the dialogue ends with a result that has the property. -/
def Yields (P : α → Prop) : Dialogue α → Prop
  | .done result => P result
  | .ask _ next => ∀ answer, (next answer).Yields P

namespace Holds

variable {d : Dialogue α} {m : Moment σ} {held : Conversation σ α}

theorem forall_request {P : Request → Prop} (h : d.Holds services deadline m held) (hd : d.All P) :
    ∀ x ∈ held.exchanges, P x.request := by
  induction h with
  | done => exact fun _ hx => absurd hx List.not_mem_nil
  | answered _ _ ih => exact List.forall_mem_cons.mpr ⟨hd.1, ih (hd.2 _)⟩
  | cutOff => exact List.forall_mem_singleton.mpr hd.1

theorem result_of_yields {P : α → Prop} (h : d.Holds services deadline m held) (hd : d.Yields P)
    {result : α} (hr : held.result? = some result) : P result := by
  induction h with
  | done =>
    cases hr
    exact hd
  | answered _ _ ih => exact ih (hd _) hr
  | cutOff => cases hr

theorem deadline_le (h : d.Holds services deadline m held) (hr : held.result? = none) :
    deadline ≤ held.moment.now := by
  induction h with
  | done => cases hr
  | answered _ _ ih => exact ih hr
  | cutOff ha => exact Activity.deadline_le_of_run ha

end Holds

end Dialogue

theorem Services.Frame.holds {P : Request → Prop} {R : Moment σ → Moment σ → Prop}
    (h : services.Frame deadline P R) {d : Dialogue α} (hd : d.All P) {m : Moment σ}
    {held : Conversation σ α} (hh : d.Holds services deadline m held) : R m held.moment := by
  induction hh with
  | done => exact h.refl _
  | @answered r next m answer m' rest ha _ ih =>
    have hw := h.send r m hd.1
    rw [ha] at hw
    exact h.trans hw (ih (hd.2 answer))
  | @cutOff r next m m' ha =>
    have hw := h.send r m hd.1
    rw [ha] at hw
    exact hw

namespace Manifest

/-- How an attempt at the manifest goes: its kind is not resolved, or its object is ensured in time,
or that is refused, or cut off at the deadline. -/
inductive Attempts (services : Services σ) (update : Bool) (resolver : Resolver) (deadline : Nat)
    (m : Manifest) (moment : Moment σ) : Attempt → Moment σ → Prop where
  | unresolved {cause} : resolver.resolve m.kind = .error cause →
      Attempts services update resolver deadline m moment
        ⟨m, [], .error (.typeNotResolved m.path cause)⟩ moment
  | applied {e held outcome} : resolver.resolve m.kind = .ok e →
      (m.apply update e).Holds services deadline moment held →
      held.result? = some (.ok outcome) →
      Attempts services update resolver deadline m moment
        ⟨m, held.exchanges, .ok ⟨e, outcome⟩⟩ held.moment
  | refused {e held error} : resolver.resolve m.kind = .ok e →
      (m.apply update e).Holds services deadline moment held →
      held.result? = some (.error error) →
      Attempts services update resolver deadline m moment
        ⟨m, held.exchanges, .error error⟩ held.moment
  | cutOff {e held} : resolver.resolve m.kind = .ok e →
      (m.apply update e).Holds services deadline moment held →
      held.result? = none →
      Attempts services update resolver deadline m moment
        ⟨m, held.exchanges, .error (.deadlineExceeded m.path)⟩ held.moment

theorem attempt_attempts (services : Services σ) (update : Bool) (resolver : Resolver)
    (deadline : Nat) (m : Manifest) (moment : Moment σ) :
    m.Attempts services update resolver deadline moment
      (m.attempt services update resolver deadline moment).1
      (m.attempt services update resolver deadline moment).2 := by
  unfold attempt
  cases he : resolver.resolve m.kind with
  | error cause => exact .unresolved he
  | ok e =>
    have hh := Dialogue.hold_holds services deadline (m.apply update e) moment
    rcases hr : ((m.apply update e).hold services deadline moment).result? with
      _ | error | outcome
    all_goals simp only [hr]
    · exact .cutOff he hh hr
    · exact .refused he hh hr
    · exact .applied he hh hr

theorem apply_yields (update : Bool) (m : Manifest) (e : Endpoint) :
    (m.apply update e).Yields fun result =>
      ∀ error, result = .error error → error.isDeadlineExceeded = false := by
  have hlast : ∀ (r : Request) outcome, (r.lastly outcome (m.target e)).Yields fun result =>
      ∀ error, result = .error error → error.isDeadlineExceeded = false := by
    intro r outcome answer
    cases answer with
    | ok _ => exact nofun
    | error cause =>
      rintro error ⟨⟩
      rfl
  obtain ⟨next, he, hn⟩ := m.apply_continues update e
  rw [he]
  intro answer
  have hc := hn answer
  generalize next answer = d at hc ⊢
  cases hc with
  | unchanged => exact nofun
  | patch | create => exact hlast _ _
  | refused =>
    rintro error ⟨⟩
    rfl

namespace Attempts

variable {m : Manifest} {moment moment' : Moment σ} {a : Attempt}

theorem manifest_eq (h : m.Attempts services update resolver deadline moment a moment') :
    a.manifest = m := by
  cases h <;> rfl

theorem resolve_eq (h : m.Attempts services update resolver deadline moment a moment')
    {done : Applied} (hr : a.result = .ok done) : resolver.resolve m.kind = .ok done.endpoint := by
  cases h with
  | applied he =>
    cases hr
    exact he
  | unresolved | refused | cutOff => cases hr

theorem deadline_le (h : m.Attempts services update resolver deadline moment a moment')
    {error : ApplyError} (hr : a.result = .error error) (he : error.isDeadlineExceeded = true) :
    deadline ≤ moment'.now := by
  cases h with
  | unresolved =>
    cases hr
    cases he
  | applied => cases hr
  | refused _ hh hres =>
    cases hr
    exact absurd he (by simp [hh.result_of_yields (m.apply_yields update _) hres])
  | cutOff _ hh hres => exact hh.deadline_le hres

end Attempts

end Manifest

theorem Stage.attempts {options : Options} {m : Manifest} {s s' : Stage σ} {a : Attempt}
    (h : s.attempt services options resolver deadline m = (a, s')) :
    m.Attempts services options.update resolver deadline s.moment a s'.moment := by
  have ha := m.attempt_attempts services options.update resolver deadline s.moment
  obtain ⟨rfl, rfl⟩ := Prod.mk.inj h
  exact ha

end ManifestSync
