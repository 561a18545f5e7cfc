import ManifestSync.Http.Client
import ManifestSync.Reconcile.Dialogue

namespace ManifestSync

variable {σ : Type}

theorem Activity.await_map {α β : Type} (f : α → β) (drift : Drift σ) (call : Activity σ α)
    (now : Nat) : (call.map f).await drift now = (f (call.await drift now).1,
      (call.await drift now).2) := by
  induction call generalizing now with
  | done answer s => rfl
  | wait delay s resume ih => exact ih _ _
  | turn s resume ih => exact ih s now

namespace Http

theorem storeError_eq_notFound {target what : String} {e : RequestError} :
    storeError target e = .notFound what ↔
      what = target ∧ ∃ status, e = .refused status ∧ status.code = 404 := by
  cases e with
  | failed failure => simp [storeError]
  | refused status =>
    by_cases hmissing : status.code = 404
    · simp [storeError, hmissing, eq_comm]
    · by_cases hpresent : status.code = 409 <;> simp [storeError, hmissing, hpresent]

theorem client_of_outgoing {method written : String} {contentType? : Option String}
    {body? : Option Tree} {e : StoreError}
    (h : outgoing method written contentType? body? = .error e) :
    ∃ failure, e = .client failure := by
  unfold outgoing at h
  split at h
  · cases h
  · cases h
    exact ⟨_, rfl⟩

theorem client_of_objectPath {endpoint : Endpoint} {ns : Option String} {name : String}
    {e : StoreError} (h : objectPath endpoint ns name = .error e) :
    ∃ failure, e = .client failure := by
  unfold objectPath at h
  split at h
  · cases h
    exact ⟨_, rfl⟩
  · cases h

theorem error_of_bind {ε α β : Type} {x : Except ε α} {f : α → Except ε β} {e : ε}
    (h : x >>= f = .error e) : x = .error e ∨ ∃ a, f a = .error e := by
  cases x with
  | error cause =>
    obtain rfl : cause = e := Except.error.inj h
    exact .inl rfl
  | ok a => exact .inr ⟨a, h⟩

theorem client_of_bind_outgoing {method written : String} {contentType? : Option String}
    {body? : Option Tree} {made : Outgoing → Prepared} {e : StoreError}
    (h : (outgoing method written contentType? body? >>= fun out => pure (made out)) = .error e) :
    ∃ failure, e = .client failure := by
  obtain ho | ⟨out, hpure⟩ := error_of_bind h
  · exact client_of_outgoing ho
  · cases hpure

/-- A request that cannot be prepared fails before the server hears of it: it cannot be built, or
its object is not of the form that is sent. -/
theorem client_of_prepare {r : Request} {e : StoreError} (h : prepare r = .error e) :
    (∃ failure, e = .client failure) ∨ ∃ reason, e = .serialization reason := by
  cases r with
  | get endpoint ns name =>
    obtain hp | ⟨path, ho⟩ := error_of_bind h
    · exact .inl (client_of_objectPath hp)
    · exact .inl (client_of_bind_outgoing ho)
  | patch endpoint ns name body =>
    obtain hp | ⟨path, ho⟩ := error_of_bind h
    · exact .inl (client_of_objectPath hp)
    · exact .inl (client_of_bind_outgoing ho)
  | create endpoint ns object =>
    unfold prepare at h
    cases ht : objectOf? (.ofTree object) with
    | none =>
      simp only [ht] at h
      cases h
      exact .inr ⟨_, rfl⟩
    | some typed =>
      simp only [ht] at h
      exact .inl (client_of_bind_outgoing h)

def Missing (transport : Transport σ) (drift : Drift σ) (r : Request) (m : Moment σ) : Prop :=
  ∃ p status, prepare r = .ok p ∧ status.code = 404 ∧
    ((fetch transport objectOf? p.outgoing m.world).await drift m.now).1 = .error (.refused status)

/-- A store behind a server answers that an object is not there exactly if the server says so. -/
theorem send_notFound_iff (transport : Transport σ) (drift : Drift σ) (r : Request)
    (m : Moment σ) :
    (∃ what, ((send transport r m.world).await drift m.now).1 = .error (.notFound what)) ↔
      Missing transport drift r m := by
  unfold send Missing
  cases hp : prepare r with
  | error e =>
    refine iff_of_false ?_ ?_
    · rintro ⟨what, hw⟩
      obtain ⟨failure, rfl⟩ | ⟨reason, rfl⟩ := client_of_prepare hp
      · cases hw
      · cases hw
    · rintro ⟨p, status, ⟨⟩, _⟩
  | ok p =>
    simp only [Activity.await_map, Except.ok.injEq, exists_and_left, exists_eq_left']
    cases ((fetch transport objectOf? p.outgoing m.world).await drift m.now).1 with
    | ok object =>
      refine iff_of_false ?_ ?_
      · rintro ⟨what, ⟨⟩⟩
      · rintro ⟨status, _, ⟨⟩⟩
    | error e =>
      show (∃ what, (.error (storeError p.target e) : Answer) = .error (.notFound what)) ↔ _
      simp [storeError_eq_notFound, and_comm]

end Http

end ManifestSync
