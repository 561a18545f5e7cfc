import ManifestSync.Reconcile.Apply

namespace ManifestSync

def Request.lastly (r : Request) (outcome : Outcome) (target : String) :
    Dialogue (Except ApplyError Outcome) :=
  .ask r fun
    | .ok _ => .done (.ok outcome)
    | .error cause => .done (.error (.requestFailed r.verb target cause))

namespace Manifest

/-- What is left to do once the object was looked for: there is one way for each thing that may come
of that. -/
inductive Continues (update : Bool) (m : Manifest) (e : Endpoint) :
    Answer → Dialogue (Except ApplyError Outcome) → Prop where
  | unchanged {live} : (update = true → updatePatch m.object live = none) →
      Continues update m e (.ok live) (.done (.ok .unchanged))
  | patch {live patch} : update = true → updatePatch m.object live = some patch →
      Continues update m e (.ok live)
        ((Request.patch e m.inNamespace? m.name patch).lastly .patched (m.target e))
  | create {what} : Continues update m e (.error (.notFound what))
        ((Request.create e m.inNamespace? m.object).lastly .created (m.target e))
  | refused {cause} : (∀ what, cause ≠ .notFound what) →
      Continues update m e (.error cause)
        (.done (.error (.requestFailed .get (m.target e) cause)))

theorem apply_continues (update : Bool) (m : Manifest) (e : Endpoint) :
    ∃ next, m.apply update e = .ask (.get e m.inNamespace? m.name) next ∧
      ∀ answer, m.Continues update e answer (next answer) := by
  refine ⟨_, rfl, fun answer => ?_⟩
  cases answer with
  | error cause =>
    cases cause with
    | notFound what => exact .create
    | _ => exact .refused nofun
  | ok live =>
    cases hp : (if update then updatePatch m.object live else none) with
    | none =>
      simp only [hp]
      exact .unchanged fun hu => by rwa [if_pos hu] at hp
    | some patch =>
      simp only [hp]
      obtain ⟨hu, hp⟩ := Option.ite_none_right_eq_some.mp hp
      exact .patch hu hp

end Manifest

end ManifestSync
