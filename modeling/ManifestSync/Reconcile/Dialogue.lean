import ManifestSync.Activity
import ManifestSync.Catalog.Basic
import ManifestSync.Store.Request

namespace ManifestSync

/-- A dialogue that is over, or a request and how to go on from its answer. -/
inductive Dialogue (α : Type) where
  | done (result : α)
  | ask (request : Request) (next : Answer → Dialogue α)

/-- A store, a discovery service and what happens to both while nobody calls them. -/
structure Services (σ : Type) where
  send : Request → σ → Activity σ Answer
  discover : σ → Activity σ (Except StoreError (List ServedGroup))
  drift : Drift σ

structure Exchange where
  request : Request
  sent : Nat
  answer? : Option Answer

/-- A dialogue that was held: its exchanges, its result unless it was cut off, and the moment at
which it left off. -/
structure Conversation (σ α : Type) where
  exchanges : List Exchange
  result? : Option α
  moment : Moment σ

namespace Dialogue

variable {σ α : Type}

def await (services : Services σ) : Dialogue α → Moment σ → α × Moment σ
  | .done result, m => (result, m)
  | .ask request next, m =>
    let (answer, m') := (services.send request m.world).await services.drift m.now
    (next answer).await services m'

def hold (services : Services σ) (deadline : Nat) : Dialogue α → Moment σ → Conversation σ α
  | .done result, m => ⟨[], some result, m⟩
  | .ask request next, m =>
    match (services.send request m.world).run services.drift deadline m.now with
    | (some answer, m') =>
      let rest := (next answer).hold services deadline m'
      { rest with exchanges := ⟨request, m.now, some answer⟩ :: rest.exchanges }
    | (none, m') => ⟨[⟨request, m.now, none⟩], none, m'⟩

end Dialogue

end ManifestSync
