namespace ManifestSync

/-- A call that is answered at once, or one that has left the world in a state and goes on from
whatever the world is later. -/
inductive Activity (σ α : Type) where
  | done (answer : α) (world : σ)
  | wait (delay : Nat) (world : σ) (resume : σ → Activity σ α)
  /-- Somebody else has to take the call up first. That takes no time, but it does not come about
  any more once the deadline is there. -/
  | turn (world : σ) (resume : σ → Activity σ α)

/-- What the world becomes by itself from one instant to a later one. -/
abbrev Drift (σ : Type) := Nat → Nat → σ → σ

structure Moment (σ : Type) where
  now : Nat
  world : σ

def Moment.until {σ : Type} (drift : Drift σ) (m : Moment σ) (instant : Nat) : Moment σ :=
  if m.now < instant then ⟨instant, drift m.now instant m.world⟩ else m

namespace Activity

variable {σ τ α β : Type}

def bind (next : α → σ → Activity σ β) : Activity σ α → Activity σ β
  | .done a s => next a s
  | .wait d s resume => .wait d s fun s' => (resume s').bind next
  | .turn s resume => .turn s fun s' => (resume s').bind next

def map (f : α → β) : Activity σ α → Activity σ β
  | .done a s => .done (f a) s
  | .wait d s resume => .wait d s fun s' => (resume s').map f
  | .turn s resume => .turn s fun s' => (resume s').map f

def onPart (get : τ → σ) (put : σ → τ → τ) (whole : τ) : Activity σ α → Activity τ α
  | .done a s => .done a (put s whole)
  | .wait d s resume =>
    .wait d (put s whole) fun whole' => (resume (get whole')).onPart get put whole'
  | .turn s resume =>
    .turn (put s whole) fun whole' => (resume (get whole')).onPart get put whole'

def await (drift : Drift σ) (now : Nat) : Activity σ α → α × Moment σ
  | .done a s => (a, ⟨now, s⟩)
  | .wait d s resume =>
    let m := (Moment.mk now s).until drift (now + d)
    (resume m.world).await drift m.now
  | .turn s resume => (resume s).await drift now

/-- The answer and the moment of it, if no deadline passes first. A call that would be answered at
the very deadline is answered; one that is cut off leaves off at the deadline, or where it was if
the deadline is over. -/
def run (drift : Drift σ) (deadline now : Nat) : Activity σ α → Option α × Moment σ
  | .done a s => (some a, ⟨now, s⟩)
  | .wait d s resume =>
    if now + d ≤ deadline then
      let m := (Moment.mk now s).until drift (now + d)
      (resume m.world).run drift deadline m.now
    else (none, (Moment.mk now s).until drift deadline)
  | .turn s resume =>
    if now < deadline then (resume s).run drift deadline now else (none, ⟨now, s⟩)

end Activity

end ManifestSync
