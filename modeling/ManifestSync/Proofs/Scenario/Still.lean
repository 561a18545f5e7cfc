import ManifestSync.Scenario.World

namespace ManifestSync

theorem Moment.until_of_fixed {σ : Type} {drift : Drift σ} {m : Moment σ}
    (h : ∀ before after, drift before after m.world = m.world) (instant : Nat) :
    m.until drift instant = ⟨max m.now instant, m.world⟩ := by
  unfold Moment.until
  split
  · next hn => rw [h, Nat.max_eq_right (Nat.le_of_lt hn)]
  · next hn => rw [Nat.max_eq_left (Nat.le_of_not_lt hn)]

def Memory.served (r : Request) (m : Memory) : Answer × Memory := (m.record r).settle r

namespace Scenario.World

def still (memory : Memory) (feed : Feed) : World := ⟨memory, feed, .empty, []⟩

theorem drift_still (before after : Nat) (memory : Memory) (feed : Feed) :
    drift before after (still memory feed) = still memory feed := by
  simp [drift, still]

theorem until_still (now instant : Nat) (memory : Memory) (feed : Feed) :
    (Moment.mk now (still memory feed)).until drift instant =
      ⟨max now instant, still memory feed⟩ :=
  Moment.until_of_fixed (drift_still · · memory feed) instant

theorem send_still (r : Request) (memory : Memory) (feed : Feed) :
    stagedServices.send r (still memory feed) =
      match memory.delayOf? r with
      | none => .done (memory.served r).1 (still (memory.served r).2 feed)
      | some delay => .wait delay (still (memory.record r) feed) fun w =>
        .done (w.memory.settle r).1 { w with memory := (w.memory.settle r).2 } := by
  have hd : (memory.record r).delayOf? r = memory.delayOf? r := rfl
  simp only [stagedServices, Memory.send, still, hd]
  cases memory.delayOf? r <;> rfl

theorem await_send_still (r : Request) (memory : Memory) (feed : Feed) (now : Nat) :
    (stagedServices.send r (still memory feed)).await stagedServices.drift now =
      ((memory.served r).1,
        ⟨now + (memory.delayOf? r).getD 0, still (memory.served r).2 feed⟩) := by
  have hs : stagedServices.drift = drift := rfl
  rw [send_still, hs]
  cases memory.delayOf? r with
  | none => rfl
  | some delay =>
    simp only [Activity.await, until_still, Nat.max_eq_right (Nat.le_add_right now delay)]
    rfl

theorem discover_still (memory : Memory) (feed : Feed) :
    stagedServices.discover (still memory feed) = .done feed.serve.1 (still memory feed.serve.2) :=
  rfl

end Scenario.World

end ManifestSync
