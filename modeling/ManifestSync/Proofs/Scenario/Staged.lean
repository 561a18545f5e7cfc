import ManifestSync.Proofs.Scenario.Still

namespace ManifestSync.Scenario.World

/-- What holds of the world without some of what is due and is kept by every change that is due holds
of what the world becomes. -/
theorem drift_induction {P : World → Prop} {w : World} (before after : Nat)
    (hstart : ∀ later ⊆ w.timeline, P { w with timeline := later })
    (hchange : ∀ w' : World, ∀ c ∈ w.timeline, P w' → P (w'.change c.2)) :
    P (drift before after w) := by
  unfold drift
  simp only [List.partition_eq_filter_filter]
  refine List.foldlRecOn _ _ (hstart _ (fun _ hc => (List.mem_filter.mp hc).1)) fun w' hw c hc => ?_
  exact hchange w' c (List.mem_filter.mp (List.mem_mergeSort.mp hc)).1 hw

def recorded (r : Request) (w : World) : World := { w with memory := w.memory.record r }

/-- From one world to another nothing happens but that requests are recorded and time passes. -/
inductive Idles (w : World) : World → Prop where
  | refl : w.Idles w
  | record {w'} (r : Request) : w.Idles w' → w.Idles (w'.recorded r)
  | wait {w'} (before after : Nat) : w.Idles w' → w.Idles (drift before after w')

variable {w w' w'' : World}

theorem Idles.trans (h : w.Idles w') (h' : w'.Idles w'') : w.Idles w'' := by
  induction h' with
  | refl => exact h
  | record r _ ih => exact .record r ih
  | wait before after _ ih => exact .wait before after ih

theorem Idles.until {m : Moment World} (h : w.Idles m.world) (instant : Nat) :
    w.Idles (m.until drift instant).world := by
  unfold Moment.until
  split
  · exact .wait m.now instant h
  · exact h

inductive Sends (r : Request) (w : World) : Option Answer → World → Prop where
  | answered {w' : World} : w.Idles w' →
      Sends r w (some (w'.memory.settle r).1) { w' with memory := (w'.memory.settle r).2 }
  | cutOff {w' : World} : w.Idles w' → Sends r w none w'

theorem run_send_sends (r : Request) (w : World) (deadline now : Nat) :
    Sends r w ((stagedServices.send r w).run stagedServices.drift deadline now).1
      ((stagedServices.send r w).run stagedServices.drift deadline now).2.world := by
  have hrec : w.Idles (w.recorded r) := .record r .refl
  have hs : stagedServices.drift = drift := rfl
  rw [hs]
  simp only [stagedServices, Memory.send]
  cases (w.memory.record r).delayOf? r with
  | none => exact .answered hrec
  | some delay =>
    by_cases hd : now + delay ≤ deadline
    · simp only [Activity.onPart, Activity.run, hd, ↓reduceIte]
      exact .answered (Idles.until (m := ⟨now, w.recorded r⟩) hrec (now + delay))
    · simp only [Activity.onPart, Activity.run, hd, ↓reduceIte]
      exact .cutOff (Idles.until (m := ⟨now, w.recorded r⟩) hrec deadline)

theorem run_send_prompt {r : Request} (h : w.memory.delayOf? r = none) (deadline now : Nat) :
    (stagedServices.send r w).run stagedServices.drift deadline now =
      (some (w.memory.served r).1, ⟨now, { w with memory := (w.memory.served r).2 }⟩) := by
  have hd : (w.memory.record r).delayOf? r = none := h
  simp only [stagedServices, Memory.send, hd]
  rfl

end ManifestSync.Scenario.World
