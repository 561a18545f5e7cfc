import ManifestSync.Proofs.Reconcile.Preservation
import ManifestSync.Proofs.Store.Answers

namespace ManifestSync.Scenario

def Change.clearsLog : Change → Bool
  | .clearActions => true
  | _ => false

namespace World

def Unerased (w : World) : Prop := ∀ c ∈ w.timeline, c.2.clearsLog = false

/-- The later world's log is that of the earlier one and then the actions, of which nothing is lost
unless the log is cleared meanwhile. -/
def Logs (actions : List Action) (before after : World) : Prop :=
  after.memory.actions <:+ before.memory.actions ++ actions ∧
    (before.Unerased → after.Unerased ∧
      after.memory.actions = before.memory.actions ++ actions)

variable {w w' w'' : World} {as bs : List Action}

theorem logs_of_log (ht : w'.timeline = w.timeline) (hl : w'.memory.log = w.memory.log) :
    w.Logs [] w' := by
  have ha : w'.memory.actions = w.memory.actions ++ [] := by
    rw [Memory.actions, hl, List.append_nil, Memory.actions]
  exact ⟨ha ▸ List.suffix_rfl, fun hu => ⟨by rwa [Unerased, ht], ha⟩⟩

theorem Logs.append (h : w.Logs as w') (h' : w'.Logs bs w'') : w.Logs (as ++ bs) w'' := by
  obtain ⟨hs, he⟩ := h
  obtain ⟨hs', he'⟩ := h'
  constructor
  · rw [← List.append_assoc]
    obtain ⟨lost, hlost⟩ := hs
    rw [← hlost, List.append_assoc]
    exact hs'.trans (List.suffix_append _ _)
  · intro hu
    obtain ⟨hu', ha⟩ := he hu
    obtain ⟨hu'', ha'⟩ := he' hu'
    exact ⟨hu'', by rw [ha', ha, List.append_assoc]⟩

theorem change_log {c : Change} (h : c.clearsLog = false) (w : World) :
    (w.change c).memory.log = w.memory.log := by
  cases c with
  | clearActions => cases h
  | _ => rfl

theorem logs_change (c : Change) (w : World) : (w.change c).memory.actions <:+ w.memory.actions := by
  cases c with
  | clearActions => exact List.nil_suffix
  | _ => exact List.suffix_rfl

theorem logs_drift (before after : Nat) (w : World) : w.Logs [] (drift before after w) := by
  rw [Logs, List.append_nil]
  constructor
  · exact drift_induction (P := fun w' => w'.memory.actions <:+ w.memory.actions) before after
      (fun _ _ => List.suffix_rfl) fun w' c _ hs => (logs_change c.2 w').trans hs
  · intro hu
    refine drift_induction
      (P := fun w' => w'.Unerased ∧ w'.memory.actions = w.memory.actions) before after
      (fun later hl => ⟨fun c hc => hu c (hl hc), rfl⟩) ?_
    rintro w' c hc ⟨hu', ha⟩
    rw [Unerased, change_timeline, Memory.actions, change_log (hu c hc)]
    exact ⟨hu', ha⟩

theorem log_settle (r : Request) (m : Memory) : (m.settle r).2.log = m.log := by
  obtain ⟨f, hf⟩ | hp := Memory.settle_cases r m
  · rw [hf]
  · rw [hp, Memory.perform_eq]
    cases (r.effect (m.object? r.key)).2 <;> rfl

/-- No request is part of this: what is left to do once one was recorded adds nothing. -/
theorem staged_logs : stagedServices.Within (fun _ => False) (Logs []) where
  refl _ := logs_of_log rfl rfl
  trans h h' := h.append h'
  drift := logs_drift
  discover _ := logs_of_log rfl rfl
  send _ _ hr := hr.elim

theorem logs_recorded (r : Request) (w : World) : w.Logs [.ofRequest r] (w.recorded r) := by
  have ha : (w.recorded r).memory.actions = w.memory.actions ++ [.ofRequest r] :=
    Memory.actions_record r w.memory
  exact ⟨ha ▸ List.suffix_rfl, fun hu => ⟨hu, ha⟩⟩

theorem run_send_logs (r : Request) (w : World) (deadline now : Nat) :
    w.Logs [.ofRequest r]
      ((stagedServices.send r w).run stagedServices.drift deadline now).2.world := by
  have hsettle : ∀ w : World, w.Logs [] { w with memory := (w.memory.settle r).2 } := fun w =>
    logs_of_log rfl (log_settle r w.memory)
  have hsend : (stagedServices.send r w).Within (Logs []) (w.recorded r) := by
    simp only [stagedServices, Memory.send]
    cases (w.memory.record r).delayOf? r with
    | none => exact hsettle (w.recorded r)
    | some delay => exact ⟨logs_of_log rfl rfl, hsettle⟩
  exact (logs_recorded r w).append (staged_logs.run hsend deadline now)

end World

end ManifestSync.Scenario
