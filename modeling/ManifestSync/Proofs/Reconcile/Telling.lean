import ManifestSync.Proofs.Reconcile.Companion
import ManifestSync.Proofs.Reconcile.Setbacks

namespace ManifestSync

namespace Sink

def hear (verbose : Bool) (s : Sink) (reports : List Report) : Sink :=
  reports.foldl (fun s r => s.write verbose r) s

variable (verbose : Bool) (s : Sink)

theorem hear_append (rs rs' : List Report) :
    s.hear verbose (rs ++ rs') = (s.hear verbose rs).hear verbose rs' :=
  List.foldl_append

theorem hear_false (rs : List Report) : s.hear false rs = s := by
  induction rs with
  | nil => rfl
  | cons r rs ih => exact ih

theorem accepts_write (r : Report) : (s.write verbose r).accepts = s.accepts := by
  unfold write
  split
  · rfl
  · rfl

theorem reports_hear (rs : List Report) :
    (s.hear verbose rs).reports = s.reports ++ if verbose && s.accepts then rs else [] := by
  induction rs generalizing s with
  | nil => simp only [hear, List.foldl_nil, ite_self, List.append_nil]
  | cons r rs ih =>
    have hr := ih (s.write verbose r)
    rw [accepts_write, reports_write, List.append_assoc] at hr
    refine hr.trans (congrArg (s.reports ++ ·) ?_)
    split
    · rfl
    · rfl

theorem text_eq : s.text = String.join ((s.reports.map Report.line).map (· ++ "\n")) := by
  rw [List.map_map]
  rfl

end Sink

def Options.speaking (options : Options) (verbose : Bool) : Options := { options with verbose }

def Refresh.report? : Refresh → Option Report
  | .failed e => some (.refreshFailed e)
  | .loaded _ | .cutOff => none

def Round.reports (r : Round) : List Report :=
  (r.refresh?.bind Refresh.report?).toList ++ r.attempts.map Attempt.report

variable {σ : Type}

def Stage.into (s : Stage σ) (sink : Sink) : Stage σ := { s with sink }

def Progress.into (p : Progress σ) (sink : Sink) : Progress σ :=
  { p with stage := p.stage.into sink }

def RunRecord.into (made : RunRecord σ) (sink : Sink) : RunRecord σ :=
  { made with stage := made.stage.into sink }

def RunRecord.reports (made : RunRecord σ) : List Report := made.rounds.flatMap Round.reports

section Speaking

variable (services : Services σ) (options : Options) (resolver : Resolver) (deadline : Nat)
  (verbose : Bool)

theorem Progress.refresh_into (p : Progress σ) (sink : Sink) :
    (p.into sink).refresh services (options.speaking verbose) deadline =
      let (refresh?, q) := p.refresh services options deadline
      (refresh?, q.into (sink.hear verbose (refresh?.bind Refresh.report?).toList)) := by
  cases hn : p.needsReload with
  | false =>
    have hn' : (p.into sink).needsReload = false := hn
    simp only [refresh, hn, hn', Bool.false_eq_true, ↓reduceIte]
    rfl
  | true =>
    have hn' : (p.into sink).needsReload = true := hn
    have hm : (p.into sink).stage.moment = p.stage.moment := rfl
    rcases ha : (services.discover p.stage.moment.world).run services.drift deadline
      p.stage.moment.now with ⟨_ | _ | _, moment⟩
    all_goals
      simp only [refresh, hn, hn', hm, ha, ↓reduceIte, Resolver.refreshed]
      rfl

def Options.speaks : Companion services options services (options.speaking verbose) deadline
    Sink Report where
  stage sink s := s.into sink
  add := Sink.hear verbose
  ofRefresh refresh? := (refresh?.bind Refresh.report?).toList
  ofAttempt a := [a.report]
  retryInterval_eq := rfl
  add_nil _ := rfl
  add_append s := s.hear_append verbose
  now_stage _ _ := rfl
  attempt_stage _ _ _ _ := rfl
  refresh_onto sink p := p.refresh_into services options deadline verbose sink
  pause_onto _ _ := rfl

theorem Options.ofRound_speaks : (options.speaks services deadline verbose).ofRound =
    Round.reports := by
  funext r
  exact congrArg (_ ++ ·) List.map_eq_flatMap.symm

theorem Progress.rounds_into (limit : Nat) (p : Progress σ) (sink : Sink) :
    (p.into sink).rounds services (options.speaking verbose) deadline limit =
      let (rs, finished, q) := p.rounds services options deadline limit
      (rs, finished, q.into (sink.hear verbose (rs.flatMap Round.reports))) := by
  have h := (options.speaks services deadline verbose).rounds_onto sink limit p
  rw [Options.ofRound_speaks] at h
  exact h

theorem run_into (manifests : List Manifest) (stage : Stage σ) (sink : Sink) :
    run services (options.speaking verbose) deadline manifests resolver (stage.into sink) =
      let made := run services options deadline manifests resolver stage
      made.into (sink.hear verbose made.reports) := by
  have h := (options.speaks services deadline verbose).run_onto sink manifests resolver stage
  rw [Options.ofRound_speaks] at h
  exact h

end Speaking

def Outcome.opening : Outcome → String
  | .created => "Created "
  | .patched => "Patched "
  | .unchanged => "Skipped "

def Outcome.remark : Outcome → String
  | .created | .patched => ""
  | .unchanged => " as it already exists"

def Attempt.line (a : Attempt) : String :=
  match a.result with
  | .ok done =>
    let what := Text.quoted a.manifest.path ++ " " ++ a.manifest.target done.endpoint
    done.outcome.opening ++ (what ++ done.outcome.remark)
  | .error e => e.message

def Refresh.line? : Refresh → Option String
  | .failed e => some ("unable to refresh discovery information: " ++ e.message)
  | .loaded _ | .cutOff => none

/-- The lines that tell of a round: one if its refresh was refused, and one for each attempt. -/
def Round.lines (r : Round) : List String :=
  (r.refresh?.bind Refresh.line?).toList ++ r.attempts.map Attempt.line

def RunRecord.lines (made : RunRecord σ) : List String := made.rounds.flatMap Round.lines

theorem Report.line_applied (outcome : Outcome) (path target : String) :
    (applied outcome path target).line =
      outcome.opening ++ (Text.quoted path ++ " " ++ target ++ outcome.remark) := by
  cases outcome with
  | created | patched =>
    rw [Outcome.remark, String.append_empty, String.append_assoc, ← String.append_assoc,
      ← String.append_assoc]
    rfl
  | unchanged =>
    rw [← String.append_assoc, ← String.append_assoc, ← String.append_assoc]
    rfl

theorem Attempt.line_report (a : Attempt) : a.report.line = a.line := by
  unfold report line
  cases a.result with
  | ok done => exact Report.line_applied ..
  | error e => rfl

theorem Refresh.line_report? (refresh : Refresh) :
    refresh.report?.map Report.line = refresh.line? := by
  cases refresh with
  | loaded | failed | cutOff => rfl

theorem Round.lines_reports (r : Round) : r.reports.map Report.line = r.lines := by
  have ha : Report.line ∘ Attempt.report = Attempt.line := funext Attempt.line_report
  have hr : (r.refresh?.bind Refresh.report?).map Report.line = r.refresh?.bind Refresh.line? := by
    rw [Option.map_bind]
    exact congrArg r.refresh?.bind (funext Refresh.line_report?)
  rw [reports, lines, List.map_append, List.map_map, ha, ← hr, Option.toList_map]

theorem RunRecord.lines_reports (made : RunRecord σ) :
    made.reports.map Report.line = made.lines := by
  rw [reports, lines, List.map_flatMap]
  exact congrArg made.rounds.flatMap (funext Round.lines_reports)

def Outcome.begins (outcome : Outcome) (line : String) : Bool :=
  outcome.opening.toList.isPrefixOf line.toList

theorem Outcome.begins_opening (outcome done : Outcome) :
    outcome.begins done.opening = decide (done = outcome) := by
  cases outcome <;> cases done <;> decide

theorem Outcome.begins_append (outcome : Outcome) {head : String} (rest : String)
    (h : 8 ≤ head.toList.length) : outcome.begins (head ++ rest) = outcome.begins head := by
  have hl : outcome.opening.toList.length = 8 := by cases outcome <;> decide
  rw [Bool.eq_iff_iff, begins, begins, List.isPrefixOf_iff_prefix, List.isPrefixOf_iff_prefix,
    String.toList_append]
  refine ⟨fun hp => ?_, fun hp => hp.trans (List.prefix_append _ _)⟩
  exact List.prefix_of_prefix_length_le hp (List.prefix_append _ _) (hl ▸ h)

theorem ApplyError.not_begins (e : ApplyError) (outcome : Outcome) :
    outcome.begins e.message = false := by
  cases e with
  | typeNotResolved path cause =>
    show outcome.begins ("unable to get REST mapping for " ++ _ ++ ": " ++ _) = false
    rw [String.append_assoc, String.append_assoc, outcome.begins_append _ (by decide)]
    cases outcome <;> decide
  | requestFailed verb target cause =>
    show outcome.begins ("failed to " ++ _ ++ " " ++ _ ++ ": " ++ _) = false
    simp only [String.append_assoc]
    rw [outcome.begins_append _ (by decide)]
    cases outcome <;> decide
  | deadlineExceeded path =>
    show outcome.begins ("deadline exceeded while applying " ++ _) = false
    rw [outcome.begins_append _ (by decide)]
    cases outcome <;> decide

theorem Refresh.not_begins (refresh : Refresh) (outcome : Outcome) {line : String}
    (h : refresh.line? = some line) : outcome.begins line = false := by
  cases refresh with
  | loaded | cutOff => cases h
  | failed e =>
    cases h
    rw [outcome.begins_append _ (by decide)]
    cases outcome <;> decide

theorem Attempt.begins_line (a : Attempt) (outcome : Outcome) :
    outcome.begins a.line = decide (a.outcome? = some outcome) := by
  cases hr : a.result with
  | ok done =>
    have hl : 8 ≤ done.outcome.opening.toList.length := by cases done.outcome <;> decide
    rw [line, hr, outcome?_of_ok hr]
    dsimp only
    rw [outcome.begins_append _ hl, outcome.begins_opening]
    simp only [Option.some.injEq]
  | error e =>
    rw [line, hr, outcome?_of_error hr]
    exact e.not_begins outcome

theorem Round.countP_lines (r : Round) (outcome : Outcome) :
    r.lines.countP outcome.begins = r.attempts.countP (·.outcome? = some outcome) := by
  have hrefresh : (r.refresh?.bind Refresh.line?).toList.countP outcome.begins = 0 := by
    rw [List.countP_eq_zero]
    intro line hl
    obtain ⟨refresh, -, hl⟩ := Option.bind_eq_some_iff.mp (Option.mem_toList.mp hl)
    exact Bool.not_eq_true _ ▸ refresh.not_begins outcome hl
  rw [lines, List.countP_append, hrefresh, Nat.zero_add, List.countP_map]
  exact congrArg (List.countP · r.attempts) (funext fun a => a.begins_line outcome)

theorem RunRecord.countP_lines (made : RunRecord σ) (outcome : Outcome) :
    made.lines.countP outcome.begins = made.attempts.countP (·.outcome? = some outcome) := by
  rw [lines, attempts, List.countP_flatMap, List.countP_flatMap]
  exact congrArg (List.sum <| made.rounds.map ·) (funext fun r => r.countP_lines outcome)

structure Told (before : Sink) (made : RunRecord σ) : Prop where
  /-- Every report is written once, in order, also to a sink that loses it. -/
  sink_eq : made.stage.sink = before.hear true made.reports
  lines_eq : before.accepts = true →
    made.stage.sink.reports.map Report.line = before.reports.map Report.line ++ made.lines
  text_eq : before.accepts = true →
    made.stage.sink.text = before.text ++ String.join (made.lines.map (· ++ "\n"))
  number_eq : ∀ summary, made.result = .ok summary →
    ∀ outcome, made.lines.countP outcome.begins = summary.number outcome

theorem RunRecord.told {before : Sink} {made : RunRecord σ}
    (hs : made.stage.sink = before.hear true made.reports)
    (hn : ∀ summary, made.result = .ok summary → ∀ outcome,
      summary.number outcome = made.attempts.countP (·.outcome? = some outcome)) :
    Told before made := by
  have hlines : before.accepts = true →
      made.stage.sink.reports.map Report.line = before.reports.map Report.line ++ made.lines := by
    intro ha
    rw [hs, before.reports_hear, ha, List.map_append]
    exact congrArg (_ ++ ·) made.lines_reports
  constructor
  case sink_eq => exact hs
  case lines_eq => exact hlines
  case text_eq =>
    intro ha
    rw [Sink.text_eq, hlines ha, List.map_append, String.join_append, ← Sink.text_eq]
  case number_eq =>
    intro summary hr outcome
    exact (made.countP_lines outcome).trans (hn summary hr outcome).symm

/-- Whoever asks to be told, and with which sink, changes nothing but what the sink is told. -/
theorem told_of_into (made : Bool → Sink → RunRecord σ)
    (hinto : ∀ verbose verbose' sink sink', made verbose' sink' =
      (made verbose sink).into (sink'.hear verbose' (made verbose sink).reports))
    (hn : ∀ sink summary, (made true sink).result = .ok summary → ∀ outcome,
      summary.number outcome = (made true sink).attempts.countP (·.outcome? = some outcome))
    (before other : Sink) :
    Told before (made true before) ∧ made false other = (made true before).into other := by
  constructor
  · refine RunRecord.told ?_ (hn before)
    exact congrArg (·.stage.sink) (hinto true true before before)
  · have hquiet := hinto true false before other
    rwa [Sink.hear_false] at hquiet

variable (services : Services σ) (options : Options) (deadline : Nat) (manifests : List Manifest)
  (resolver : Resolver)

theorem runBeyond_into (stage : Stage σ) (more : Nat) (verbose : Bool) (sink : Sink) :
    runBeyond services (options.speaking verbose) deadline manifests resolver (stage.into sink)
        more =
      let made := runBeyond services options deadline manifests resolver stage more
      made.into (sink.hear verbose made.reports) := by
  have h := Progress.rounds_into services options deadline verbose
    (roundLimit options.retryInterval (deadline - stage.moment.now) + more)
    (.start manifests resolver stage) sink
  exact congrArg (fun made => RunRecord.ofRounds made.1 made.2.1 made.2.2) h

theorem number_of_runBeyond (stage : Stage σ) (more : Nat) {summary : RunSummary} :
    let made := runBeyond services options deadline manifests resolver stage more
    made.result = .ok summary → ∀ outcome,
      summary.number outcome = made.attempts.countP (·.outcome? = some outcome) := by
  intro made hr outcome
  obtain ⟨h, -⟩ := Progress.rounds_runs_beyond services options deadline
    (.start manifests resolver stage) more
  exact h.number_of_result hr outcome

/-- Whatever happens in a run, a sink is told all of it if that is wished. Where it is not, the sink
is told nothing and the run is the same. The same holds of rounds beyond the limit of a run. -/
theorem run_told (moment : Moment σ) (before other : Sink) :
    let made verbose sink :=
      run services (options.speaking verbose) deadline manifests resolver ⟨moment, sink⟩
    let beyond more verbose sink := runBeyond services (options.speaking verbose) deadline
      manifests resolver ⟨moment, sink⟩ more
    (Told before (made true before) ∧ made false other = (made true before).into other) ∧
    ∀ more, Told before (beyond more true before) ∧
      beyond more false other = (beyond more true before).into other := by
  intro made beyond
  constructor
  · refine told_of_into made ?_ ?_ before other
    · intro verbose verbose' sink sink'
      exact run_into services (options.speaking verbose) resolver deadline verbose' manifests
        ⟨moment, sink⟩ sink'
    · intro sink summary hr
      exact ((run_ran ..).tally hr).1
  · intro more
    refine told_of_into (beyond more) ?_ ?_ before other
    · intro verbose verbose' sink sink'
      exact runBeyond_into services (options.speaking verbose) deadline manifests resolver
        ⟨moment, sink⟩ more verbose' sink'
    · intro sink summary hr
      exact number_of_runBeyond services (options.speaking true) deadline manifests resolver
        ⟨moment, sink⟩ more hr

example : (run Scenario.World.stagedServices ⟨false, true, [], 5⟩ 17 [stateManifest .null]
    .unloaded ⟨⟨2, .still .empty lateFeed⟩, ⟨true, []⟩⟩).stage.sink.reports =
      [.failed (.typeNotResolved "ca.yaml" ⟨"", "v1", "ConfigMap"⟩),
        .applied .created "ca.yaml" "configmaps.v1/ca -n apps"] := by
  decide +kernel

end ManifestSync
