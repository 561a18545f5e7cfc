import ManifestSync.Proofs.Settings.Grammar

namespace ManifestSync.Settings

section Values

variable {α : Type} {spells : List Char → α → Prop} {meaning? : List Char → Option α}
  {fault : String → SettingsError} {default : α} {text? : Option String}

def Acceptable (spells : List Char → α → Prop) (text? : Option String) : Prop :=
  ∀ text core, text? = some text → Text.Trims text.toList core → core = [] ∨ ∃ a, spells core a

/-- The value of the variable: the default if it is unset or blank, or else what is spelled. -/
def Denotes (spells : List Char → α → Prop) (default : α) (text? : Option String) (a : α) : Prop :=
  ((∀ text, text? = some text → Text.Trims text.toList []) ∧ a = default) ∨
    ∃ text core, text? = some text ∧ Text.Trims text.toList core ∧ spells core a

def trimmed (text? : Option String) : String := String.ofList (Text.trimBlank (text?.getD "").toList)

theorem trims_iff {text : String} {cs : List Char} (h : Text.trimBlank text.toList = cs)
    {core : List Char} : Text.Trims text.toList core ↔ cs = core := by
  rw [← Text.trimBlank_eq_iff, h]

theorem denotes_none {a : α} : Denotes spells default none a ↔ a = default := by
  simp [Denotes]

theorem denotes_some {text : String} {cs : List Char} (h : Text.trimBlank text.toList = cs) {a : α} :
    Denotes spells default (some text) a ↔ (cs = [] ∧ a = default) ∨ spells cs a := by
  simp [Denotes, trims_iff h]

theorem acceptable_none : Acceptable spells none := nofun

theorem acceptable_some {text : String} {cs : List Char} (h : Text.trimBlank text.toList = cs) :
    Acceptable spells (some text) ↔ cs = [] ∨ ∃ a, spells cs a := by
  constructor
  · exact fun ha => ha text cs rfl ((trims_iff h).mpr rfl)
  · rintro hc _ core ⟨⟩ ht
    exact (trims_iff h).mp ht ▸ hc

theorem value_eq_ok (hm : ∀ cs a, meaning? cs = some a ↔ spells cs a) (hn : ∀ a, ¬ spells [] a)
    {a : α} :
    value meaning? fault default text? = .ok a ↔ Denotes spells default text? a := by
  unfold value
  cases text? with
  | none => simp [denotes_none, eq_comm]
  | some text =>
    rw [Option.map_some]
    cases hc : Text.trimBlank text.toList with
    | nil => simp [denotes_some hc, hn, eq_comm]
    | cons c cs =>
      rw [denotes_some hc, ← hm]
      dsimp only
      cases meaning? (c :: cs) <;> simp

theorem value_eq_error (hm : ∀ cs a, meaning? cs = some a ↔ spells cs a) {e : SettingsError} :
    value meaning? fault default text? = .error e ↔
      ¬ Acceptable spells text? ∧ e = fault (trimmed text?) := by
  unfold value
  cases text? with
  | none => simp [acceptable_none]
  | some text =>
    rw [Option.map_some]
    cases hc : Text.trimBlank text.toList with
    | nil => simp [acceptable_some hc]
    | cons c cs =>
      have ht : trimmed (some text) = String.ofList (c :: cs) := congrArg String.ofList hc
      rw [acceptable_some hc, ht]
      simp only [← hm]
      cases meaning? (c :: cs) <;> simp [eq_comm]

end Values

def NotBlank (text? : Option String) : Prop :=
  ∃ text, text? = some text ∧ ∃ c ∈ text.toList, Text.isBlank c = false

theorem not_notBlank_none : ¬ NotBlank none := nofun

theorem notBlank_some {text : String} :
    NotBlank (some text) ↔ (!text.toList.all Text.isBlank) = true := by
  simp [NotBlank]

theorem directoryOf_eq_ok {lookup : Lookup} {directory : String} :
    directoryOf lookup = .ok directory ↔
      lookup "MANIFEST_DIR" = some directory ∧ NotBlank (lookup "MANIFEST_DIR") := by
  unfold directoryOf
  cases lookup "MANIFEST_DIR" with
  | none => simp
  | some text =>
    by_cases h : (!text.toList.all Text.isBlank) = true
    · rw [notBlank_some, and_iff_left h, Option.filter_some, if_pos h]
      simp
    · rw [notBlank_some, Option.filter_some, if_neg h]
      exact iff_of_false nofun fun hd => h hd.2

theorem directoryOf_eq_error {lookup : Lookup} {e : SettingsError} :
    directoryOf lookup = .error e ↔ ¬ NotBlank (lookup "MANIFEST_DIR") ∧ e = .noDirectory := by
  unfold directoryOf
  cases lookup "MANIFEST_DIR" with
  | none => simp [not_notBlank_none, eq_comm]
  | some text =>
    by_cases h : (!text.toList.all Text.isBlank) = true
    · rw [notBlank_some, Option.filter_some, if_pos h]
      exact iff_of_false nofun fun hd => hd.1 h
    · rw [notBlank_some, and_iff_right h, Option.filter_some, if_neg h]
      simp [eq_comm]

/-- A variable that is checked: what is accepted, and the error for what is not, given its trimmed
text. -/
structure Check where
  key : String
  Accepts : Option String → Prop
  fault : String → SettingsError

/-- The checks, in the order in which they are made. The beginning of names is not checked. -/
def checks : List Check :=
  [⟨"MANIFEST_DIR", NotBlank, fun _ => .noDirectory⟩,
    ⟨"APPLY_UPDATE", Acceptable SpellsFlag, .notBoolean "APPLY_UPDATE"⟩,
    ⟨"APPLY_VERBOSE", Acceptable SpellsFlag, .notBoolean "APPLY_VERBOSE"⟩,
    ⟨"APPLY_TIMEOUT_SECS", Acceptable SpellsNumber, .notNumber "APPLY_TIMEOUT_SECS"⟩,
    ⟨"APPLY_RETRY_INTERVAL_MS", Acceptable SpellsNumber, .notNumber "APPLY_RETRY_INTERVAL_MS"⟩]

variable {lookup : Lookup} {c : Check} {cs : List Check} {e : SettingsError}

def Check.Passes (c : Check) (lookup : Lookup) : Prop := c.Accepts (lookup c.key)

/-- The error is that of the first check that is not passed. -/
def FirstFault (lookup : Lookup) (cs : List Check) (e : SettingsError) : Prop :=
  ∃ earlier c later, cs = earlier ++ c :: later ∧ (∀ d ∈ earlier, d.Passes lookup) ∧
    ¬ c.Passes lookup ∧ e = c.fault (trimmed (lookup c.key))

theorem firstFault_nil : ¬ FirstFault lookup [] e := by
  rintro ⟨earlier, c, later, h, -⟩
  simp at h

theorem firstFault_cons : FirstFault lookup (c :: cs) e ↔
    (¬ c.Passes lookup ∧ e = c.fault (trimmed (lookup c.key))) ∨
      (c.Passes lookup ∧ FirstFault lookup cs e) := by
  constructor
  · rintro ⟨earlier, d, later, h, hpass, hfail, he⟩
    cases earlier with
    | nil =>
      obtain ⟨rfl, -⟩ := List.cons.inj h
      exact .inl ⟨hfail, he⟩
    | cons b earlier =>
      obtain ⟨rfl, hcs⟩ := List.cons.inj h
      obtain ⟨hb, hpass⟩ := List.forall_mem_cons.mp hpass
      exact .inr ⟨hb, earlier, d, later, hcs, hpass, hfail, he⟩
  · rintro (⟨hfail, he⟩ | ⟨hc, earlier, d, later, rfl, hpass, hfail, he⟩)
    · exact ⟨[], c, cs, rfl, nofun, hfail, he⟩
    · exact ⟨c :: earlier, d, later, rfl, List.forall_mem_cons.mpr ⟨hc, hpass⟩, hfail, he⟩

theorem exists_firstFault : (∃ e, FirstFault lookup cs e) ↔ ¬ ∀ c ∈ cs, c.Passes lookup := by
  induction cs with
  | nil => simp [firstFault_nil]
  | cons c cs ih =>
    simp only [firstFault_cons, List.forall_mem_cons, exists_or, exists_and_left, exists_eq, ih]
    tauto

def Check.Guards (c : Check) (lookup : Lookup) {α : Type} (step : Except SettingsError α) : Prop :=
  ∀ e, step = .error e ↔ ¬ c.Passes lookup ∧ e = c.fault (trimmed (lookup c.key))

theorem Check.Guards.bind {α β : Type} {step : Except SettingsError α}
    {rest : α → Except SettingsError β} (h : c.Guards lookup step)
    (hr : ∀ a, rest a = .error e ↔ FirstFault lookup cs e) :
    (step >>= rest) = .error e ↔ FirstFault lookup (c :: cs) e := by
  rw [firstFault_cons, ← h e]
  cases hs : step with
  | error e' =>
    have hc : ¬ c.Passes lookup := ((h e').mp hs).1
    show Except.error e' = .error e ↔ _
    simp [hc]
  | ok a =>
    have hc : c.Passes lookup := by
      by_contra hn
      exact nomatch hs.symm.trans ((h _).mpr ⟨hn, rfl⟩)
    show rest a = .error e ↔ _
    simp [hc, hr a]

theorem read_eq_error : read lookup = .error e ↔ FirstFault lookup checks e := by
  have hflag : ∀ key default, Check.Guards ⟨key, Acceptable SpellsFlag, .notBoolean key⟩ lookup
      (boolean lookup key default) := fun _ _ _ => value_eq_error fun _ _ => boolean?_eq_some_iff
  have hnumber : ∀ key default, Check.Guards ⟨key, Acceptable SpellsNumber, .notNumber key⟩ lookup
      (number lookup key default) := fun _ _ _ => value_eq_error fun _ _ => number?_eq_some_iff
  have hdirectory : Check.Guards ⟨"MANIFEST_DIR", NotBlank, fun _ => .noDirectory⟩ lookup
      (directoryOf lookup) := fun _ => directoryOf_eq_error
  refine hdirectory.bind fun _ => (hflag _ _).bind fun _ => (hflag _ _).bind fun _ =>
    (hnumber _ _).bind fun _ => (hnumber _ _).bind fun _ => ?_
  exact iff_of_false nofun firstFault_nil

structure Holds (lookup : Lookup) (s : Settings) : Prop where
  directory : lookup "MANIFEST_DIR" = some s.directory ∧ NotBlank (lookup "MANIFEST_DIR")
  nameStart : ∀ start, s.nameStart? = some start ↔ lookup "MANIFEST_PREFIX" = some start ∧ start ≠ ""
  update : Denotes SpellsFlag false (lookup "APPLY_UPDATE") s.update
  verbose : Denotes SpellsFlag true (lookup "APPLY_VERBOSE") s.verbose
  timeout : Denotes SpellsNumber 300 (lookup "APPLY_TIMEOUT_SECS") s.timeoutSecs
  interval : Denotes SpellsNumber 200 (lookup "APPLY_RETRY_INTERVAL_MS") s.retryIntervalMs

theorem bind_eq_ok {α β ε : Type} {x : Except ε α} {f : α → Except ε β} {b : β} :
    (x >>= f) = .ok b ↔ ∃ a, x = .ok a ∧ f a = .ok b := by
  cases x <;> simp [bind, Except.bind]

theorem read_eq_ok {s : Settings} : read lookup = .ok s ↔ Holds lookup s := by
  have hflag : ∀ key default b, boolean lookup key default = .ok b ↔
      Denotes SpellsFlag default (lookup key) b := fun _ _ _ =>
    value_eq_ok (fun cs b => (boolean?_eq_some_iff : _ ↔ SpellsFlag cs b)) not_spellsFlag_nil
  have hnumber : ∀ key default n, number lookup key default = .ok n ↔
      Denotes SpellsNumber default (lookup key) n := fun _ _ _ =>
    value_eq_ok (fun cs n => (number?_eq_some_iff : _ ↔ SpellsNumber cs n)) not_spellsNumber_nil
  have hstart : ∀ start, (lookup "MANIFEST_PREFIX").filter (· ≠ "") = some start ↔
      lookup "MANIFEST_PREFIX" = some start ∧ start ≠ "" := fun start => by
    rw [Option.filter_eq_some_iff, decide_eq_true_eq]
  unfold read
  simp only [bind_eq_ok, directoryOf_eq_ok, hflag, hnumber]
  constructor
  · rintro ⟨directory, hd, update, hu, verbose, hv, timeout, ht, interval, hi, h⟩
    cases h
    exact ⟨hd, hstart, hu, hv, ht, hi⟩
  · obtain ⟨directory, start?, update, verbose, timeout, interval⟩ := s
    rintro ⟨hd, hs, hu, hv, ht, hi⟩
    have heq : (lookup "MANIFEST_PREFIX").filter (· ≠ "") = start? :=
      Option.ext fun start => (hstart start).trans (hs start).symm
    refine ⟨directory, hd, update, hu, verbose, hv, timeout, ht, interval, hi, ?_⟩
    rw [heq]
    rfl

theorem begins_append (key rest : String) : ("Invalid configuration: " ++ key ++ " ").toList <+:
    ("Invalid configuration: " ++ key ++ (" " ++ rest)).toList := by
  refine ⟨rest.toList, ?_⟩
  rw [← String.append_assoc, ← String.toList_append]

theorem begins_quoted (tail key value : String) : ("Invalid configuration: " ++ key ++ " ").toList <+:
    ("Invalid configuration: " ++ key ++ (" " ++ tail) ++ Text.quoted value).toList := by
  have h : "Invalid configuration: " ++ key ++ (" " ++ tail) ++ Text.quoted value =
      "Invalid configuration: " ++ key ++ (" " ++ (tail ++ Text.quoted value)) := by
    simp only [String.append_assoc]
  exact h ▸ begins_append key _

theorem key_begins_message : ∀ c ∈ checks, ∀ value,
    ("Invalid configuration: " ++ c.key ++ " ").toList <+: (c.fault value).message.toList := by
  simp only [checks, List.forall_mem_cons]
  refine ⟨?_, ?_, ?_, ?_, ?_, nofun⟩
  · exact fun _ => begins_append "MANIFEST_DIR" "environment variable is required"
  · exact begins_quoted "must be a boolean, got " "APPLY_UPDATE"
  · exact begins_quoted "must be a boolean, got " "APPLY_VERBOSE"
  · exact begins_quoted "must be a non-negative integer, got " "APPLY_TIMEOUT_SECS"
  · exact begins_quoted "must be a non-negative integer, got " "APPLY_RETRY_INTERVAL_MS"

/-- Settings are read exactly if all checks are passed, and then each is what its variable denotes.
Otherwise the error is that of the first check that is not passed, and names its variable. -/
theorem read_decided (lookup : Lookup) :
    ((∃ s, read lookup = .ok s) ↔ ∀ c ∈ checks, c.Passes lookup) ∧
    (∀ s, read lookup = .ok s ↔ Holds lookup s) ∧
    (∀ e, read lookup = .error e ↔ FirstFault lookup checks e) ∧
    ∀ c ∈ checks, ∀ value,
      ("Invalid configuration: " ++ c.key ++ " ").toList <+: (c.fault value).message.toList := by
  refine ⟨?_, fun s => read_eq_ok, fun e => read_eq_error, key_begins_message⟩
  rw [← not_iff_not, ← exists_firstFault]
  simp only [← read_eq_error]
  cases read lookup <;> simp

def looseLookup (interval : String) : Lookup := fun key =>
  if key = "MANIFEST_DIR" then some " state "
  else if key = "MANIFEST_PREFIX" then some ""
  else if key = "APPLY_UPDATE" then some " TrUe\n"
  else if key = "APPLY_TIMEOUT_SECS" then some "+0060"
  else if key = "APPLY_RETRY_INTERVAL_MS" then some interval
  else none

theorem read_decided_looseLookup :
    read (looseLookup "\t") = .ok ⟨" state ", none, true, true, 60, 200⟩ ∧
    Holds (looseLookup "\t") ⟨" state ", none, true, true, 60, 200⟩ ∧
    read (looseLookup " -1") = .error (.notNumber "APPLY_RETRY_INTERVAL_MS" "-1") ∧
    FirstFault (looseLookup " -1") checks (.notNumber "APPLY_RETRY_INTERVAL_MS" "-1") := by
  obtain ⟨-, hok, -⟩ := read_decided (looseLookup "\t")
  obtain ⟨-, -, herror, -⟩ := read_decided (looseLookup " -1")
  exact ⟨rfl, (hok _).mp rfl, rfl, (herror _).mp rfl⟩

end ManifestSync.Settings
