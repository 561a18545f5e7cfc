import ManifestSync.Manifest.Load
import ManifestSync.Proofs.Files.Relisting
import Mathlib.Data.List.Permutation

namespace ManifestSync

open Files

section Traversal

variable {α β ε : Type} {f : α → Except ε β} {xs : List α} {ys : List β}

theorem mapM_eq_ok : xs.mapM f = .ok ys ↔ List.Forall₂ (fun x y => f x = .ok y) xs ys := by
  induction xs generalizing ys with
  | nil => simp [pure, Except.pure, eq_comm]
  | cons x xs ih =>
    rw [List.mapM_cons, List.forall₂_cons_left_iff]
    cases hx : f x with
    | error e => simp [bind, Except.bind]
    | ok y =>
      cases hxs : xs.mapM f with
      | error e =>
        simp only [← ih, hxs, bind, Except.bind]
        simp
      | ok rest =>
        simp only [← ih, hxs, bind, Except.bind, pure, Except.pure, Except.ok.injEq]
        constructor
        · rintro rfl
          exact ⟨y, rest, rfl, rfl, rfl⟩
        · rintro ⟨_, _, rfl, rfl, rfl⟩
          rfl

theorem mapM_cons_eq_error {x : α} {e : ε} : (x :: xs).mapM f = .error e ↔
    f x = .error e ∨ (∃ y, f x = .ok y) ∧ xs.mapM f = .error e := by
  rw [List.mapM_cons]
  cases f x with
  | error e' => simp [bind, Except.bind]
  | ok y => cases xs.mapM f <;> simp [bind, Except.bind, pure, Except.pure]

theorem mapM_eq_error {e : ε} : xs.mapM f = .error e ↔ ∃ before x after,
    xs = before ++ x :: after ∧ (∀ a ∈ before, ∃ b, f a = .ok b) ∧ f x = .error e := by
  constructor
  · intro h
    induction xs with
    | nil => cases h
    | cons x xs ih =>
      obtain hx | ⟨hx, hxs⟩ := mapM_cons_eq_error.mp h
      · exact ⟨[], x, xs, rfl, nofun, hx⟩
      · obtain ⟨before, z, after, rfl, hb, hz⟩ := ih hxs
        exact ⟨x :: before, z, after, rfl, List.forall_mem_cons.mpr ⟨hx, hb⟩, hz⟩
  · rintro ⟨before, x, after, rfl, hb, hx⟩
    induction before with
    | nil => exact mapM_cons_eq_error.mpr (.inl hx)
    | cons a before ih =>
      obtain ⟨ha, hb⟩ := List.forall_mem_cons.mp hb
      exact mapM_cons_eq_error.mpr (.inr ⟨ha, ih hb⟩)

theorem exists_mapM_eq_error :
    (∃ e, xs.mapM f = .error e) ↔ ∃ x ∈ xs, ∃ e, f x = .error e := by
  constructor
  · rintro ⟨e, he⟩
    obtain ⟨before, x, after, rfl, _, hx⟩ := mapM_eq_error.mp he
    exact ⟨x, List.mem_append_right _ List.mem_cons_self, e, hx⟩
  · rintro ⟨x, hx, e, he⟩
    obtain ⟨before, after, rfl⟩ := List.append_of_mem hx
    rw [List.mapM_append, List.mapM_cons, he]
    cases before.mapM f with
    | error e' => exact ⟨e', rfl⟩
    | ok ys => exact ⟨e, rfl⟩

end Traversal

namespace Files.Disk

/-- The names lead from a directory, through no link, to a file or to a link from which the path leads
to one. -/
inductive Reaches (d : Disk) (directory : PathText) (top : Node) (names : List Name) (f : Node) :
    Prop where
  | file (h : top.at? names = some f) (hf : f.isFile = true)
  | link {target : PathText} (h : top.at? names = some (.link target))
      (hd : d.find (extend directory names) = .ok f) (hf : f.isFile = true)

variable {d : Disk} {directory : PathText} {top t f : Node} {names : List Name}

theorem Reaches.isFile (h : d.Reaches directory top names f) : f.isFile = true := by
  cases h with
  | file h hf => exact hf
  | link h hd hf => exact hf

theorem isFileAt_iff {path : PathText} :
    d.isFileAt path = true ↔ ∃ f, d.find path = .ok f ∧ f.isFile = true := by
  unfold isFileAt
  cases d.find path <;> simp

theorem counts_iff (h : top.at? names = some t) :
    d.counts directory (names, t) = true ↔ ∃ f, d.Reaches directory top names f := by
  constructor
  · intro hc
    cases t with
    | link target =>
      obtain ⟨f, hd, hf⟩ := isFileAt_iff.mp hc
      exact ⟨f, .link h hd hf⟩
    | _ => exact ⟨_, .file h hc⟩
  · rintro ⟨f, hf⟩
    cases hf with
    | file hat hf =>
      obtain rfl : t = f := Option.some.inj (h.symm.trans hat)
      cases t with
      | link target => cases hf
      | _ => exact hf
    | @link target hat hd hf =>
      obtain rfl : t = .link target := Option.some.inj (h.symm.trans hat)
      exact isFileAt_iff.mpr ⟨f, hd, hf⟩

theorem find_of_reaches (hw : top.WellFormed) (hd : d.find directory = .ok top)
    (h : d.Reaches directory top names f) : d.find (extend directory names) =
      if pathLimit ≤ (extend directory names).length then .error .nameTooLong else .ok f := by
  cases h with
  | file h hf =>
    have hl : f.isLink = false := by
      cases f with
      | link target => cases hf
      | _ => rfl
    exact find_extend hd h (hw.at? h).2 hl
  | link h hfind hf =>
    obtain ⟨_, hlen, _⟩ := find_eq_ok.mp hfind
    rw [if_neg (Nat.not_le.mpr hlen), hfind]

theorem read_of_reaches (hw : top.WellFormed) (hd : d.find directory = .ok top)
    (h : d.Reaches directory top names f) : d.read (extend directory names) =
      if pathLimit ≤ (extend directory names).length then .error .nameTooLong else f.content := by
  rw [read, find_of_reaches hw hd h]
  split <;> rfl

/-- All folders below a directory can be opened: no path to one of them is too long. -/
def Open (directory : PathText) (top : Node) : Prop :=
  ∀ names entries, top.at? names = some (.folder entries) →
    (extend directory names).length < pathLimit

theorem open_of_walk (hw : top.WellFormed)
    (h : ∀ p ∈ top.walk, (extend directory p.1).length < pathLimit) : Open directory top :=
  fun _ _ ht => h _ ((Node.mem_walk hw).mpr ht)

theorem filesBelow_eq_ok (hw : top.WellFormed) (hd : d.find directory = .ok top)
    (ho : Open directory top) : ∃ files, d.filesBelow directory = .ok files ∧
      files.Pairwise (· < ·) ∧ ∀ names, names ∈ files ↔ ∃ f, d.Reaches directory top names f := by
  have hwalk : ∀ names t, (names, t) ∈ top.inOrder ↔ top.at? names = some t :=
    fun names t => Node.mem_inOrder hw
  have hshut : top.inOrder.find? (isShut directory) = none := by
    refine List.find?_eq_none.mpr fun p hp hs => ?_
    obtain ⟨names, t⟩ := p
    obtain ⟨hf, hlen⟩ := Bool.and_eq_true_iff.mp hs
    cases t with
    | folder entries =>
      have hopen := ho names entries ((hwalk _ _).mp hp)
      exact Nat.not_le.mpr hopen (of_decide_eq_true hlen)
    | _ => cases hf
  refine ⟨(top.inOrder.filter (d.counts directory)).map (·.1), ?_, ?_, fun names => ?_⟩
  · rw [filesBelow, hd]
    simp only [Except.mapError, bind, Except.bind, filesAmong, hshut]
  · exact List.pairwise_map.mpr ((Node.ascending_inOrder hw).filter _)
  · simp only [List.mem_map, List.mem_filter]
    constructor
    · rintro ⟨⟨_, t⟩, ⟨hm, hc⟩, rfl⟩
      exact (counts_iff ((hwalk _ _).mp hm)).mp hc
    · rintro ⟨f, hf⟩
      obtain ⟨t, ht⟩ : ∃ t, top.at? names = some t := by
        cases hf with
        | file h => exact ⟨_, h⟩
        | link h => exact ⟨_, h⟩
      exact ⟨(names, t), ⟨(hwalk _ _).mpr ht, (counts_iff ht).mpr ⟨f, hf⟩⟩, rfl⟩

end Files.Disk

inductive Manifest.Loads (decode : Decoder) (directory : PathText) (names : List Name) :
    Node → Except LoadError Manifest → Prop where
  | tooLong {f : Node} (h : pathLimit ≤ (extend directory names).length) :
      Loads decode directory names f (.error (.unreadable (extend directory names) .nameTooLong))
  | denied (h : (extend directory names).length < pathLimit) :
      Loads decode directory names .sealed (.error (.unreadable (extend directory names) .denied))
  | notText {content : List UInt8} {fault : Text.Utf8.Fault}
      (h : (extend directory names).length < pathLimit) (hc : Text.Utf8.decode content = .error fault) :
      Loads decode directory names (.file content) (.error (.notText (extend directory names)))
  | undecodable {content : List UInt8} {text : String}
      (h : (extend directory names).length < pathLimit) (hc : Text.Utf8.decode content = .ok text)
      (ht : decode text = none) :
      Loads decode directory names (.file content) (.error (.undecodable (extend directory names)))
  | incomplete {content : List UInt8} {text : String} {object : Tree} {field : RequiredField}
      (h : (extend directory names).length < pathLimit) (hc : Text.Utf8.decode content = .ok text)
      (ht : decode text = some object)
      (ho : Manifest.ofTree (shown (joined names)) object = .error field) :
      Loads decode directory names (.file content) (.error (.incomplete (shown (joined names)) field))
  | manifest {content : List UInt8} {text : String} {object : Tree} {m : Manifest}
      (h : (extend directory names).length < pathLimit) (hc : Text.Utf8.decode content = .ok text)
      (ht : decode text = some object)
      (ho : Manifest.ofTree (shown (joined names)) object = .ok m) :
      Loads decode directory names (.file content) (.ok m)

section Loading

variable {decode : Decoder} {filters : List (PathText → Bool)} {d : Disk} {directory : PathText}
  {top f : Node} {names : List Name}

namespace Manifest

theorem loads_ofContent {content : List UInt8} (hlen : (extend directory names).length < pathLimit) :
    Loads decode directory names (.file content) (ofContent decode directory names content) := by
  unfold ofContent
  cases hc : Text.Utf8.decode content with
  | error fault => exact .notText hlen hc
  | ok text =>
    cases ht : decode text with
    | none =>
      simp only [ht]
      exact .undecodable hlen hc ht
    | some object =>
      simp only [ht]
      cases ho : ofTree (shown (joined names)) object with
      | error field => exact .incomplete hlen hc ht ho
      | ok m => exact .manifest hlen hc ht ho

theorem loads_iff (hw : top.WellFormed) (hd : d.find directory = .ok top)
    (h : d.Reaches directory top names f) {result : Except LoadError Manifest} :
    Loads decode directory names f result ↔ ofFile decode d directory names = result := by
  rw [ofFile, Disk.read_of_reaches hw hd h]
  constructor
  · intro hl
    cases hl with
    | tooLong hlen => rw [if_pos hlen]
    | denied hlen => rw [if_neg (Nat.not_le.mpr hlen), Node.content]
    | notText hlen hc => simp only [if_neg (Nat.not_le.mpr hlen), Node.content, ofContent, hc]
    | undecodable hlen hc ht =>
      simp only [if_neg (Nat.not_le.mpr hlen), Node.content, ofContent, hc, ht]
    | incomplete hlen hc ht ho =>
      simp only [if_neg (Nat.not_le.mpr hlen), Node.content, ofContent, hc, ht, ho, Except.mapError]
    | manifest hlen hc ht ho =>
      simp only [if_neg (Nat.not_le.mpr hlen), Node.content, ofContent, hc, ht, ho, Except.mapError]
  · rintro rfl
    by_cases hlen : pathLimit ≤ (extend directory names).length
    · rw [if_pos hlen]
      exact .tooLong hlen
    · rw [if_neg hlen]
      cases f with
      | file content => exact loads_ofContent (Nat.lt_of_not_le hlen)
      | sealed => exact .denied (Nat.lt_of_not_le hlen)
      | _ => cases h.isFile

end Manifest

variable (decode filters d directory top)

def Accepted (names : List Name) (f : Node) : Prop :=
  d.Reaches directory top names f ∧ ∀ accept ∈ filters, accept (extend directory names) = true

structure LoadsAll (result : Except LoadError (List Manifest)) : Prop where
  manifests : ∀ ms, result = .ok ms → ∃ files : List (List Name), files.Pairwise (· < ·) ∧
    (∀ names, names ∈ files ↔ ∃ f, Accepted filters d directory top names f) ∧
    List.Forall₂ (fun names m => ∃ f, Accepted filters d directory top names f ∧
      Manifest.Loads decode directory names f (.ok m)) files ms
  fails_iff : (∃ e, result = .error e) ↔ ∃ names f e, Accepted filters d directory top names f ∧
    Manifest.Loads decode directory names f (.error e)
  first : ∀ e, result = .error e → ∃ names f, Accepted filters d directory top names f ∧
    Manifest.Loads decode directory names f (.error e) ∧
    ∀ names' f' e', Accepted filters d directory top names' f' →
      Manifest.Loads decode directory names' f' (.error e') → names ≤ names'

variable {decode filters d directory top}

theorem loadFrom_of_alike {top' : Node} {home : List Name} (h : top.Alike top') (ht : top.WellFormed)
    (ht' : top'.WellFormed) : loadFrom decode filters ⟨top', home⟩ directory =
      loadFrom decode filters ⟨top, home⟩ directory := by
  have hread : Manifest.ofFile decode ⟨top', home⟩ directory =
      Manifest.ofFile decode ⟨top, home⟩ directory := by
    funext names
    unfold Manifest.ofFile
    rw [Disk.read_of_alike h]
  unfold loadFrom
  rw [Disk.filesBelow_of_alike h ht ht', hread]

theorem loadsAll (hw : top.WellFormed) (hd : d.find directory = .ok top)
    (ho : Disk.Open directory top) :
    LoadsAll decode filters d directory top (loadFrom decode filters d directory) := by
  obtain ⟨files, hfiles, hasc, hmem⟩ := Disk.filesBelow_eq_ok hw hd ho
  have hload : loadFrom decode filters d directory =
      (files.filter fun names => filters.all (· (extend directory names))).mapM
        (Manifest.ofFile decode d directory) := by
    rw [loadFrom, hfiles]
    rfl
  generalize hacc : (files.filter fun names => filters.all (· (extend directory names))) =
    accepted at hload
  have hsorted : accepted.Pairwise (· < ·) := hacc ▸ hasc.filter _
  have hin : ∀ names, names ∈ accepted ↔ ∃ f, Accepted filters d directory top names f := by
    intro names
    rw [← hacc, List.mem_filter, hmem, List.all_eq_true]
    exact exists_and_right.symm
  have hof : ∀ {names f result}, Accepted filters d directory top names f →
      (Manifest.Loads decode directory names f result ↔
        Manifest.ofFile decode d directory names = result) :=
    fun h => Manifest.loads_iff hw hd h.1
  rw [hload]
  constructor
  case manifests =>
    intro ms hms
    refine ⟨accepted, hsorted, hin, ?_⟩
    have hall := (List.forall₂_and_left _ _).mpr
      ⟨fun names hn => (hin names).mp hn, mapM_eq_ok.mp hms⟩
    exact hall.imp fun names m ⟨⟨f, hf⟩, hm⟩ => ⟨f, hf, (hof hf).mpr hm⟩
  case fails_iff =>
    rw [exists_mapM_eq_error]
    constructor
    · rintro ⟨names, hn, e, he⟩
      obtain ⟨f, hf⟩ := (hin names).mp hn
      exact ⟨names, f, e, hf, (hof hf).mpr he⟩
    · rintro ⟨names, f, e, hf, he⟩
      exact ⟨names, (hin names).mpr ⟨f, hf⟩, e, (hof hf).mp he⟩
  case first =>
    intro e he
    obtain ⟨before, names, after, hs, hb, hn⟩ := mapM_eq_error.mp he
    obtain ⟨f, hf⟩ := (hin names).mp (hs ▸ List.mem_append_right _ List.mem_cons_self)
    refine ⟨names, f, hf, (hof hf).mpr hn, fun names' f' e' hf' he' => ?_⟩
    have hm' := (hin names').mpr ⟨f', hf'⟩
    rw [hs] at hm' hsorted
    obtain hm' | hm' := List.mem_append.mp hm'
    · obtain ⟨m, hm⟩ := hb names' hm'
      exact nomatch ((hof hf').mp he').symm.trans hm
    · obtain rfl | hm' := List.mem_cons.mp hm'
      · exact List.le_refl names'
      · have hafter := (List.pairwise_append.mp hsorted).2.1
        have hlt : names < names' := (List.pairwise_cons.mp hafter).1 names' hm'
        exact List.not_lt.mp fun hgt => List.lt_irrefl _ (List.lt_trans hlt hgt)

/-- Loading a directory is exact: it yields the manifests of the accepted files in their order, or
fails at the first of them that is no manifest. It does not depend on the order in which the folders
of the disk list their entries. -/
theorem loadFrom_exact (decode : Decoder) (filters : List (PathText → Bool)) {d : Disk}
    {directory : PathText} {entries : List (Name × Node)} (hw : d.top.WellFormed)
    (hd : d.find directory = .ok (.folder entries)) (ho : Disk.Open directory (.folder entries)) :
    LoadsAll decode filters d directory (.folder entries) (loadFrom decode filters d directory) ∧
      ∀ top', d.top.Relisted top' →
        loadFrom decode filters ⟨top', d.home⟩ directory = loadFrom decode filters d directory := by
  refine ⟨loadsAll (Disk.wellFormed_of_find hw hd) hd ho, fun top' hr => ?_⟩
  obtain ⟨hw', hl⟩ := hw.relisted hr
  exact loadFrom_of_alike hl hw hw'

end Loading

def nameDecoder : Decoder := fun text =>
  some (.object [("apiVersion", .text "v1"), ("kind", .text "Namespace"),
    ("metadata", .object [("name", .text text)])])

/-- A folder `a` with a file `z` and a link back to the folder above it, a file `a-b`, a link `m` to a
file elsewhere, a link that leads to itself, and a file `x` that is no text. -/
def linkedEntries : List (Name × Node) :=
  [([0x6D], .link [0x2F, 0x6F, 0x2F, 0x6E]),
    ([0x61, 0x2D, 0x62], .file [0x62]),
    ([0x78], .file [0xFF]),
    ([0x61], .folder [([0x7A], .file [0x7A]), ([0x6C], .link [0x2E, 0x2E])]),
    ([0x75], .link [0x75])]

def linkedDisk : Disk :=
  ⟨.folder [([0x6F], .folder [([0x6E], .file [0x6E])]), ([0x77], .folder linkedEntries)], [[0x77]]⟩

def notX (path : PathText) : Bool := path.getLast? != some 0x78

theorem wellFormed_linkedDisk : linkedDisk.top.WellFormed := by
  have ha : Node.WellFormed (.folder [([0x7A], .file [0x7A]), ([0x6C], .link [0x2E, 0x2E])]) :=
    .folder (by decide) (by decide) (by simp [Node.WellFormed.file, Node.WellFormed.link])
  have hw : Node.WellFormed (.folder linkedEntries) :=
    .folder (by decide) (by decide)
      (by simp [linkedEntries, ha, Node.WellFormed.file, Node.WellFormed.link])
  have ho : Node.WellFormed (.folder [([0x6E], .file [0x6E])]) :=
    .folder (by decide) (by decide) (by simp [Node.WellFormed.file])
  exact .folder (by decide) (by decide) (by simp [hw, ho])

theorem filesBelow_linkedDisk : linkedDisk.filesBelow dot =
    .ok [[[0x61], [0x7A]], [[0x61, 0x2D, 0x62]], [[0x6D]], [[0x78]]] := by cbv

theorem read_linkedDisk :
    linkedDisk.read (extend dot [[0x61], [0x7A]]) = .ok [0x7A] ∧
      linkedDisk.read (extend dot [[0x61, 0x2D, 0x62]]) = .ok [0x62] ∧
      linkedDisk.read (extend dot [[0x6D]]) = .ok [0x6E] ∧
      linkedDisk.read (extend dot [[0x78]]) = .ok [0xFF] :=
  ⟨by cbv, by cbv, by cbv, by cbv⟩

theorem loadFrom_exact_linked :
    linkedDisk.top.WellFormed ∧ linkedDisk.find dot = .ok (.folder linkedEntries) ∧
      Disk.Open dot (.folder linkedEntries) ∧
      LoadsAll nameDecoder [notX] linkedDisk dot (.folder linkedEntries)
        (loadFrom nameDecoder [notX] linkedDisk dot) ∧
      (loadFrom nameDecoder [notX] linkedDisk dot).map (·.map (·.path)) =
        .ok ["a/z", "a-b", "m"] ∧
      loadFrom nameDecoder [notX] ⟨.folder linkedDisk.top.entries.reverse, linkedDisk.home⟩ dot =
        loadFrom nameDecoder [notX] linkedDisk dot := by
  have hd : linkedDisk.find dot = .ok (.folder linkedEntries) := by cbv
  have ho : Disk.Open dot (.folder linkedEntries) :=
    Disk.open_of_walk (Disk.wellFormed_of_find wellFormed_linkedDisk hd) (by decide)
  have hpaths : (loadFrom nameDecoder [notX] linkedDisk dot).map (·.map (·.path)) =
      .ok ["a/z", "a-b", "m"] := by
    have hl : loadFrom nameDecoder [notX] linkedDisk dot =
        [[[0x61], [0x7A]], [[0x61, 0x2D, 0x62]], [[0x6D]]].mapM
          (Manifest.ofFile nameDecoder linkedDisk dot) := by
      rw [loadFrom, filesBelow_linkedDisk]
      rfl
    obtain ⟨hz, hb, hm, _⟩ := read_linkedDisk
    rw [hl]
    simp only [List.mapM_cons, List.mapM_nil, Manifest.ofFile, hz, hb, hm]
    rfl
  obtain ⟨hall, hrelisted⟩ := loadFrom_exact nameDecoder [notX] wellFormed_linkedDisk hd ho
  exact ⟨wellFormed_linkedDisk, hd, ho, hall, hpaths,
    hrelisted _ (.permuted (List.reverse_perm _).symm)⟩

example : loadFrom nameDecoder [] linkedDisk dot = .error (.notText [0x2E, 0x2F, 0x78]) := by
  obtain ⟨hz, hb, hm, hx⟩ := read_linkedDisk
  rw [loadFrom, filesBelow_linkedDisk]
  change [_, _, _, _].mapM (Manifest.ofFile nameDecoder linkedDisk dot) = _
  simp only [List.mapM_cons, List.mapM_nil, Manifest.ofFile, hz, hb, hm, hx]
  rfl

end ManifestSync
