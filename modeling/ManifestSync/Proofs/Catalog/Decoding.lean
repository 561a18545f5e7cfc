import ManifestSync.Catalog.Record
import ManifestSync.Proofs.Tree.Readback
import Mathlib.Data.List.Nodup

namespace ManifestSync

namespace NameMap

variable {α : Type}

theorem place_of_forall_lt {name : String} {value : α} {es : List (String × α)}
    (h : ∀ e ∈ es, e.1 < name) : place name value es = es ++ [(name, value)] := by
  induction es with
  | nil => rfl
  | cons e es ih =>
    obtain ⟨he, hes⟩ := List.forall_mem_cons.mp h
    have hne : e.1 ≠ name := fun heq => String.lt_irrefl name (heq ▸ he)
    have hge : ¬ name < e.1 := fun hlt => String.lt_irrefl name (String.lt_trans hlt he)
    rw [place, if_neg hne, if_neg hge, ih hes, List.cons_append]

theorem entries_foldl_insert (m : NameMap α) (es : List (String × α))
    (h : (m.entries ++ es).Pairwise fun a b => a.1 < b.1) :
    (es.foldl (fun m e => m.insert e.1 e.2) m).entries = m.entries ++ es := by
  induction es generalizing m with
  | nil => exact (List.append_nil _).symm
  | cons e es ih =>
    have hlt : ∀ d ∈ m.entries, d.1 < e.1 := fun d hd =>
      (List.pairwise_append.mp h).2.2 d hd e List.mem_cons_self
    have hm : (m.insert e.1 e.2).entries = m.entries ++ [e] := place_of_forall_lt hlt
    rw [List.foldl_cons, ih, hm, List.append_assoc, List.singleton_append]
    rwa [hm, List.append_assoc, List.singleton_append]

theorem ofList_entries (m : NameMap α) : ofList m.entries = m := by
  have h : (ofList m.entries).entries = m.entries := entries_foldl_insert empty m.entries m.ascending
  cases hm : ofList m.entries
  cases m
  rw [hm] at h
  cases h
  rfl

end NameMap

theorem mapM_eq_some_of_forall₂ {α β : Type} {f : α → Option β} {xs : List α} {ys : List β}
    (h : List.Forall₂ (fun x y => f x = some y) xs ys) : xs.mapM f = some ys := by
  induction h with
  | nil => rfl
  | cons hx _ ih =>
    rw [List.mapM_cons, hx, ih]
    rfl

namespace Draft

def ofMember (m : String × Tree) : String × Draft := (m.1, ofTree m.2)

theorem members?_ofTree (ms : ManifestSync.Members) :
    (ofTree (.object ms)).members? = some (ms.map ofMember) := by
  rw [ofTree, members?, ofMembers_eq_map]
  apply mapM_eq_some_of_forall₂
  rw [List.forall₂_map_left_iff, List.forall₂_map_right_iff, List.forall₂_same]
  exact fun _ _ => rfl

end Draft

namespace Record

/-- An object that has the fields in any order, and among them others that have other names and are
texts. -/
def Loosened (fields : Members) (t : Tree) : Prop :=
  ∃ (others : List (String × String)) (ms : Members), t = .object ms ∧
    (∀ o ∈ others, ∀ f ∈ fields, o.1 ≠ f.1) ∧
    ms.Perm (fields ++ others.map fun o => (o.1, .text o.2))

theorem loosened_self (fields : Members) : Loosened fields (.object fields) :=
  ⟨[], fields, rfl, nofun, by simp⟩

variable {fields : Members} {t : Tree}

theorem Loosened.plain {room : Nat} (h : Loosened fields t) (hf : ∀ f ∈ fields, Tree.Plain room f.2) :
    Tree.Plain (room + 1) t := by
  obtain ⟨others, ms, rfl, -, hperm⟩ := h
  refine .object fun m hm => ?_
  obtain hm | hm := List.mem_append.mp (hperm.mem_iff.mp hm)
  · exact hf m hm
  · obtain ⟨o, -, rfl⟩ := List.mem_map.mp hm
    exact .text room o.2

theorem valuesOf_append (key : String) (ms ns : Draft.Members) :
    Draft.valuesOf key (ms ++ ns) = Draft.valuesOf key ms ++ Draft.valuesOf key ns := by
  simp only [Draft.valuesOf, List.filter_append, List.map_append]

theorem valuesOf_eq_nil {key : String} {ms : Draft.Members} (h : ∀ m ∈ ms, m.1 ≠ key) :
    Draft.valuesOf key ms = [] := by
  have hf : ms.filter (·.1 == key) = [] := List.filter_eq_nil_iff.mpr fun m hm => by simp [h m hm]
  rw [Draft.valuesOf, hf, List.map_nil]

theorem valuesOf_of_nodup {ms : Draft.Members} (hn : (ms.map Prod.fst).Nodup) {m : String × Draft}
    (hm : m ∈ ms) : Draft.valuesOf m.1 ms = [m.2] := by
  obtain ⟨before, after, rfl⟩ := List.append_of_mem hm
  rw [List.map_append, List.map_cons, List.nodup_middle] at hn
  obtain ⟨hm, -⟩ := List.nodup_cons.mp hn
  rw [← List.map_append] at hm
  have hother : ∀ n ∈ before ++ after, n.1 ≠ m.1 := fun n hn he => hm (he ▸ List.mem_map_of_mem hn)
  have hb := valuesOf_eq_nil fun n h => hother n (List.mem_append_left _ h)
  have ha := valuesOf_eq_nil fun n h => hother n (List.mem_append_right _ h)
  rw [valuesOf_append, hb, ← List.singleton_append, valuesOf_append, ha]
  simp [Draft.valuesOf]

theorem only?_eq_some_of_perm {name : String} {d : Draft} {ms ns : Draft.Members} (hp : ms.Perm ns)
    (h : Draft.valuesOf name ns = [d]) : only? ms name = some d := by
  have hv : (Draft.valuesOf name ms).Perm [d] := h ▸ (hp.filter _).map Prod.snd
  rw [only?, List.perm_singleton.mp hv]

theorem fields?_of_loosened (hn : (fields.map Prod.fst).Nodup) (h : Loosened fields t) :
    fields? (fields.map Prod.fst) (.ofTree t) = some (fields.map fun f => .ofTree f.2) := by
  obtain ⟨others, ms, rfl, ho, hperm⟩ := h
  have honly : ∀ f ∈ fields, only? (ms.map Draft.ofMember) f.1 = some (.ofTree f.2) := by
    intro f hf
    have hkeys : ((fields.map Draft.ofMember).map Prod.fst).Nodup := by
      rwa [List.map_map]
    have hfield : Draft.valuesOf f.1 (fields.map Draft.ofMember) = [.ofTree f.2] :=
      valuesOf_of_nodup hkeys (List.mem_map_of_mem hf)
    have hothers : Draft.valuesOf f.1
        ((others.map fun o => (o.1, Tree.text o.2)).map Draft.ofMember) = [] := by
      apply valuesOf_eq_nil
      simp only [List.forall_mem_map]
      exact fun o ho' => ho o ho' f hf
    apply only?_eq_some_of_perm (hperm.map Draft.ofMember)
    rw [List.map_append, valuesOf_append, hfield, hothers, List.append_nil]
  show ((Draft.ofTree (.object ms)).members?).bind _ = _
  rw [Draft.members?_ofTree, Option.bind_some]
  apply mapM_eq_some_of_forall₂
  rwa [List.forall₂_map_left_iff, List.forall₂_map_right_iff, List.forall₂_same]

end Record

def decoded? {α : Type} (ofDraft? : Draft → Option α) (t : Tree) : Option α :=
  (Draft.read? t.written).bind ofDraft?

/-- Every value is decoded from the text of its tree, and from that of each tree that encodes it. -/
structure Survives {α : Type} (toTree : α → Tree) (ofDraft? : Draft → Option α)
    (Encodes : Tree → α → Prop) : Prop where
  itself : ∀ a, decoded? ofDraft? (toTree a) = some a
  encoded : ∀ t a, Encodes t a → decoded? ofDraft? t = some a

section Survival

variable {α : Type} {toTree : α → Tree} {ofDraft? : Draft → Option α}

theorem decoded?_eq {t : Tree} (h : t.Plain Draft.depthLimit) :
    decoded? ofDraft? t = ofDraft? (.ofTree t) := by
  rw [decoded?, Draft.read?_written h, Option.bind_some]

theorem Survives.of_encodes {Encodes : Tree → α → Prop} (hself : ∀ a, Encodes (toTree a) a)
    (hp : ∀ t a, Encodes t a → t.Plain Draft.depthLimit)
    (hd : ∀ t a, Encodes t a → ofDraft? (.ofTree t) = some a) : Survives toTree ofDraft? Encodes := by
  have h : ∀ t a, Encodes t a → decoded? ofDraft? t = some a := fun t a he => by
    rw [decoded?_eq (hp t a he), hd t a he]
  exact ⟨fun a => h _ a (hself a), h⟩

end Survival

namespace Record

variable {α : Type} {toTree : α → Tree} {ofDraft? : Draft → Option α}

def Encodes (toTree : α → Tree) (t : Tree) (a : α) : Prop := Loosened (toTree a).members t

structure Flat (toTree : α → Tree) (ofDraft? : Draft → Option α) : Prop where
  object : ∀ a, toTree a = .object (toTree a).members
  nodup : ∀ a, ((toTree a).members.map Prod.fst).Nodup
  plain : ∀ a, ∀ f ∈ (toTree a).members, ∀ room, f.2.Plain room
  told : ∀ a d, fields? ((toTree a).members.map Prod.fst) d =
    some ((toTree a).members.map fun f => .ofTree f.2) → ofDraft? d = some a

theorem Flat.encodes_toTree (h : Flat toTree ofDraft?) (a : α) : Encodes toTree (toTree a) a := by
  have hs := loosened_self (toTree a).members
  rwa [← h.object] at hs

theorem Flat.plain_of_encodes (h : Flat toTree ofDraft?) {t : Tree} {a : α}
    (he : Encodes toTree t a) (room : Nat) : t.Plain (room + 1) :=
  Loosened.plain he fun f hf => h.plain a f hf room

theorem Flat.ofDraft?_of_encodes (h : Flat toTree ofDraft?) {t : Tree} {a : α}
    (he : Encodes toTree t a) : ofDraft? (.ofTree t) = some a :=
  h.told a _ (fields?_of_loosened (h.nodup a) he)

theorem Flat.survives (h : Flat toTree ofDraft?) : Survives toTree ofDraft? (Encodes toTree) :=
  .of_encodes h.encodes_toTree (fun _ _ he => h.plain_of_encodes he _)
    fun _ _ he => h.ofDraft?_of_encodes he

end Record

open Record

theorem Kind.flat : Flat Kind.toTree Kind.ofDraft? where
  object _ := rfl
  nodup _ := show fieldNames.Nodup by decide
  plain k := by
    simp only [Kind.toTree, Tree.members, List.forall_mem_cons]
    exact ⟨fun _ => .text _ _, fun _ => .text _ _, fun _ => .text _ _, nofun⟩
  told k d h := by
    have hf : fields? fieldNames d = some _ := h
    rw [ofDraft?, hf]
    rfl

theorem Endpoint.flat : Flat Endpoint.toTree Endpoint.ofDraft? where
  object _ := rfl
  nodup _ := show fieldNames.Nodup by decide
  plain e := by
    simp only [Endpoint.toTree, Tree.members, List.forall_mem_cons]
    exact ⟨fun _ => .text _ _, fun _ => .text _ _, fun _ => .text _ _, fun _ => .text _ _,
      fun _ => .text _ _, nofun⟩
  told e d h := by
    have hf : fields? fieldNames d = some _ := h
    obtain ⟨group, version, kind, plural, scope⟩ := e
    rw [ofDraft?, hf]
    cases scope <;> rfl

theorem ServedResource.flat : Flat ServedResource.toTree ServedResource.ofDraft? where
  object _ := rfl
  nodup _ := show fieldNames.Nodup by decide
  plain r := by
    simp only [ServedResource.toTree, Tree.members, List.forall_mem_cons]
    exact ⟨fun _ => .text _ _, fun _ => .text _ _, fun _ => .bool _ _, nofun⟩
  told r d h := by
    have hf : fields? fieldNames d = some _ := h
    rw [ofDraft?, hf]
    rfl

theorem Scope.survives : Survives Scope.toTree Scope.ofDraft? fun t s => t = s.toTree := by
  refine .of_encodes (fun _ => rfl) ?_ ?_
  · rintro _ s rfl
    exact .text _ _
  · rintro _ s rfl
    cases s <;> rfl

namespace ServedGroup

def ListsResources (t : Tree) (rs : List ServedResource) : Prop :=
  ∃ ts, t = .list ts ∧ List.Forall₂ (Record.Encodes ServedResource.toTree) ts rs

def fieldsWith (g : ServedGroup) (vs : Members) : Members :=
  [("name", .text g.name), ("preferred_version", .text g.preferredVersion), ("versions", .object vs)]

/-- The tree has the fields of the group in any order and among others, and so have its resources. -/
def Encodes (t : Tree) (g : ServedGroup) : Prop :=
  ∃ vs : Members,
    List.Forall₂ (fun v e => v.1 = e.1 ∧ ListsResources v.2 e.2) vs g.versions.entries ∧
    Loosened (g.fieldsWith vs) t

theorem listsResources_map (rs : List ServedResource) :
    ListsResources (.list (rs.map ServedResource.toTree)) rs := by
  refine ⟨_, rfl, ?_⟩
  rw [List.forall₂_map_left_iff, List.forall₂_same]
  exact fun r _ => ServedResource.flat.encodes_toTree r

theorem ListsResources.plain {t : Tree} {rs : List ServedResource} (h : ListsResources t rs)
    (room : Nat) : t.Plain (room + 2) := by
  obtain ⟨ts, rfl, hf⟩ := h
  have hp := hf.imp fun t r he => And.intro (ServedResource.flat.plain_of_encodes he room) he
  exact .list ((List.forall₂_and_left ts rs).mp hp).1

theorem ListsResources.listOfDraft? {t : Tree} {rs : List ServedResource} (h : ListsResources t rs) :
    ServedResource.listOfDraft? (.ofTree t) = some rs := by
  obtain ⟨ts, rfl, hf⟩ := h
  rw [Draft.ofTree, ServedResource.listOfDraft?, Draft.ofItems_eq_map]
  apply mapM_eq_some_of_forall₂
  rw [List.forall₂_map_left_iff]
  exact hf.imp fun _ _ he => ServedResource.flat.ofDraft?_of_encodes he

theorem encodes_toTree (g : ServedGroup) : Encodes g.toTree g := by
  refine ⟨g.versions.entries.map versionTree, ?_, loosened_self _⟩
  rw [List.forall₂_map_left_iff, List.forall₂_same]
  exact fun e _ => ⟨rfl, listsResources_map e.2⟩

theorem Encodes.plain {t : Tree} {g : ServedGroup} (h : Encodes t g) (room : Nat) :
    t.Plain (room + 4) := by
  obtain ⟨vs, hvs, ht⟩ := h
  have hp := hvs.imp fun v e he => And.intro (he.2.plain room) he
  have hv : ∀ v ∈ vs, v.2.Plain (room + 2) := ((List.forall₂_and_left vs _).mp hp).1
  refine Loosened.plain ht ?_
  simp only [fieldsWith, List.forall_mem_cons]
  exact ⟨.text _ _, .text _ _, .object hv, nofun⟩

theorem versionsOfDraft?_eq {vs : Members} {versions : NameMap (List ServedResource)}
    (h : List.Forall₂ (fun v e => v.1 = e.1 ∧ ListsResources v.2 e.2) vs versions.entries) :
    versionsOfDraft? (.ofTree (.object vs)) = some versions := by
  have hm : (vs.map Draft.ofMember).mapM (fun m =>
      (ServedResource.listOfDraft? m.2).map fun rs => (m.1, rs)) = some versions.entries := by
    apply mapM_eq_some_of_forall₂
    rw [List.forall₂_map_left_iff]
    refine h.imp fun v e he => ?_
    rw [Draft.ofMember, he.2.listOfDraft?, he.1, Option.map_some]
  rw [versionsOfDraft?, Draft.members?_ofTree]
  show Option.map _ (List.mapM _ _) = _
  rw [hm, Option.map_some, NameMap.ofList_entries]

theorem Encodes.ofDraft? {t : Tree} {g : ServedGroup} (h : Encodes t g) :
    ofDraft? (.ofTree t) = some g := by
  obtain ⟨vs, hvs, ht⟩ := h
  have hnodup : ((g.fieldsWith vs).map Prod.fst).Nodup := show fieldNames.Nodup by decide
  have hf : fields? fieldNames (.ofTree t) = some _ := fields?_of_loosened hnodup ht
  rw [ServedGroup.ofDraft?, hf]
  show (versionsOfDraft? (.ofTree (.object vs))).bind (some ⟨g.name, g.preferredVersion, ·⟩) = some g
  rw [versionsOfDraft?_eq hvs, Option.bind_some]

theorem survives : Survives toTree ServedGroup.ofDraft? Encodes :=
  .of_encodes encodes_toTree (fun _ _ he => he.plain _) fun _ _ he => he.ofDraft?

end ServedGroup

/-- Kinds, scopes, endpoints, resources and groups are decoded from their own texts, and from texts in
which the fields of records are in another order and among others. -/
theorem records_survive :
    Survives Kind.toTree Kind.ofDraft? (Record.Encodes Kind.toTree) ∧
    Survives Scope.toTree Scope.ofDraft? (fun t s => t = s.toTree) ∧
    Survives Endpoint.toTree Endpoint.ofDraft? (Record.Encodes Endpoint.toTree) ∧
    Survives ServedResource.toTree ServedResource.ofDraft? (Record.Encodes ServedResource.toTree) ∧
    Survives ServedGroup.toTree ServedGroup.ofDraft? ServedGroup.Encodes :=
  ⟨Kind.flat.survives, Scope.survives, Endpoint.flat.survives, ServedResource.flat.survives,
    ServedGroup.survives⟩

def deployments : ServedResource := ⟨"deployments", "Deployment", true⟩

def shuffledResource : Tree :=
  .object [("verbs", .text "get"), ("namespaced", .bool true), ("kind", .text "Deployment"),
    ("name", .text "deployments")]

def shuffledGroup : Tree :=
  .object [("a \"note\"", .text "on\ntwo lines"),
    ("versions", .object [("v1", .list [shuffledResource])]), ("preferred_version", .text "v1"),
    ("name", .text "apps")]

theorem records_survive_shuffledGroup :
    ServedGroup.Encodes shuffledGroup (.single "apps" "v1" [deployments]) ∧
    decoded? ServedGroup.ofDraft? shuffledGroup = some (.single "apps" "v1" [deployments]) := by
  have hr : Record.Encodes ServedResource.toTree shuffledResource deployments :=
    ⟨[("verbs", "get")], _, rfl, by decide,
      List.reverse_perm (deployments.toTree.members ++ [("verbs", Tree.text "get")])⟩
  have hg : ServedGroup.Encodes shuffledGroup (.single "apps" "v1" [deployments]) := by
    let versions : Members := [("v1", .list [shuffledResource])]
    let fields := (ServedGroup.single "apps" "v1" [deployments]).fieldsWith versions
    refine ⟨versions, .cons ⟨rfl, _, rfl, .cons hr .nil⟩ .nil, [("a \"note\"", "on\ntwo lines")], _,
      rfl, by decide, ?_⟩
    exact List.reverse_perm (fields ++ [("a \"note\"", Tree.text "on\ntwo lines")])
  obtain ⟨-, -, -, -, h⟩ := records_survive
  exact ⟨hg, h.encoded _ _ hg⟩

end ManifestSync
