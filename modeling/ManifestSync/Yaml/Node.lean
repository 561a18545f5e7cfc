import ManifestSync.Yaml.Token

namespace ManifestSync.Yaml

structure Properties (α : Type) where
  anchor? : Option α
  tag? : Option TagText
  deriving DecidableEq, Repr

inductive Node (α : Type) where
  | alias (target : α)
  | scalar (properties : Properties α) (text : String) (plain : Bool)
  | sequence (properties : Properties α) (items : List (Node α))
  | mapping (properties : Properties α) (pairs : List (Node α × Node α))

abbrev Raw := Node (List Char)

namespace Node

def bare {α : Type} : Properties α := ⟨none, none⟩

def empty : Node (List Char) := .scalar bare "" true

abbrev Handles := List (List Char × TagText)

def standardHandles : Handles :=
  [(['!'], [bang]), (['!', '!'], octetsOf ("tag:yaml.org,2002:".toList))]

def tagOf? (handles : Handles) (handle : List Char) (suffix : TagText) : Option TagText :=
  if handle.isEmpty then some suffix else (handles.lookup handle).map (· ++ suffix)

def properties? (handles : Handles) : List Token → Option (Properties (List Char) × List Token)
  | .anchor name :: .tag handle suffix :: r =>
    (tagOf? handles handle suffix).map fun tag => (⟨some name, some tag⟩, r)
  | .tag handle suffix :: .anchor name :: r =>
    (tagOf? handles handle suffix).map fun tag => (⟨some name, some tag⟩, r)
  | .anchor name :: r => some (⟨some name, none⟩, r)
  | .tag handle suffix :: r => (tagOf? handles handle suffix).map fun tag => (⟨none, some tag⟩, r)
  | ts => some (bare, ts)

def begins (ts : List Token) (among : List Token) : Bool :=
  match ts with
  | t :: _ => among.contains t
  | [] => false

def omitted? (props : Properties (List Char)) (r : List Token) : Option (Raw × List Token) :=
  if props.anchor?.isSome || props.tag?.isSome then some (.scalar props "" true, r) else none

mutual

/-- A node, what is left out being an empty plain scalar. Blocks may be allowed or not, and so may
sequences that are not indented. -/
def node? (handles : Handles) :
    (fuel : Nat) → (block level : Bool) → List Token → Option (Raw × List Token)
  | 0, _, _, _ => none
  | _ + 1, _, _, .alias name :: r => some (.alias name, r)
  | fuel + 1, block, level, ts => do
    let (props, r) ← properties? handles ts
    match r with
    | .blockEntry :: _ =>
      if level then (levelItems? handles fuel r).map fun (items, r) => (.sequence props items, r)
      else omitted? props r
    | .scalar text plain :: r => some (.scalar props text plain, r)
    | .flowSequence :: r =>
      (flowItems? handles fuel true r).map fun (items, r) => (.sequence props items, r)
    | .flowMapping :: r =>
      (flowPairs? handles fuel true r).map fun (pairs, r) => (.mapping props pairs, r)
    | .blockSequence :: s =>
      if block then (blockItems? handles fuel s).map fun (items, r) => (.sequence props items, r)
      else omitted? props r
    | .blockMapping :: s =>
      if block then (blockPairs? handles fuel s).map fun (pairs, r) => (.mapping props pairs, r)
      else omitted? props r
    | r => omitted? props r

def nodeOr? (handles : Handles) :
    (fuel : Nat) → (block level : Bool) → (stops : List Token) → List Token →
      Option (Raw × List Token)
  | 0, _, _, _, _ => none
  | fuel + 1, block, level, stops, ts =>
    if begins ts stops then some (empty, ts) else node? handles fuel block level ts

def blockItems? (handles : Handles) : (fuel : Nat) → List Token → Option (List Raw × List Token)
  | 0, _ => none
  | fuel + 1, .blockEntry :: r => do
    let (item, r) ← nodeOr? handles fuel true false [.blockEntry, .blockEnd] r
    let (items, r) ← blockItems? handles fuel r
    some (item :: items, r)
  | _ + 1, .blockEnd :: r => some ([], r)
  | _ + 1, _ => none

/-- Items on the level of the key that they belong to; they end where no item follows. -/
def levelItems? (handles : Handles) : (fuel : Nat) → List Token → Option (List Raw × List Token)
  | 0, _ => none
  | fuel + 1, .blockEntry :: r => do
    let (item, r) ← nodeOr? handles fuel true false [.blockEntry, .key, .value, .blockEnd] r
    let (items, r) ← levelItems? handles fuel r
    some (item :: items, r)
  | _ + 1, ts => some ([], ts)

def blockPairs? (handles : Handles) :
    (fuel : Nat) → List Token → Option (List (Raw × Raw) × List Token)
  | 0, _ => none
  | fuel + 1, .key :: r => do
    let (key, r) ← nodeOr? handles fuel true true [.key, .value, .blockEnd] r
    let (value, r) ← match r with
      | .value :: r => nodeOr? handles fuel true true [.key, .value, .blockEnd] r
      | r => some (empty, r)
    let (pairs, r) ← blockPairs? handles fuel r
    some ((key, value) :: pairs, r)
  | _ + 1, .blockEnd :: r => some ([], r)
  | _ + 1, _ => none

/-- The items of a flow, up to its end. A key among them makes a mapping of one pair. -/
def flowItems? (handles : Handles) :
    (fuel : Nat) → (first : Bool) → List Token → Option (List Raw × List Token)
  | 0, _, _ => none
  | _ + 1, _, .flowSequenceEnd :: r => some ([], r)
  | fuel + 1, first, ts => do
    let r ← match first, ts with
      | true, ts => some ts
      | false, .flowEntry :: r => some r
      | false, _ => none
    match r with
    | .flowSequenceEnd :: r => some ([], r)
    | .key :: r => do
      let (pair, r) ← flowPair? handles fuel r
      let (items, r) ← flowItems? handles fuel false r
      some (.mapping bare [pair] :: items, r)
    | r => do
      let (item, r) ← node? handles fuel false false r
      let (items, r) ← flowItems? handles fuel false r
      some (item :: items, r)

/-- The pair after a key's mark in a sequence. Where the key is left out, a token is passed over. -/
def flowPair? (handles : Handles) : (fuel : Nat) → List Token → Option ((Raw × Raw) × List Token)
  | 0, _ => none
  | fuel + 1, ts => do
    let (key, r) ←
      if begins ts [.value, .flowEntry, .flowSequenceEnd] then some (empty, ts.drop 1)
      else node? handles fuel false false ts
    let (value, r) ← match r with
      | .value :: r => nodeOr? handles fuel false false [.flowEntry, .flowSequenceEnd] r
      | r => some (empty, r)
    some ((key, value), r)

def flowPairs? (handles : Handles) :
    (fuel : Nat) → (first : Bool) → List Token → Option (List (Raw × Raw) × List Token)
  | 0, _, _ => none
  | _ + 1, _, .flowMappingEnd :: r => some ([], r)
  | fuel + 1, first, ts => do
    let r ← match first, ts with
      | true, ts => some ts
      | false, .flowEntry :: r => some r
      | false, _ => none
    match r with
    | .flowMappingEnd :: r => some ([], r)
    | .key :: r => do
      let (key, r) ← nodeOr? handles fuel false false [.value, .flowEntry, .flowMappingEnd] r
      let (value, r) ← match r with
        | .value :: r => nodeOr? handles fuel false false [.flowEntry, .flowMappingEnd] r
        | r => some (empty, r)
      let (pairs, r) ← flowPairs? handles fuel false r
      some ((key, value) :: pairs, r)
    | r => do
      let (key, r) ← node? handles fuel false false r
      let (pairs, r) ← flowPairs? handles fuel false r
      some ((key, empty) :: pairs, r)

end

/-- The directives before a document: one version at most, and each handle once. -/
def directives? : (version : Bool) → Handles → List Token → Option (Handles × List Token)
  | version, handles, .version major minor :: r =>
    if version || major ≠ 1 || (minor ≠ 1 && minor ≠ 2) then none else directives? true handles r
  | version, handles, .tagHandle handle expansion :: r =>
    if (handles.lookup handle).isSome then none
    else directives? version (handles ++ [(handle, expansion)]) r
  | _, handles, ts => some (handles ++ standardHandles, ts)

def document? (ts : List Token) : Option (Option Raw) :=
  let fuel := 4 * ts.length + 4
  let isOver (ts : List Token) : Bool := ts.all (· == .documentEnd)
  match ts with
  | [] => some none
  | _ => do
    let (handles, r) ← directives? false [] ts
    let explicit := begins r [.documentStart]
    let isDirected := r.length ≠ ts.length
    if isDirected && !explicit then none
    else
      let r := if explicit then r.drop 1 else r
      let (root, r) ←
        if explicit && (r.isEmpty || begins r [.documentStart, .documentEnd]) then some (empty, r)
        else node? handles fuel true false r
      if isOver r then some (some root) else none

end Node

end ManifestSync.Yaml
