import ManifestSync.Table
import ManifestSync.Text.Utf8
import ManifestSync.Yaml.Lexer
import ManifestSync.Yaml.Node
import ManifestSync.Yaml.Plain

namespace ManifestSync.Yaml

abbrev Linked := Node Nat

/-- The number of each name. A name that is used again gets a new number, which is how many names
there were by then. -/
abbrev Names := Table (List Char) Nat

def Names.define (names : Names) : Option (List Char) → Option Nat × Names
  | some name => (some names.length, Table.set name names.length names)
  | none => (none, names)

mutual

/-- The node with numbers for names, which must be known where they are used. -/
def link? : Raw → Names → Option (Linked × Names)
  | .alias name, names => (Table.find? name names).map fun n => (.alias n, names)
  | .scalar props text plain, names =>
    let (anchor?, names) := names.define props.anchor?
    some (.scalar ⟨anchor?, props.tag?⟩ text plain, names)
  | .sequence props items, names => do
    let (anchor?, names) := names.define props.anchor?
    let (items, names) ← linkItems? items names
    some (.sequence ⟨anchor?, props.tag?⟩ items, names)
  | .mapping props pairs, names => do
    let (anchor?, names) := names.define props.anchor?
    let (pairs, names) ← linkPairs? pairs names
    some (.mapping ⟨anchor?, props.tag?⟩ pairs, names)

def linkItems? : List Raw → Names → Option (List Linked × Names)
  | [], names => some ([], names)
  | item :: rest, names => do
    let (item, names) ← link? item names
    let (rest, names) ← linkItems? rest names
    some (item :: rest, names)

def linkPairs? : List (Raw × Raw) → Names → Option (List (Linked × Linked) × Names)
  | [], names => some ([], names)
  | (key, value) :: rest, names => do
    let (key, names) ← link? key names
    let (value, names) ← link? value names
    let (rest, names) ← linkPairs? rest names
    some ((key, value) :: rest, names)

end

def anchoredNode (props : Properties Nat) (node : Linked) : List (Nat × Linked) :=
  (props.anchor?.map fun n => (n, node)).toList

mutual

def anchors : Linked → List (Nat × Linked)
  | .alias _ => []
  | .scalar props text plain => anchoredNode props (.scalar props text plain)
  | .sequence props items => anchoredNode props (.sequence props items) ++ anchorsOfItems items
  | .mapping props pairs => anchoredNode props (.mapping props pairs) ++ anchorsOfPairs pairs

def anchorsOfItems : List Linked → List (Nat × Linked)
  | [] => []
  | item :: rest => anchors item ++ anchorsOfItems rest

def anchorsOfPairs : List (Linked × Linked) → List (Nat × Linked)
  | [] => []
  | (key, value) :: rest => anchors key ++ anchors value ++ anchorsOfPairs rest

end

mutual

def weight : Linked → Nat
  | .alias _ => 1
  | .scalar .. => 1
  | .sequence _ items => 2 + weightOfItems items
  | .mapping _ pairs => 2 + weightOfPairs pairs

def weightOfItems : List Linked → Nat
  | [] => 0
  | item :: rest => weight item + weightOfItems rest

def weightOfPairs : List (Linked × Linked) → Nat
  | [] => 0
  | (key, value) :: rest => weight key + weight value + weightOfPairs rest

end

/-- A tag that is a mark and text has no meaning here. -/
def isLocal (tag? : Option TagText) : Bool :=
  match tag? with
  | some (b :: r) => b = bang && (Text.Utf8.decode r).isOk
  | _ => false

def standardTag (name : String) : TagText := octetsOf ("tag:yaml.org,2002:" ++ name).toList

/-- The value of a scalar. Tags of four types ask for a value of the type, and other ones for
text. -/
def scalarValue? (tag? : Option TagText) (text : String) (plain : Bool) : Option Tree :=
  if isLocal tag? then none
  else if tag? = some (standardTag "bool") then (truth? text).map .bool
  else if tag? = some (standardTag "int") then
    (integer? text.toList).bind fun (negative, n) => (inRange? negative n).map .number
  else if tag? = some (standardTag "float") then binary? text.toList
  else if tag? = some (standardTag "null") then if isNullWord text then some .null else none
  else if plain && tag?.all (·.head? = some bang) then plainValue? text
  else some (.text text)

/-- More collections than this may not be open at once. -/
def depthLimit : Nat := 128

/-- Each scalar, alias and end of a collection allows for so many uses of aliases. -/
def usesPerWeight : Nat := 100

namespace Linked

/-- The node that an alias stands for, and the number of uses of aliases that are left. Of anchors
with one number the last counts. -/
def target? (known : List (Nat × Linked)) (left : Nat) : Linked → Option (Linked × Nat)
  | .alias n =>
    match left with
    | 0 => none
    | left + 1 => (Table.find? n known.reverse).map fun node => (node, left)
  | node => some (node, left)

def keyText? (known : List (Nat × Linked)) (left : Nat) (key : Linked) : Option (String × Nat) :=
  (key.target? known left).bind fun
    | (.scalar _ text _, left) => some (text, left)
    | _ => none

def tree? (known : List (Nat × Linked)) : (depth left : Nat) → Linked → Option (Tree × Nat)
  | depth, left, node => do
    let (node, left) ← node.target? known left
    match node, depth with
    | .scalar props text plain, _ => (scalarValue? props.tag? text plain).map fun t => (t, left)
    | .sequence props items, depth + 1 =>
      if isLocal props.tag? then none
      else
        let step := fun (state : List Tree × Nat) (item : Linked) =>
          (tree? known depth state.2 item).map fun (t, left) => (t :: state.1, left)
        (items.foldlM step ([], left)).map fun (ts, left) => (.list ts.reverse, left)
    | .mapping props pairs, depth + 1 =>
      if isLocal props.tag? then none
      else
        let step := fun (state : List (String × Tree) × Nat) (pair : Linked × Linked) => do
          let (key, left) ← pair.1.keyText? known state.2
          let (value, left) ← tree? known depth left pair.2
          some ((key, value) :: state.1, left)
        (pairs.foldlM step ([], left)).map fun (members, left) => (.ofPairs members.reverse, left)
    | _, _ => none

end Linked

def Raw.tree? (root : Raw) : Option Tree := do
  let (linked, _) ← link? root []
  let found ← Linked.tree? (anchors linked) depthLimit (usesPerWeight * weight linked) linked
  some found.1

/-- The tree that a text with one document describes; a text without one describes null. -/
def decode (text : String) : Option Tree := do
  let source ← Source.ofText? text
  match ← Node.document? (← source.tokens?) with
  | none => some .null
  | some root => Raw.tree? root

end ManifestSync.Yaml
