import ManifestSync.Instant
import ManifestSync.Tree.Draft

namespace ManifestSync

mutual

inductive Shape where
  | text
  | integer
  | flag
  | instant
  | anything
  | list (item : Shape)
  | map (value : Shape)
  | record (fields : Fields)

/-- The fields of a record in order. A null counts as a missing field; one that has a value by
default is never missing. A marked field may be missing and is not kept, but it must hold its
mark. -/
inductive Fields where
  | nil
  | optional (name : String) (shape : Shape) (rest : Fields)
  | defaulted (name : String) (shape : Shape) (value : Tree) (rest : Fields)
  | marked (name mark : String) (rest : Fields)

end

def Number.isSigned64 : Number → Bool
  | .whole n => n < belowLimit
  | .below n => n < belowLimit
  | .binary _ => false

/-- The last value of a field if there is one and it is not null. All values have to fit. -/
def Draft.field? (fit : Draft → Option Tree) (name : String) (ms : Draft.Members) :
    Option (Option Tree) :=
  ((valuesOf name ms).mapM fun (d : Draft) => if d.isNull then some none else (fit d).map some).map
    fun (found : List (Option Tree)) => found.getLast?.join

mutual

def Shape.fit? : Shape → Draft → Option Tree
  | .text, .text s => some (.text s)
  | .integer, .number n => if n.isSigned64 then some (.number n) else none
  | .flag, .bool b => some (.bool b)
  | .instant, .text s => (Instant.ofText? s).map fun t => .text t.text
  | .anything, d => d.tree?
  | .list item, .list ds => (ds.mapM fun d => item.fit? d).map .list
  | .map value, d => do
    let ms ← d.members?
    (ms.mapM fun m => (value.fit? m.2).map fun t => (m.1, t)).map Tree.ofPairs
  | .record fields, d => do
    let ms ← d.members?
    (fields.fit? ms).map Tree.ofPairs
  | _, _ => none

def Fields.fit? : Fields → Draft.Members → Option Members
  | .nil, _ => some []
  | .optional name shape rest, ms => do
    let found ← Draft.field? (fun d => shape.fit? d) name ms
    let others ← rest.fit? ms
    match found with
    | some t => some ((name, t) :: others)
    | none => some others
  | .defaulted name shape value rest, ms => do
    let found ← Draft.field? (fun d => shape.fit? d) name ms
    let others ← rest.fit? ms
    some ((name, found.getD value) :: others)
  | .marked name mark rest, ms =>
    if (Draft.valuesOf name ms).all (fun d => d.text? == some mark) then rest.fit? ms else none

end

end ManifestSync
