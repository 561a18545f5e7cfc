import ManifestSync.Tree.Shape

namespace ManifestSync.Http

def noItems : Tree := .list []

def emptyText : Tree := .text ""

def ownerShape : Shape := .record
  (.defaulted "apiVersion" .text emptyText <| .optional "blockOwnerDeletion" .flag <|
   .optional "controller" .flag <| .defaulted "kind" .text emptyText <|
   .defaulted "name" .text emptyText <| .defaulted "uid" .text emptyText .nil)

def managerShape : Shape := .record
  (.optional "apiVersion" .text <| .optional "fieldsType" .text <| .optional "fieldsV1" .anything <|
   .optional "manager" .text <| .optional "operation" .text <| .optional "subresource" .text <|
   .optional "time" .instant .nil)

def metadataShape : Shape := .record
  (.optional "annotations" (.map .text) <| .optional "creationTimestamp" .instant <|
   .optional "deletionGracePeriodSeconds" .integer <| .optional "deletionTimestamp" .instant <|
   .optional "finalizers" (.list .text) <| .optional "generateName" .text <|
   .optional "generation" .integer <| .optional "labels" (.map .text) <|
   .optional "managedFields" (.list managerShape) <| .optional "name" .text <|
   .optional "namespace" .text <| .optional "ownerReferences" (.list ownerShape) <|
   .optional "resourceVersion" .text <| .optional "selfLink" .text <| .optional "uid" .text .nil)

def isTypeWord (key : String) : Bool := key == "apiVersion" || key == "kind"

/-- The words for the type, if both are there, and the other members. A word that is repeated or is
no text ends the search, and what was taken by then is lost. -/
def splitType : (found members : Members) → Option Members × Members
  | found, [] => (if found.length = 2 then some found else none, [])
  | found, (key, value) :: rest =>
    if isTypeWord key then
      if (Members.find? key found).isSome || value.text?.isNone then (none, rest)
      else splitType ((key, value) :: found) rest
    else
      let (words, others) := splitType found rest
      (words, (key, value) :: others)

/-- The object that a document is, its metadata reduced to their shape. Nothing else is left out. -/
def objectOf? (document : Draft) : Option Tree := do
  let ms ← document.members?
  let metadata ← match Draft.valuesOf "metadata" ms with
    | [] => some Tree.empty
    | [d] => metadataShape.fit? d
    | _ => none
  let others ← (ms.filter (·.1 != "metadata")).mapM fun m => m.2.tree?.map (m.1, ·)
  let (words, others) := splitType [] others
  some (Tree.ofPairs (words.getD [] ++ ("metadata", metadata) :: others))

end ManifestSync.Http
