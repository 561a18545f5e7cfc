import ManifestSync.Text.Utf8

namespace ManifestSync.Files

abbrev PathText := List UInt8

abbrev Name := List UInt8

def slash : UInt8 := 0x2F

def dot : Name := [0x2E]

def dotDot : Name := [0x2E, 0x2E]

def pieces : PathText → List Name
  | [] => [[]]
  | b :: r =>
    if b = slash then [] :: pieces r
    else
      match pieces r with
      | [] => [[b]]
      | p :: ps => (b :: p) :: ps

def extend (p : PathText) (names : List Name) : PathText :=
  names.foldl (fun t n => if t.getLast? = some slash then t ++ n else t ++ slash :: n) p

def joined (names : List Name) : PathText := List.intercalate [slash] names

def shown (p : PathText) : String := Text.Utf8.decodeLossy p

/-- The last name of a path. There is none if the path ends in a step up or consists of slashes and
dots alone. -/
def fileName? (p : PathText) : Option Name :=
  match (pieces p).reverse.dropWhile (fun n => n == [] || n == dot) with
  | [] => none
  | n :: _ => if n = dotDot then none else some n

/-- Whether the path has a last name that is text and begins with the given one. -/
def nameBeginsWith (beginning : String) (p : PathText) : Bool :=
  match (fileName? p).map Text.Utf8.decode with
  | some (.ok name) => beginning.toList.isPrefixOf name.toList
  | _ => false

end ManifestSync.Files
