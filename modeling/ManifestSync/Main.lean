import ManifestSync.Settings

namespace ManifestSync

def environment : IO (List (String × String)) := do
  let mut found := []
  for key in Settings.keys do
    if let some value ← IO.getEnv key then
      found := (key, value) :: found
  return found

end ManifestSync

/-- What runs are made against is for users of the library to supply. -/
def main : IO UInt32 := do
  let found ← ManifestSync.environment
  match ManifestSync.Settings.read (found.lookup ·) with
  | .ok settings =>
    settings.announcement.forM IO.println
    return 0
  | .error e =>
    IO.eprintln s!"Error: {e.message}"
    return 1
