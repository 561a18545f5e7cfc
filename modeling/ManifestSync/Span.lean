namespace ManifestSync.Span

def fraction (ms : Nat) : List Char :=
  let digits := [ms / 100, ms / 10 % 10, ms % 10].map Nat.digitChar
  (digits.reverse.dropWhile (· = '0')).reverse

/-- A span of milliseconds: whole milliseconds below one second, else seconds with as many decimals
as they need. The empty span is shown in the least unit. -/
def text (ms : Nat) : String :=
  if ms = 0 then "0ns"
  else if ms < 1000 then s!"{ms}ms"
  else
    match fraction (ms % 1000) with
    | [] => s!"{ms / 1000}s"
    | digits => s!"{ms / 1000}." ++ String.ofList digits ++ "s"

end ManifestSync.Span
