import ManifestSync.Http.Message

namespace ManifestSync.Scenario

structure Route where
  method : String
  path : String
  reply : Http.Reply
  uses? : Option Nat
  delay : Nat
  /-- If given, the request cannot be sent, for this reason. -/
  failure? : Option String
  deriving Repr

structure Server where
  routes : List Route
  /-- The requests so far, the last one first. -/
  log : List Http.Outgoing

namespace Route

def serves (o : Http.Outgoing) (r : Route) : Bool :=
  r.method == o.method && r.path == o.path && r.uses? != some 0

def used (r : Route) : Route := { r with uses? := r.uses?.map (· - 1) }

def outcome (r : Route) : Except String Http.Reply :=
  match r.failure? with
  | some reason => .error reason
  | none => .ok r.reply

end Route

namespace Server

def empty : Server := ⟨[], []⟩

def take? (o : Http.Outgoing) : List Route → Option (Route × List Route)
  | [] => none
  | r :: rest =>
    if r.serves o then some (r, r.used :: rest)
    else (take? o rest).map fun (found, others) => (found, r :: others)

def noRoute : Http.Reply where
  status := 404
  body := Text.Utf8.encode <|
    "\x7b\"kind\":\"Status\",\"status\":\"Failure\",\"message\":\"no route\"," ++
    "\"reason\":\"NotFound\",\"code\":404\x7d"

/-- Accepts a request: it is logged, held for the delay of its route and then answered. -/
def accept (o : Http.Outgoing) (s : Server) : Activity Server (Except String Http.Reply) :=
  let logged := { s with log := o :: s.log }
  match take? o s.routes with
  | none => .done (.ok noRoute) logged
  | some (route, routes) =>
    let taken := { logged with routes }
    if route.delay = 0 then .done route.outcome taken
    else .wait route.delay taken fun later => .done route.outcome later

def transport (o : Http.Outgoing) (s : Server) : Activity Server (Except String Http.Reply) :=
  .turn s (accept o)

end Server

end ManifestSync.Scenario
