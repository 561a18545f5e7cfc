import ManifestSync.Catalog.Record
import ManifestSync.Http.Failure
import ManifestSync.Http.Message
import ManifestSync.Tree.Read
import ManifestSync.Tree.Shape

namespace ManifestSync.Http

def phrases : List (Nat × String) :=
  [(100, "Continue"), (101, "Switching Protocols"), (102, "Processing"), (103, "Early Hints"),
   (200, "OK"), (201, "Created"), (202, "Accepted"), (203, "Non Authoritative Information"),
   (204, "No Content"), (205, "Reset Content"), (206, "Partial Content"), (207, "Multi-Status"),
   (208, "Already Reported"), (226, "IM Used"), (300, "Multiple Choices"),
   (301, "Moved Permanently"), (302, "Found"), (303, "See Other"), (304, "Not Modified"),
   (305, "Use Proxy"), (307, "Temporary Redirect"), (308, "Permanent Redirect"),
   (400, "Bad Request"), (401, "Unauthorized"), (402, "Payment Required"), (403, "Forbidden"),
   (404, "Not Found"), (405, "Method Not Allowed"), (406, "Not Acceptable"),
   (407, "Proxy Authentication Required"), (408, "Request Timeout"), (409, "Conflict"),
   (410, "Gone"), (411, "Length Required"), (412, "Precondition Failed"),
   (413, "Payload Too Large"), (414, "URI Too Long"), (415, "Unsupported Media Type"),
   (416, "Range Not Satisfiable"), (417, "Expectation Failed"), (418, "I'm a teapot"),
   (421, "Misdirected Request"), (422, "Unprocessable Entity"), (423, "Locked"),
   (424, "Failed Dependency"), (425, "Too Early"), (426, "Upgrade Required"),
   (428, "Precondition Required"), (429, "Too Many Requests"),
   (431, "Request Header Fields Too Large"), (451, "Unavailable For Legal Reasons"),
   (500, "Internal Server Error"), (501, "Not Implemented"), (502, "Bad Gateway"),
   (503, "Service Unavailable"), (504, "Gateway Timeout"), (505, "HTTP Version Not Supported"),
   (506, "Variant Also Negotiates"), (507, "Insufficient Storage"), (508, "Loop Detected"),
   (510, "Not Extended"), (511, "Network Authentication Required")]

def phraseOf (status : Nat) : String := (phrases.lookup status).getD "<unknown status code>"

def isErrorStatus (status : Nat) : Bool := 400 ≤ status && status < 600

namespace ErrorStatus

def textOrEmpty? (ms : Draft.Members) (name : String) : Option String :=
  match Draft.valuesOf name ms with
  | [] => some ""
  | [d] => d.text?
  | _ => none

def code? : Draft → Option Nat
  | .number (.whole n) => if n < 0x10000 then some n else none
  | _ => none

/-- The error that a document reports: an object with a status and a code, or the list of the four
fields. -/
def ofDraft? : Draft → Option ErrorStatus
  | .list [s, m, r, c] => do some ⟨← s.text?, ← m.text?, ← r.text?, ← code? c⟩
  | document => do
    let ms ← document.members?
    let status ← (← Record.only? ms "status").text?
    let message ← textOrEmpty? ms "message"
    let reason ← textOrEmpty? ms "reason"
    let code ← code? (← Record.only? ms "code")
    some ⟨status, message, reason, code⟩

def ofBody (status : Nat) (body : String) : ErrorStatus :=
  ⟨s!"{status} {phraseOf status}", Text.quoted body, "Failed to parse error data", status⟩

end ErrorStatus

def Reply.read (r : Reply) : Except RequestError String :=
  match Text.Utf8.decode r.body with
  | .error fault => .error (.failed (.notText fault))
  | .ok text =>
    if isErrorStatus r.status then
      let reported := (Draft.read? text).bind ErrorStatus.ofDraft?
      .error (.refused (reported.getD (.ofBody r.status text)))
    else .ok text

end ManifestSync.Http
