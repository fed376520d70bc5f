import ContainerHost.Duration
import ContainerHost.Json.Printer
/-!
# Exchanges over HTTP

Requests, what comes of them, and a network that answers them from a script. A request to a network
that has no answer left finds nobody; one that may take no time gets no answer.

Correspondence: the client of `RegistryClient` and `HttpDockerClient` ↔ `Network.exchange`.
-/

namespace ContainerHost.Http

/-- The kind of a request. -/
inductive Method where
  | get
  | post
  deriving DecidableEq, Repr, Inhabited

structure Request where
  method : Method
  url : String
  body : Option Json.Value
  agent : Option String
  deriving Inhabited, Repr

/-- The head of a response, and its body if it came whole. -/
structure Response where
  status : Nat
  declared : Option Nat
  body : Option ByteArray
  deriving Inhabited

/-- What comes of a request. -/
inductive Outcome where
  | unreachable
  | timedOut
  | response (r : Response)
  deriving Inhabited

def Response.isSuccess (r : Response) : Bool := 200 ≤ r.status && r.status < 300

def phrases : List (Nat × String) := [
  (100, "Continue"), (101, "Switching Protocols"), (102, "Processing"),
  (200, "OK"), (201, "Created"), (202, "Accepted"), (203, "Non Authoritative Information"),
  (204, "No Content"), (205, "Reset Content"), (206, "Partial Content"), (207, "Multi-Status"),
  (208, "Already Reported"), (226, "IM Used"),
  (300, "Multiple Choices"), (301, "Moved Permanently"), (302, "Found"), (303, "See Other"),
  (304, "Not Modified"), (305, "Use Proxy"), (307, "Temporary Redirect"),
  (308, "Permanent Redirect"),
  (400, "Bad Request"), (401, "Unauthorized"), (402, "Payment Required"), (403, "Forbidden"),
  (404, "Not Found"), (405, "Method Not Allowed"), (406, "Not Acceptable"),
  (407, "Proxy Authentication Required"), (408, "Request Timeout"), (409, "Conflict"),
  (410, "Gone"), (411, "Length Required"), (412, "Precondition Failed"),
  (413, "Payload Too Large"), (414, "URI Too Long"), (415, "Unsupported Media Type"),
  (416, "Range Not Satisfiable"), (417, "Expectation Failed"), (418, "I'm a teapot"),
  (421, "Misdirected Request"), (422, "Unprocessable Entity"), (423, "Locked"),
  (424, "Failed Dependency"), (425, "Too Early"), (426, "Upgrade Required"),
  (428, "Precondition Required"), (429, "Too Many Requests"),
  (431, "Request Header Fields Too Large"), (451, "Unavailable For Legal Reasons"),
  (500, "Internal Server Error"), (501, "Not Implemented"), (502, "Bad Gateway"),
  (503, "Service Unavailable"), (504, "Gateway Timeout"), (505, "HTTP Version Not Supported"),
  (506, "Variant Also Negotiates"), (507, "Insufficient Storage"), (508, "Loop Detected"),
  (510, "Not Extended"), (511, "Network Authentication Required")]

def statusText (status : Nat) : String :=
  s!"{status} " ++ (phrases.lookup status).getD "<unknown status code>"

/-- A request did not reach anyone. -/
def unreachableText (url : String) : String := s!"error sending request for url ({url})"

/-- The body of a response did not come whole. -/
def brokenText : String := "error decoding response body"

/-- A network: the answers that it will give, and the requests that it has received. -/
structure Network where
  answers : List Outcome
  received : List Request
  deriving Inhabited

def Network.silent : Network := ⟨[], []⟩

/-- Sends a request and waits for what comes of it. -/
def Network.exchange (n : Network) (limit : Duration) (r : Request) : Outcome × Network :=
  if limit.nanos = 0 then (.timedOut, n)
  else match n.answers with
    | [] => (.unreachable, n)
    | o :: rest => (o, ⟨rest, n.received ++ [r]⟩)

/-- An address without slashes at its end. -/
def trimSlashes (url : String) : String :=
  String.ofList (url.toList.reverse.dropWhile (· = '/')).reverse

end ContainerHost.Http
