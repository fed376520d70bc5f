import ContainerHost.Deploy.Request
import ContainerHost.Error
import ContainerHost.Http
import ContainerHost.Json.Reader
import ContainerHost.Text.Utf8
/-!
# Deploying

A deployment is created and then started, and each step answers with an id. A rehearsal answers
from a script; otherwise the steps are requests to an endpoint, which answers with the id in JSON or
as plain text.

Correspondence: `DockerClient` ↔ `Deployer` with `create`, `start`; `HttpDockerClient::post` ↔
`Endpoint.post`.
-/

namespace ContainerHost

/-- A step of a deployment, as a rehearsal sees it. -/
inductive DeploymentStep where
  | create (r : DeploymentRequest)
  | start (id : String)
  deriving Inhabited

/-- The answers of a rehearsal, and what it has seen. -/
structure Rehearsal where
  creates : List (Except String String)
  starts : List (Except String String)
  seen : List DeploymentStep
  deriving Inhabited

/-- An endpoint for deployments. -/
structure Endpoint where
  base : String
  timeout : Duration
  deriving DecidableEq, Repr, Inhabited

/-- Where deployments are made. -/
inductive Deployer where
  | rehearsal (r : Rehearsal)
  | endpoint (e : Endpoint)
  deriving Inhabited

namespace Rehearsal

def answer (id : String) (answers : List (Except String String)) : Except Error String :=
  match answers.head? with
  | some (.ok deployment) => .ok deployment
  | some (.error reason) => .error (.deploymentFailed id reason)
  | none => .error (.deploymentFailed id "script exhausted")

def create (r : Rehearsal) (request : DeploymentRequest) : Except Error String × Rehearsal :=
  (answer request.containerId r.creates,
    { r with creates := r.creates.drop 1, seen := r.seen ++ [.create request] })

def start (r : Rehearsal) (id : String) : Except Error String × Rehearsal :=
  (answer id r.starts, { r with starts := r.starts.drop 1, seen := r.seen ++ [.start id] })

end Rehearsal

namespace Endpoint

def ofUrl (url : String) (timeout : Duration) : Endpoint := ⟨Http.trimSlashes url, timeout⟩

def url (e : Endpoint) (action : String) : String := e.base ++ "/docker/" ++ action

/-- A text without quotes around it. -/
def trimQuotes (s : String) : String :=
  String.ofList ((s.toList.dropWhile (· = '"')).reverse.dropWhile (· = '"')).reverse

/-- The id in the body of a response: in JSON, or the text without blanks and quotes around it. -/
def readId (text : String) : String :=
  let record := (Json.Document.read? text).bind fun d => (d.fields? ["id"]).bind fun fs =>
    match fs with
    | [some id] => id.str?
    | _ => none
  record.getD (trimQuotes (Text.trimBlank text))

def receive (e : Endpoint) (action id : String) (r : Http.Response) : Except Error String :=
  match r.body with
  | none => .error (.deploymentFailed id Http.brokenText)
  | some bytes =>
    let text := Text.Utf8.decodeString bytes.toList
    if !r.isSuccess then
      .error (.deploymentFailed id
        (e.url action ++ " returned " ++ Http.statusText r.status ++ ": " ++ Text.trimBlank text))
    else
      let deployment := readId text
      if deployment.isEmpty then .error (.deploymentFailed id (e.url action ++ " returned an empty id"))
      else .ok deployment

/-- Makes the request of a step. -/
def post (e : Endpoint) (action id : String) (body : Json.Value) (net : Http.Network) :
    Except Error String × Http.Network :=
  let (outcome, net) := net.exchange e.timeout ⟨.post, e.url action, some body, none⟩
  (match outcome with
    | .unreachable => .error (.deploymentFailed id (Http.unreachableText (e.url action)))
    | .timedOut => .error (.timeout s!"docker {action} for {id}" e.timeout)
    | .response r => e.receive action id r, net)

def create (e : Endpoint) (r : DeploymentRequest) (net : Http.Network) :
    Except Error String × Http.Network := e.post "create" r.containerId r.toJson net

def start (e : Endpoint) (id : String) (net : Http.Network) : Except Error String × Http.Network :=
  e.post "start" id (.obj [("id", .str id)]) net

end Endpoint

namespace Deployer

def create (d : Deployer) (r : DeploymentRequest) (net : Http.Network) :
    Except Error String × Deployer × Http.Network :=
  match d with
  | .rehearsal h => let (id, h) := h.create r; (id, .rehearsal h, net)
  | .endpoint e => let (id, net) := e.create r net; (id, .endpoint e, net)

def start (d : Deployer) (id : String) (net : Http.Network) :
    Except Error String × Deployer × Http.Network :=
  match d with
  | .rehearsal h => let (id, h) := h.start id; (id, .rehearsal h, net)
  | .endpoint e => let (id, net) := e.start id net; (id, .endpoint e, net)

def takeSeen : Deployer → List DeploymentStep × Deployer
  | .rehearsal h => (h.seen, .rehearsal { h with seen := [] })
  | .endpoint e => ([], .endpoint e)

end Deployer
end ContainerHost
