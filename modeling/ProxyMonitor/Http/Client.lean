import ProxyMonitor.Answer
import ProxyMonitor.Live.View
/-! Requests to the API and what comes of them. -/
namespace ProxyMonitor.Http
open ProxyMonitor.Json

inductive Method where
  | get | delete
deriving DecidableEq, Repr

def Method.name : Method → String
  | .get => "GET"
  | .delete => "DELETE"

/-- What becomes of a request: no connection, no answer, or an answer whose body ends early unless it is
whole. -/
inductive Reaction where
  | refuses | stalls
  | answers (status : Status) (body : List UInt8) (whole : Bool)
deriving DecidableEq, Repr

/-- What is found at a URL. -/
abbrev Network := Method → Url → Reaction

/-- A server at one address, which reacts to every request in its own way. -/
structure Server where
  host : Url.Host
  port : Nat
  reaction : Method → Url → Reaction

namespace Server

def serves (s : Server) (u : Url) : Bool :=
  u.scheme == "http".toList && u.host == some s.host && u.port.getD 80 == s.port

/-- Nothing else is found anywhere. -/
def network (s : Server) : Network := fun method u =>
  if s.serves u then s.reaction method u else .refuses

end Server

/-- `base` is the URL of the API, `timeout` is in milliseconds. -/
structure Client where
  base : String
  timeout : Nat
deriving DecidableEq, Repr

/-- A request that went out, and the result. -/
structure Exchange (α : Type) where
  sent : Option (Method × Url)
  result : Except Failure α

namespace Client

def logTarget : String := "proxywatch_live::fetcher"

/-- Slashes at the end of the base are dropped. -/
def ofBase (base : String) (timeout : Nat) : Client :=
  ⟨String.ofList (Text.trimEnd base.toList (· == '/')), timeout⟩

def url (c : Client) (endpoint : String) : Except TransportCause Url :=
  let raw := c.base ++ endpoint
  (Url.read raw.toList).mapError fun problem => .invalidUrl raw problem.message

def maxUrlLength : Nat := 65534

/-- Whether a request can name the URL. -/
def isSendable (u : Url) : Bool :=
  ["http", "https"].any (·.toList == u.scheme) && u.write.length ≤ maxUrlLength &&
    (u.host.elim [] Url.Host.write).all fun c => c ∉ ['"', '\x60', '\x7b', '\x7d']

/-- The URL that a request names: credentials are left out, and parameters join the query. -/
def requested (u : Url) (params : Option Url.Form.Pairs) : Except TransportCause Url :=
  if u.host.isNone then .error (.unnamable (String.ofList u.write))
  else
    let bare := { u with username := [], password := [] }
    let u := params.elim bare bare.addPairs
    if isSendable u then .ok u else .error (.unnamable (String.ofList u.write))

/-- Whether an answer with this status is the last one, and can be one at all. -/
private def isFinal (s : Status) : Bool :=
  s.code = 101 || (200 ≤ s.code && s.code ≤ 999)

private def hasBody (s : Status) : Bool :=
  !(s.code = 101 || s.code = 204 || s.code = 304)

/-- Sends a request: the status, and the body if it can be read. -/
def exchange (c : Client) (network : Network) (method : Method) (u : Url) :
    Except TransportCause (Status × Except TransportCause (List UInt8)) :=
  match network method u with
  | .refuses => .error (.unsent (String.ofList u.write))
  | .stalls => .error (.timedOut (c.timeout / 1000))
  | .answers status body whole =>
    if !isFinal status then .error (.unsent (String.ofList u.write))
    else if !hasBody status then .ok (status, .ok [])
    else .ok (status, if whole then .ok body else .error (.undecodable "error decoding response body"))

/-- Asks for records. -/
def fetch (c : Client) (network : Network) (record : Decoder α) (r : Live.Request) :
    Logged (Exchange (Answer α)) :=
  match c.url r.endpoint with
  | .error cause => pure ⟨none, .error (.transport cause)⟩
  | .ok u => do
    .write ⟨.debug, logTarget, "fetching",
      [("url", String.ofList u.write), ("seq", s!"{r.tag.seq}"), ("filter", r.tag.filter)]⟩
    match requested u (some r.params) with
    | .error cause => return ⟨none, .error (.transport cause)⟩
    | .ok u =>
      return ⟨some (.get, u), do
        let (status, body) ← (c.exchange network .get u).mapError .transport
        Answer.ofResponse record status (← body.mapError .transport)⟩

/-- Deletes the record of this name. -/
def delete (c : Client) (network : Network) (endpoint id : String) : Logged (Exchange Unit) :=
  match c.url endpoint with
  | .error cause => pure ⟨none, .error (.transport cause)⟩
  | .ok u =>
    match u.pushSegment? id.toList with
    | none => pure ⟨none, .error (.transport (.cannotAppend c.base))⟩
    | some u => do
      .write ⟨.debug, logTarget, "removing record", [("url", String.ofList u.write)]⟩
      match requested u none with
      | .error cause => return ⟨none, .error (.transport cause)⟩
      | .ok u =>
        return ⟨some (.delete, u), do
          let (status, body) ← (c.exchange network .delete u).mapError .transport
          if status.isSuccess then return ()
          else throw (Answer.failureOf status (← body.mapError .transport))⟩

end Client

/-- The request that a server saw, if it went to it. -/
def Server.seen? (s : Server) (sent : Option (Method × Url)) : Option String :=
  sent.bind fun (method, u) =>
    if s.serves u then some s!"{method.name} {String.ofList u.target}" else none

end ProxyMonitor.Http
