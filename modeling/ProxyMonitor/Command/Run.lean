import ProxyMonitor.Command.Arguments
import ProxyMonitor.Command.Problem
import ProxyMonitor.Command.Settings
import ProxyMonitor.Command.Table
import ProxyMonitor.Http.Client
import ProxyMonitor.Record.Collection
/-! What the commands do: what they print, ask the server for, write and log, and how they end. -/
namespace ProxyMonitor.Command
open ProxyMonitor.Http ProxyMonitor.Record ProxyMonitor.Time

/-- Why a command failed: something that can be explained, or an error and what caused it. -/
inductive Failing where
  | problem (p : Problem)
  | chain (message : String) (causes : List String)
deriving DecidableEq, Repr

namespace Failing

private def numbered (causes : List String) : List String :=
  causes.mapIdx fun i cause => s!"    {i}: {cause}"

def text : Failing → String
  | .problem p => p.text
  | .chain message [] => message
  | .chain message [cause] => s!"{message}\n\nCaused by:\n    {cause}"
  | .chain message causes => s!"{message}\n\nCaused by:\n" ++ "\n".intercalate (numbered causes)

def encode : Failing → Json.Value
  | .problem p => p.encode
  | .chain message causes => .object [("error", .text (": ".intercalate (message :: causes)))]

end Failing

/-- Why a command ends before it is done. -/
inductive Stop where
  | failed (f : Failing)
  | overflow (o : Overflow)
deriving DecidableEq, Repr

/-- Where a command runs. -/
structure Context where
  environment : Environment
  network : Network
  now : Instant

/-- What a command leaves behind. -/
structure Trace where
  files : Files
  printed : String := ""
  sent : List (Method × Url) := []

abbrev Run := ExceptT Stop (StateT Trace Logged)

private def explain (p : Problem) : Run α :=
  throw (.failed (.problem p))

private def print (line : String) : Run Unit :=
  modify fun t => { t with printed := t.printed ++ line ++ "\n" }

private def log (e : Log.Entry) : Run Unit :=
  liftM (Logged.write e)

private def loadConfig (c : Context) : Run Config := do
  let path := c.environment.configPath
  match Config.loadOrDefault (← get).files path c.environment.api with
  | .ok config => return config
  | .error e => explain (.invalidConfig path e.message)

private def client (c : Context) : Run Client := do
  let config ← loadConfig c
  return Client.ofBase config.baseUrl config.timeoutMillis

/-- The result of an exchange, or an explanation of its failure. -/
private def received (c : Client) (page : Page) (filter : String) (e : Logged (Exchange α)) : Run α := do
  let e ← liftM e
  modify fun t => { t with sent := t.sent ++ e.sent.toList }
  match e.result with
  | .ok a => return a
  | .error f => explain (.ofFailure c.base page filter f)

private def printAnswer (c : Context) (listing : Listing α) (sink : Live.Sink α) : Run Unit := do
  unless sink.records.isEmpty do
    print (Table.text ⟨listing.headers, sink.records.map (listing.cells c.now)⟩)
  if let some label := sink.label then
    match listing.summary sink.records with
    | .error o => throw (.overflow o)
    | .ok none => print label
    | .ok (some summary) => print s!"{label} ({summary})"
  for view in Facet.views sink.facets do
    print view.line

def runQuery (c : Context) (page : Page) (filter : String) (json : Bool) : Run Unit := do
  let client ← client c
  let collection := Collection.ofPage page
  let answer ← received client page filter
    (client.fetch c.network collection.decode (Live.Request.first page filter))
  if json then print (answer.encode collection.encode).toPrettyText
  else printAnswer c collection.listing (({} : Live.Sink collection.Item).accept answer)

def runRemove (c : Context) (page : Page) (proxy : String) : Run Unit := do
  match page.removalEndpoint with
  | none => explain (.noRemoval page)
  | some endpoint =>
    let client ← client c
    received client page "" (client.delete c.network endpoint (removalName proxy))
    log ⟨.info, "proxywatch::cli::remove", "record removed", [("page", page.name), ("proxy", proxy)]⟩
    print s!"Removed {proxy} from {page.name}"

private def writeDefault (path : String) : Run Unit := do
  match Config.writeDefault (← get).files path with
  | .ok none => print s!"{path} already exists, left unchanged"
  | .ok (some files) =>
    modify ({ · with files })
    log ⟨.info, "proxywatch::cli::config", "wrote default config", [("path", path)]⟩
    print s!"Wrote {path}"
  | .error e =>
    let causes := match e with
      | .unwritable _ problem => [e.message, problem.message]
      | e => [e.message]
    throw (.failed (.chain s!"Failed to write {path}" causes))

def showSettings (c : Context) (json writeDefaults : Bool) : Run Unit := do
  if writeDefaults then writeDefault c.environment.configPath
  let settings := Settings.of (← loadConfig c) c.environment (← get).files
  if json then print settings.encode.toPrettyText
  else modify fun t => { t with printed := t.printed ++ settings.text }

/-- The page and the location that are shown first. -/
def opening (page : Page) (location : Option String) : Except Problem (Page × Location) :=
  match location with
  | none => .ok (page, .ofPage page)
  | some raw =>
    match Location.read raw with
    | .error problem => .error {
        message := s!"Invalid location: {raw}"
        context := some (Location.invalidMessage raw problem)
        suggestions := ["TRY: proxywatch tui --location '/history?filter=StatusCode%3A404'"] }
    | .ok location =>
      match location.page? with
      | some page => .ok (page, location)
      | none => .error {
          message := s!"No page at {location.path}"
          suggestions := ["TRY: Use one of /history, /pool, /blacklist, /reverify"] }

/-- What the views need before they can be shown. -/
def startViews (c : Context) (page : Page) (location : Option String) : Run (Page × Location × Config) := do
  match opening page location with
  | .error p => explain p
  | .ok (page, location) =>
    let config ← loadConfig c
    log ⟨.info, "proxywatch::cli::tui", "starting tui",
      [("page", page.name), ("location", location.text), ("base_url", config.baseUrl)]⟩
    return (page, location, config)

/-- Runs a command, up to the point where views are shown. -/
def Action.run (c : Context) : Action → Run Unit
  | .tui page location => discard (startViews c page location)
  | .query page filter json => runQuery c page filter json
  | .remove page proxy => runRemove c page proxy
  | .config json writeDefaults => showSettings c json writeDefaults

/-- How a command ended: what went to the terminal, the files afterwards, and the requests that were sent. -/
structure Outcome where
  stop : Option Stop
  stdout : String
  stderr : String
  files : Files
  sent : List (Method × Url)

def Outcome.code (o : Outcome) : Nat :=
  match o.stop with
  | none => 0
  | some (.failed _) => 1
  | some (.overflow _) => 101

/-- Runs an action to its end. With JSON wanted, a failure is printed as JSON too. -/
def Action.outcome (c : Context) (files : Files) (action : Action) : Logged Outcome := do
  let (result, t) ← (action.run c).run.run { files }
  let plain : Outcome := ⟨none, t.printed, "", t.files, t.sent⟩
  return match result with
    | .ok () => plain
    | .error stop =>
      let stopped := { plain with stop := some stop }
      match stop with
      | .failed f =>
        if action.isJson then { stopped with stdout := t.printed ++ f.encode.toText ++ "\n" }
        else { stopped with stderr := f.text }
      | .overflow _ => stopped

end ProxyMonitor.Command
