import ProxyMonitor.Environment
import ProxyMonitor.Failure
import ProxyMonitor.Json.Value
import ProxyMonitor.Page
/-! What is said to the user when a command fails. -/
namespace ProxyMonitor.Command
open ProxyMonitor.Json

/-- What went wrong, where, and what can be done. -/
structure Problem where
  message : String
  context : Option String := none
  suggestions : List String := []
deriving DecidableEq, Repr

namespace Problem

def text (p : Problem) : String :=
  String.join (s!"ERROR: {p.message}\n" :: (p.context.map fun c => s!"CONTEXT: {c}\n").toList ++
    if p.suggestions.isEmpty then [] else "\n" :: p.suggestions.map fun s => s!"  {s}\n")

def encode (p : Problem) : Value :=
  .object [("context", .optional .text p.context), ("error", .text p.message),
    ("suggestions", .list .text p.suggestions)]

def unreachable (baseUrl reason : String) : Problem where
  message := s!"Cannot reach the dashboard API at {baseUrl}"
  context := some reason
  suggestions := [
    "TRY: Check that the proxy pool service is running",
    s!"TRY: Point to another instance: {Environment.apiVariable}=http://host:8089/api proxywatch ...",
    "TRY: Show the resolved settings: proxywatch config"]

def rejected (page : Page) (filter message : String) : Problem where
  message := s!"Query failed: {message}"
  context := some (if filter.isEmpty then s!"Querying {page.endpoint}"
    else s!"Querying {page.endpoint} with filter '{filter}'")
  suggestions := [
    "TRY: Check the filter expression for typos",
    s!"TRY: Run without a filter: proxywatch query {page.name}"]

def ofFailure (baseUrl : String) (page : Page) (filter : String) : Failure → Problem
  | .transport cause => unreachable baseUrl (Failure.transport cause).message
  | .application _ message => rejected page filter message

def invalidConfig (path reason : String) : Problem where
  message := s!"Invalid configuration: {path}"
  context := some reason
  suggestions := [s!"TRY: Inspect the file: cat {path}", "TRY: Remove the file to fall back to defaults"]

def noRemoval (page : Page) : Problem where
  message := s!"Records cannot be removed from {page.name}"
  suggestions := ["TRY: Remove from one of: " ++
    ", ".intercalate ((Page.all.filter (·.removalEndpoint.isSome)).map Page.name)]

end Problem
end ProxyMonitor.Command
