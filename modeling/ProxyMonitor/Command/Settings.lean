import ProxyMonitor.Config
import ProxyMonitor.Environment
import ProxyMonitor.Json.Value
/-! Settings in force, as they are shown to the user. -/
namespace ProxyMonitor.Command
open ProxyMonitor.Json

/-- Settings, and where they were looked for. -/
structure Settings where
  config : Config
  environment : Environment
  hasFile : Bool

namespace Settings

def of (config : Config) (environment : Environment) (files : Files) : Settings :=
  ⟨config, environment, files.hasPath environment.configPath⟩

private def cadenceLine (s : Settings) (page : Page) : String :=
  let name := page.name.pushn ' ' (10 - page.name.length)
  s!"  {name} {s.config.cadence.of page}ms\n"

def text (s : Settings) : String :=
  let source := if s.hasFile then "exists" else "not found, using defaults"
  String.join ([
    "PROXYWATCH CONFIGURATION\n========================\n\n",
    s!"Home:     {s.environment.homeDirectory}\n",
    s!"Config:   {s.environment.configPath} ({source})\n\n",
    s!"API:      {s.config.baseUrl}\n",
    s!"Debounce: {s.config.debounce}ms\n",
    s!"Timeout:  {s.config.timeout}s\n\n",
    "Refresh cadence:\n"] ++ Page.all.map s.cadenceLine)

private def word (n : UInt64) : Value := .nat n.toNat

/-- The keys are in alphabetical order. -/
def encode (s : Settings) : Value :=
  .object [
    ("base_url", .text s.config.baseUrl),
    ("cadence_ms", .object ([Page.blacklist, .history, .pool, .reverify].map fun page =>
      (page.name, word (s.config.cadence.of page)))),
    ("config_file", .object [("exists", .bool s.hasFile), ("path", .text s.environment.configPath)]),
    ("debounce_ms", word s.config.debounce),
    ("home", .text s.environment.homeDirectory),
    ("request_timeout_secs", word s.config.timeout)]

end Settings
end ProxyMonitor.Command
