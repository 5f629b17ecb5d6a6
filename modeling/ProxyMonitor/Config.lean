import ProxyMonitor.Files
import ProxyMonitor.Page
import ProxyMonitor.Record.Listing
import ProxyMonitor.Toml.Document
/-! Settings: where they come from, and when they are valid. Every field has a default. -/
namespace ProxyMonitor
open ProxyMonitor.Json

/-- Milliseconds from a response to the next poll, by page. -/
structure Cadence where
  history : UInt64 := Page.history.defaultCadence.toUInt64
  pool : UInt64 := Page.pool.defaultCadence.toUInt64
  blacklist : UInt64 := Page.blacklist.defaultCadence.toUInt64
  reverify : UInt64 := Page.reverify.defaultCadence.toUInt64
deriving DecidableEq, Repr

namespace Cadence

def of (c : Cadence) : Page → UInt64
  | .history => c.history
  | .pool => c.pool
  | .blacklist => c.blacklist
  | .reverify => c.reverify

def fieldNames : List String := ["history_ms", "pool_ms", "blacklist_ms", "reverify_ms"]

/-- The cadence with one field found by each name, or its default. -/
def ofFields [Monad m] (word : String → UInt64 → m UInt64) : m Cadence := do
  let usual : Cadence := {}
  return {
    history := ← word "history_ms" usual.history
    pool := ← word "pool_ms" usual.pool
    blacklist := ← word "blacklist_ms" usual.blacklist
    reverify := ← word "reverify_ms" usual.reverify }

def decode : Decoder Cadence := fun depth d => do
  let parts ← Decoder.fields fieldNames depth d
  ofFields fun name usual => Decoder.optional parts name usual Record.word64

end Cadence

/-- `baseUrl` is the root of the API. The debounce is the quiet time after the last edit of a filter, in
milliseconds; the timeout bounds one request, in seconds. -/
structure Config where
  baseUrl : String := "http://localhost:8089/api"
  debounce : UInt64 := 500
  timeout : UInt64 := 30
  cadence : Cadence := {}
deriving DecidableEq, Repr

/-- What makes settings invalid. -/
inductive InvalidSetting where
  | baseUrl (url : String)
  | timeout
  | cadence (page : Page)
deriving DecidableEq, Repr

namespace InvalidSetting

def field : InvalidSetting → String
  | .baseUrl _ => "base_url"
  | .timeout => "request_timeout_secs"
  | .cadence _ => "cadence"

private def problem : InvalidSetting → String
  | .baseUrl url => s!"'{url}' must start with http:// or https://"
  | .timeout => "must be at least 1"
  | .cadence page => s!"{page.name} cadence must be positive"

def message (i : InvalidSetting) : String :=
  s!"invalid config value for {i.field}: {i.problem}"

end InvalidSetting

/-- Why settings could not be loaded or saved. -/
inductive ConfigError where
  | unreadable (path : String) (problem : FileProblem)
  | unwritable (path : String) (problem : FileProblem)
  | malformed (path : String)
  | invalid (setting : InvalidSetting)
  | tooLarge (value : UInt64)
deriving DecidableEq, Repr

def ConfigError.message : ConfigError → String
  | .unreadable path problem => s!"failed to read config file {path}: {problem.message}"
  | .unwritable path problem => s!"failed to write config file {path}: {problem.message}"
  | .malformed path => s!"failed to parse config file {path}: not a valid configuration"
  | .invalid setting => setting.message
  | .tooLarge _ => "failed to serialize config: out-of-range value for u64 type"

namespace Config

def fieldNames : List String := ["base_url", "debounce_ms", "request_timeout_secs", "cadence"]

def decode : Decoder Config := fun depth d => do
  let parts ← Decoder.fields fieldNames depth d
  let usual : Config := {}
  return {
    baseUrl := ← Decoder.optional parts "base_url" usual.baseUrl Decoder.text
    debounce := ← Decoder.optional parts "debounce_ms" usual.debounce Record.word64
    timeout := ← Decoder.optional parts "request_timeout_secs" usual.timeout Record.word64
    cadence := ← Decoder.optional parts "cadence" usual.cadence Cadence.decode }

def textOf : Toml.Node → Option String
  | .scalar (.text s) => some s
  | _ => none

/-- A whole number that fits into 64 bits. -/
def wordOf : Toml.Node → Option UInt64
  | .scalar (.integer i) => if 0 ≤ i ∧ i < UInt64.size then some i.toNat.toUInt64 else none
  | _ => none

/-- The number under a name, or what is usual where it is missing. -/
def wordIn (members : Toml.Members) (name : String) (usual : UInt64) : Option UInt64 :=
  (members.lookup name).elim (some usual) wordOf

/-- A cadence is a table, or an array of the first fields in order. A date or a time counts as a table that
holds none of them. -/
def cadenceOf : Toml.Node → Option Cadence
  | .table _ members => Cadence.ofFields (wordIn members)
  | .array items => Cadence.ofFields (wordIn (Cadence.fieldNames.zip items))
  | .scalar .time => Cadence.ofFields (wordIn [])
  | _ => none

/-- The settings that a file's text gives. -/
def ofText? (text : String) : Option Config := do
  let members ← Toml.read text.toList
  let usual : Config := {}
  return {
    baseUrl := ← (members.lookup "base_url").elim (some usual.baseUrl) textOf
    debounce := ← wordIn members "debounce_ms" usual.debounce
    timeout := ← wordIn members "request_timeout_secs" usual.timeout
    cadence := ← (members.lookup "cadence").elim (some usual.cadence) cadenceOf }

/-- A file holds no number of 2⁶³ or more. -/
def numberText (n : UInt64) : Except ConfigError String :=
  if n ≤ 0x7FFFFFFFFFFFFFFF then .ok s!"{n}" else .error (.tooLarge n)

def pairText (key value : String) : String :=
  s!"{key} = {value}\n"

/-- The text of a file with these settings. -/
def toText (c : Config) : Except ConfigError String := do
  return String.join [
    pairText "base_url" (String.ofList (Toml.writeQuoted c.baseUrl.toList)),
    pairText "debounce_ms" (← numberText c.debounce),
    pairText "request_timeout_secs" (← numberText c.timeout),
    "\n[cadence]\n",
    pairText "history_ms" (← numberText c.cadence.history),
    pairText "pool_ms" (← numberText c.cadence.pool),
    pairText "blacklist_ms" (← numberText c.cadence.blacklist),
    pairText "reverify_ms" (← numberText c.cadence.reverify)]

def validate (c : Config) : Except InvalidSetting Unit :=
  if !(c.baseUrl.startsWith "http://" || c.baseUrl.startsWith "https://") then .error (.baseUrl c.baseUrl)
  else if c.timeout = 0 then .error .timeout
  else
    match Page.all.find? (c.cadence.of · = 0) with
    | some page => .error (.cadence page)
    | none => .ok ()

def validated (c : Config) : Except ConfigError Config :=
  (c.validate.mapError .invalid).map fun _ => c

/-- The valid settings of a file. -/
def load (files : Files) (path : String) : Except ConfigError Config := do
  let text ← (files.readText path).mapError (.unreadable path)
  match ofText? text with
  | some c => c.validated
  | none => .error (.malformed path)

/-- The settings of a file if there is one, with another base URL if one is given beside it. -/
def loadOrDefault (files : Files) (path : String) (api : Option String) : Except ConfigError Config := do
  let c ← if files.hasPath path then load files path else .ok {}
  match api with
  | some baseUrl => validated { c with baseUrl }
  | none => .ok c

/-- Saves settings, and creates the directories above their file. -/
def save (c : Config) (files : Files) (path : String) : Except ConfigError Files := do
  let text ← c.toText
  (do (← files.createParents path).write path (Text.Utf8.ofString text)).mapError (.unwritable path)

/-- Writes a file of defaults unless something is there already: the new files, if it was written. -/
def writeDefault (files : Files) (path : String) : Except ConfigError (Option Files) :=
  if files.hasPath path then .ok none else (save {} files path).map some

def timeoutMillis (c : Config) : Nat :=
  c.timeout.toNat * 1000

end Config
end ProxyMonitor
