import ProxyMonitor.Record.Listing
import ProxyMonitor.Readable
/-! Requests that went through the pool. -/
namespace ProxyMonitor
open ProxyMonitor.Json ProxyMonitor.Time ProxyMonitor.Text

/-- One request. `took` is in seconds. -/
structure HistoryRecord where
  id : UInt64 := 0
  serial : UInt64 := 0
  attempt : UInt32 := 0
  ts : Option Instant := none
  method : String := ""
  url : String := ""
  status : String := ""
  statusCode : UInt16 := 0
  proxy : String := ""
  appeared : UInt32 := 0
  size : UInt64 := 0
  took : Binary64 := Binary64.zero
deriving DecidableEq, Repr, Inhabited

namespace HistoryRecord
open ProxyMonitor.Record

def fieldNames : List String :=
  ["ID", "Serial", "Attempt", "Ts", "Method", "URL", "Status", "StatusCode", "Proxy", "Appeared", "Size",
    "Took"]

def decode : Decoder HistoryRecord := fun depth d => do
  let parts ← Decoder.fields fieldNames depth d
  return {
    id := ← Decoder.optional parts "ID" 0 word64
    serial := ← Decoder.optional parts "Serial" 0 word64
    attempt := ← Decoder.optional parts "Attempt" 0 word32
    ts := ← Decoder.optional parts "Ts" none (Decoder.nullable instant)
    method := ← Decoder.optional parts "Method" "" Decoder.text
    url := ← Decoder.optional parts "URL" "" Decoder.text
    status := ← Decoder.optional parts "Status" "" Decoder.text
    statusCode := ← Decoder.optional parts "StatusCode" 0 word16
    proxy := ← Decoder.optional parts "Proxy" "" Decoder.text
    appeared := ← Decoder.optional parts "Appeared" 0 word32
    size := ← Decoder.optional parts "Size" 0 word64
    took := ← Decoder.optional parts "Took" Binary64.zero Decoder.double }

def encode (r : HistoryRecord) : Value :=
  .object [("ID", .nat r.id.toNat), ("Serial", .nat r.serial.toNat), ("Attempt", .nat r.attempt.toNat),
    ("Ts", .optional ofInstant r.ts), ("Method", .text r.method), ("URL", .text r.url),
    ("Status", .text r.status), ("StatusCode", .nat r.statusCode.toNat), ("Proxy", .text r.proxy),
    ("Appeared", .nat r.appeared.toNat), ("Size", .nat r.size.toNat), ("Took", .double r.took)]

/-- What follows the first `://`, or everything. -/
def afterScheme (url : List Char) : List Char :=
  (find url).getD url
where
  find : List Char → Option (List Char)
    | ':' :: '/' :: '/' :: rest => some rest
    | _ :: rest => find rest
    | [] => none

/-- The URL from the first slash after its scheme; `/` if there is none. -/
def path (r : HistoryRecord) : String :=
  match (afterScheme r.url.toList).dropWhile (· != '/') with
  | [] => "/"
  | rest => String.ofList rest

def listing : Listing HistoryRecord where
  headers := ["Serial", "When", "Method", "Status", "Proxy", "Path", "Size", "Took"]
  cells now r := [
    if 1 < r.attempt then s!"{r.serial}/{r.attempt}" else s!"{r.serial}",
    (r.ts.map (Readable.age · now)).getD "-",
    orDash r.method,
    trimmed s!"{r.statusCode} {r.status}",
    orDash r.proxy,
    r.path,
    Readable.size r.size.toNat,
    Readable.seconds r.took]
  removalId _ := none
  summary
    | [] => .ok none
    | records => do
      let bytes ← total (records.map size)
      return some s!"{Readable.size bytes.toNat} transferred"

end HistoryRecord
end ProxyMonitor
