import ProxyMonitor.Record.Listing
import ProxyMonitor.Readable
/-! Proxies of the working pool. -/
namespace ProxyMonitor
open ProxyMonitor.Json ProxyMonitor.Time

/-- One proxy. `firstSeen` and `lastSeen` are seconds since 1970, `speed` is in nanoseconds. -/
structure PoolRecord where
  proxy : String := ""
  firstSeen : Int64 := 0
  lastSeen : Int64 := 0
  reanimateAfter : Option Instant := none
  ok : Bool := false
  speed : UInt64 := 0
  seen : UInt32 := 0
  timeouts : UInt32 := 0
  offered : UInt64 := 0
  reanimated : UInt32 := 0
  succeed : UInt64 := 0
  hourOffered : List UInt64 := []
  hourSucceed : List UInt64 := []
  country : String := ""
  provider : String := ""
  asn : UInt32 := 0
deriving DecidableEq, Repr, Inhabited

namespace PoolRecord
open ProxyMonitor.Record

def fieldNames : List String :=
  ["Proxy", "FirstSeen", "LastSeen", "ReanimateAfter", "Ok", "Speed", "Seen", "Timeouts", "Offered",
    "Reanimated", "Succeed", "HourOffered", "HourSucceed", "Country", "Provider", "ASN"]

def decode : Decoder PoolRecord := fun depth d => do
  let parts ← Decoder.fields fieldNames depth d
  return {
    proxy := ← Decoder.optional parts "Proxy" "" Decoder.text
    firstSeen := ← Decoder.optional parts "FirstSeen" 0 int64
    lastSeen := ← Decoder.optional parts "LastSeen" 0 int64
    reanimateAfter := ← Decoder.optional parts "ReanimateAfter" none (Decoder.nullable instant)
    ok := ← Decoder.optional parts "Ok" false Decoder.bool
    speed := ← Decoder.optional parts "Speed" 0 word64
    seen := ← Decoder.optional parts "Seen" 0 word32
    timeouts := ← Decoder.optional parts "Timeouts" 0 word32
    offered := ← Decoder.optional parts "Offered" 0 word64
    reanimated := ← Decoder.optional parts "Reanimated" 0 word32
    succeed := ← Decoder.optional parts "Succeed" 0 word64
    hourOffered := ← Decoder.optional parts "HourOffered" [] (Decoder.list word64)
    hourSucceed := ← Decoder.optional parts "HourSucceed" [] (Decoder.list word64)
    country := ← Decoder.optional parts "Country" "" Decoder.text
    provider := ← Decoder.optional parts "Provider" "" Decoder.text
    asn := ← Decoder.optional parts "ASN" 0 word32 }

def encode (r : PoolRecord) : Value :=
  .object [("Proxy", .text r.proxy), ("FirstSeen", .int r.firstSeen.toInt), ("LastSeen", .int r.lastSeen.toInt),
    ("ReanimateAfter", .optional ofInstant r.reanimateAfter), ("Ok", .bool r.ok), ("Speed", .nat r.speed.toNat),
    ("Seen", .nat r.seen.toNat), ("Timeouts", .nat r.timeouts.toNat), ("Offered", .nat r.offered.toNat),
    ("Reanimated", .nat r.reanimated.toNat), ("Succeed", .nat r.succeed.toNat),
    ("HourOffered", .list (fun n => .nat n.toNat) r.hourOffered),
    ("HourSucceed", .list (fun n => .nat n.toNat) r.hourSucceed),
    ("Country", .text r.country), ("Provider", .text r.provider), ("ASN", .nat r.asn.toNat)]

def listing : Listing PoolRecord where
  headers :=
    ["Proxy", "Country", "Provider", "Ok", "Speed", "Seen", "Timeouts", "Offered", "Succeed", "Last seen"]
  cells now r := [
    r.proxy,
    orDash r.country,
    orDash r.provider,
    if r.ok then "yes" else "no",
    Readable.nanoseconds r.speed.toNat,
    s!"{r.seen}",
    s!"{r.timeouts}",
    s!"{r.offered}",
    s!"{r.succeed}",
    Readable.unixAge r.lastSeen.toInt now]
  removalId r := some (removalName r.proxy)
  summary
    | [] => .ok none
    | records => do
      let offered ← total (records.map offered)
      let succeed ← total (records.map succeed)
      return some s!"{offered} offered, {succeed} succeeded"

end PoolRecord
end ProxyMonitor
