import ProxyMonitor.Record.Listing
import ProxyMonitor.Readable
/-! Proxies that wait for another check. -/
namespace ProxyMonitor
open ProxyMonitor.Json ProxyMonitor.Time

structure ReverifyRecord where
  proxy : String := ""
  attempt : UInt32 := 0
  after : Option Instant := none
  country : String := ""
  provider : String := ""
  asn : UInt32 := 0
  failure : String := ""
  sources : List String := []
deriving DecidableEq, Repr, Inhabited

namespace ReverifyRecord
open ProxyMonitor.Record

def fieldNames : List String :=
  ["Proxy", "Attempt", "After", "Country", "Provider", "ASN", "Failure", "Sources"]

def decode : Decoder ReverifyRecord := fun depth d => do
  let parts ← Decoder.fields fieldNames depth d
  return {
    proxy := ← Decoder.optional parts "Proxy" "" Decoder.text
    attempt := ← Decoder.optional parts "Attempt" 0 word32
    after := ← Decoder.optional parts "After" none (Decoder.nullable instant)
    country := ← Decoder.optional parts "Country" "" Decoder.text
    provider := ← Decoder.optional parts "Provider" "" Decoder.text
    asn := ← Decoder.optional parts "ASN" 0 word32
    failure := ← Decoder.optional parts "Failure" "" Decoder.text
    sources := ← Decoder.optional parts "Sources" [] (Decoder.list Decoder.text) }

def encode (r : ReverifyRecord) : Value :=
  .object [("Proxy", .text r.proxy), ("Attempt", .nat r.attempt.toNat),
    ("After", .optional ofInstant r.after), ("Country", .text r.country), ("Provider", .text r.provider),
    ("ASN", .nat r.asn.toNat), ("Failure", .text r.failure), ("Sources", .list .text r.sources)]

def listing : Listing ReverifyRecord where
  headers := ["Proxy", "Attempt", "Next check", "Country", "Provider", "Failure"]
  cells now r := [r.proxy, s!"{r.attempt}", (r.after.map (Readable.age · now)).getD "-", orDash r.country,
    orDash r.provider, orDash r.failure]
  removalId r := some (removalName r.proxy)
  summary _ := .ok none

end ReverifyRecord
end ProxyMonitor
