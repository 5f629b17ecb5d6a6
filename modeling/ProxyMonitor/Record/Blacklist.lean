import ProxyMonitor.Record.Listing
/-! Proxies that the checker rejected. -/
namespace ProxyMonitor
open ProxyMonitor.Json ProxyMonitor.Time

structure BlacklistRecord where
  proxy : String := ""
  country : String := ""
  provider : String := ""
  asn : UInt32 := 0
  failure : String := ""
  sources : List String := []
deriving DecidableEq, Repr, Inhabited

namespace BlacklistRecord
open ProxyMonitor.Record

def fieldNames : List String :=
  ["Proxy", "Country", "Provider", "ASN", "Failure", "Sources"]

def decode : Decoder BlacklistRecord := fun depth d => do
  let parts ← Decoder.fields fieldNames depth d
  return {
    proxy := ← Decoder.optional parts "Proxy" "" Decoder.text
    country := ← Decoder.optional parts "Country" "" Decoder.text
    provider := ← Decoder.optional parts "Provider" "" Decoder.text
    asn := ← Decoder.optional parts "ASN" 0 word32
    failure := ← Decoder.optional parts "Failure" "" Decoder.text
    sources := ← Decoder.optional parts "Sources" [] (Decoder.list Decoder.text) }

def encode (r : BlacklistRecord) : Value :=
  .object [("Proxy", .text r.proxy), ("Country", .text r.country), ("Provider", .text r.provider),
    ("ASN", .nat r.asn.toNat), ("Failure", .text r.failure), ("Sources", .list .text r.sources)]

def listing : Listing BlacklistRecord where
  headers := ["Proxy", "Country", "Provider", "ASN", "Failure", "Sources"]
  cells _ r := [r.proxy, orDash r.country, orDash r.provider, s!"{r.asn}", orDash r.failure,
    ", ".intercalate r.sources]
  removalId r := some (removalName r.proxy)
  summary _ := .ok none

end BlacklistRecord
end ProxyMonitor
