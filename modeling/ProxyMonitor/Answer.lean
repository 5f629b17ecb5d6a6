import ProxyMonitor.Facet
import ProxyMonitor.Failure
import ProxyMonitor.Http.Status
import ProxyMonitor.Json.Problem
/-! Answers to queries: a page of records with the number of all that match, and facets. -/
namespace ProxyMonitor
open ProxyMonitor.Json ProxyMonitor.Http

structure Answer (α : Type) where
  total : UInt64
  records : List α := []
  facets : Option (List Facet) := none
deriving DecidableEq, Repr

namespace Answer

def decode (record : Decoder α) : Decoder (Answer α) := fun depth d => do
  let parts ← Decoder.fields ["Total", "Records", "Facets"] depth d
  return {
    total := (← Decoder.required parts "Total" (Decoder.natural UInt64.size)).toUInt64
    records := ← Decoder.optional parts "Records" [] (Decoder.listOrNull record)
    facets := ← Decoder.optional parts "Facets" none (Decoder.nullable (Decoder.list Facet.decode)) }

/-- Facets are left out where there are none. -/
def encode (record : α → Value) (a : Answer α) : Value :=
  .object ([("Total", .nat a.total.toNat), ("Records", .list record a.records)] ++
    match a.facets with
    | none => []
    | some facets => [("Facets", .list Facet.encode facets)])

/-- The message of an error answer's body. -/
def decodeMessage : Decoder String := fun depth d => do
  Decoder.required (← Decoder.fields ["Message"] depth d) "Message" Decoder.text

/-- What an answer with an error status means: the body's message if it has one, else the reason. -/
def failureOf (status : Status) (body : List UInt8) : Failure :=
  match Decoder.run decodeMessage body with
  | some message => .application status.code (if message.isEmpty then status.text else message)
  | none => .application status.code status.text

/-- What an answer means. -/
def ofResponse (record : Decoder α) (status : Status) (body : List UInt8) : Except Failure (Answer α) :=
  if status.isSuccess then
    match Decoder.run (decode record) body with
    | some answer => .ok answer
    | none => .error (.transport (.undecodable (problemOf body)))
  else .error (failureOf status body)

/-- There is an answer when its body is read. -/
theorem ofResponse_eq_ok {record : Decoder α} {status : Status} (success : status.isSuccess = true) {body : List UInt8}
    {a : Answer α} : ofResponse record status body = .ok a ↔ Decoder.run (decode record) body = some a := by
  rw [ofResponse, if_pos success]
  cases Decoder.run (decode record) body <;> simp

end Answer
end ProxyMonitor
