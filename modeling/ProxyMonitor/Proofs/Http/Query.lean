import ProxyMonitor.Proofs.Http.Target
import ProxyMonitor.Proofs.Url.Form

/-! The server sees the query of the location: its pairs are written in the same way, and no pairs leave no mark. -/
namespace ProxyMonitor

theorem Url.addPairs_eq {u : Url} (bare : u.query = none) (pairs : Form.Pairs) :
    u.addPairs pairs = { u with query := if pairs.isEmpty then none else some (Form.write pairs) } := by
  have nothing : u.query.getD [] = [] := by rw [bare]; rfl
  unfold addPairs
  dsimp only
  rw [nothing, List.isEmpty_nil, Bool.true_or, if_pos rfl, List.nil_append, Form.isEmpty_write]

namespace Http.Client
open ProxyMonitor.Url (IsSite Settled root)
variable {text : List Char} {site : Url} {parts : List (List Char)}

/-- The request for a page goes to the site of the base, whatever slashes the base ends in. Its path is the base's without
those slashes and the endpoint. Without pairs there is no question mark in its target; with some, they are read from what
stands after it, which is the query of every location with these pairs. -/
theorem fetch_sends_query (h : IsSite text site) (settled : ∀ s ∈ parts, Settled s) (page : Page) (pairs : Url.Form.Pairs) :
    ∃ u : Url,
      (∀ (slashes timeout : Nat) (network : Network) {α : Type} (record : Json.Decoder α) (tag : Poll.Tag),
        ((below text parts slashes timeout).fetch network record ⟨page.endpoint, pairs, tag⟩).value.sent = outgoing .get u) ∧
      (∃ path query, u = { site with path, query }) ∧
      '?' ∉ root parts ++ page.endpoint.toList ∧
      (pairs = [] → u.target = root parts ++ page.endpoint.toList) ∧
      (pairs ≠ [] → ∃ query, u.target = root parts ++ page.endpoint.toList ++ '?' :: query ∧ Url.Form.read query = pairs ∧
        ∀ l : Location, l.pairs = pairs → l.query = String.ofList query) := by
  obtain ⟨word, single, plain, _⟩ := page.endpoint_eq
  obtain ⟨before, tidy, path, named⟩ := url_below h settled single plain
  have bare : ({ site with path := .segments (before ++ [word]) } : Url).query = none := by
    obtain ⟨host, port, site_eq⟩ := h.eq
    rw [site_eq]
  have added := Url.addPairs_eq bare pairs
  refine ⟨_, ?_, ⟨_, _, added⟩, ?_, ?_, ?_⟩
  · intro slashes timeout network α record tag
    exact fetch_sent h (r := ⟨page.endpoint, pairs, tag⟩) (named slashes timeout) network
  · rw [← path]
    intro mark
    exact absurd (tidy.endsPath mark) (by decide)
  · rintro rfl
    rw [added, ← path]
    exact List.append_nil _
  · intro some
    have given : pairs.isEmpty = false := List.isEmpty_eq_false_iff.mpr some
    refine ⟨Url.Form.write pairs, ?_, Url.Form.read_write pairs, fun l same => by rw [← same]; rfl⟩
    rw [added, ← path, given]
    rfl

/-- Duplicate keys, empty texts and everything that needs an escape. -/
def asked : Url.Form.Pairs :=
  [("filter", "Proxy:\"é\" & a=b+%2B#?"), ("", ""), ("x", ""), ("x", "\n")]

theorem fetch_sends_query_escaped :
    IsSite "http://[::1]:8089".toList loopback ∧ (∀ s ∈ ["api".toList, "v2".toList, "".toList], Settled s) ∧
    root ["api".toList, "v2".toList, "".toList] ++ Page.history.endpoint.toList = "/api/v2/history".toList ∧
    ∃ u : Url,
      (∀ (slashes timeout : Nat) (network : Network) (tag : Poll.Tag),
        ((below "http://[::1]:8089".toList ["api".toList, "v2".toList, "".toList] slashes timeout).fetch network
          (fun _ _ => none : Json.Decoder Unit) ⟨Page.history.endpoint, asked, tag⟩).value.sent = outgoing .get u) ∧
      ∃ query, u.target = "/api/v2/history".toList ++ '?' :: query ∧ Url.Form.read query = asked := by
  have settled : ∀ s ∈ ["api".toList, "v2".toList, "".toList], Settled s := by decide
  have path : root ["api".toList, "v2".toList, "".toList] ++ Page.history.endpoint.toList = "/api/v2/history".toList := by
    decide
  obtain ⟨u, sent, _, _, _, query⟩ := fetch_sends_query isSite_loopback settled .history asked
  obtain ⟨query, target, read, _⟩ := query (by decide)
  rw [path] at target
  exact ⟨isSite_loopback, settled, path, u, fun slashes timeout network tag => sent slashes timeout network _ tag, query,
    target, read⟩

end Http.Client
end ProxyMonitor
