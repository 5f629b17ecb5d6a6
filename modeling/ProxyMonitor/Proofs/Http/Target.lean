import ProxyMonitor.Http.Client
import ProxyMonitor.Proofs.Url.Pushed
import ProxyMonitor.Proofs.Url.Site

/-! Where requests go: an endpoint stands right below the path of the base, however many slashes the base ends in. -/
namespace ProxyMonitor

namespace Url
open ProxyMonitor.Text
variable {text : List Char} {site : Url} {parts : List (List Char)}

/-- The path of segments without the slashes at its end. -/
def root (parts : List (List Char)) : List Char :=
  trimEnd (Path.segments parts).write (· == '/')

/-- It is the path of fewer segments. -/
theorem exists_write_eq_root (settled : ∀ s ∈ parts, Settled s) :
    ∃ before, (∀ s ∈ before, Settled s) ∧ (Path.segments before).write = root parts := by
  unfold root
  induction parts using List.reverseRecOn with
  | nil => exact ⟨[], nofun, rfl⟩
  | append_singleton parts last ih =>
    cases last using List.reverseRecOn with
    | nil =>
      obtain ⟨before, plain, write⟩ := ih fun s hs => settled s (List.mem_append_left _ hs)
      refine ⟨before, plain, ?_⟩
      rw [write_concat, trimEnd_concat, if_pos (by decide), write]
    | append_singleton last c =>
      have slash := (settled _ List.mem_concat_self).slash c List.mem_concat_self
      have other : ¬ (c == '/') = true := fun same => by simp [isSlash, same] at slash
      refine ⟨parts ++ [last ++ [c]], settled, ?_⟩
      rw [write_concat, ← List.cons_append, ← List.append_assoc, trimEnd_concat, if_neg other]

theorem IsSite.trimEnd (h : IsSite text site) : Text.trimEnd text (· == '/') = text := by
  obtain ⟨authority, plain, some, rfl, _⟩ := h.readAuthority
  cases authority using List.reverseRecOn with
  | nil => exact absurd rfl some
  | append_singleton authority c =>
    have slash := (plain c List.mem_concat_self).1
    have other : ¬ (c == '/') = true := fun same => by simp [isSlash, same] at slash
    have split (scheme : List Char) : scheme ++ ':' :: '/' :: '/' :: (authority ++ [c]) =
        (scheme ++ ':' :: '/' :: '/' :: authority) ++ [c] := by
      simp
    rw [split, trimEnd_concat, if_neg other]

end Url

/-- An endpoint is one segment. -/
theorem Page.endpoint_eq (page : Page) : ∃ word, page.endpoint.toList = '/' :: word ∧ Url.Settled word ∧ word ≠ [] := by
  cases page <;> exact ⟨_, rfl, by decide, by decide⟩

theorem Page.removalEndpoint_eq {page : Page} {endpoint : String} (h : page.removalEndpoint = some endpoint) :
    ∃ word, endpoint.toList = '/' :: word ∧ Url.Settled word ∧ word ≠ [] := by
  cases page <;> cases h <;> exact ⟨_, rfl, by decide, by decide⟩

namespace Http.Client
variable {text : List Char} {site u : Url} {parts : List (List Char)}

/-- A client whose base is a site, a path of segments and some more slashes. -/
def below (text : List Char) (parts : List (List Char)) (slashes timeout : Nat) : Client :=
  ofBase (String.ofList (text ++ (Url.Path.segments parts).write ++ List.replicate slashes '/')) timeout

theorem below_base (h : Url.IsSite text site) (parts : List (List Char)) (slashes timeout : Nat) :
    (below text parts slashes timeout).base = String.ofList (text ++ Url.root parts) := by
  unfold below ofBase
  rw [String.toList_ofList, Text.trimEnd_replicate (by decide), Text.trimEnd_append h.trimEnd]
  rfl

/-- The URL of an endpoint: the path of the base and the endpoint, on the same site. -/
theorem url_below (h : Url.IsSite text site) (settled : ∀ s ∈ parts, Url.Settled s) {endpoint : String} {word : List Char}
    (single : endpoint.toList = '/' :: word) (plain : Url.Settled word) :
    ∃ before, (Url.Path.segments (before ++ [word])).IsSettled ∧
      (Url.Path.segments (before ++ [word])).write = Url.root parts ++ endpoint.toList ∧
      ∀ slashes timeout, (below text parts slashes timeout).url endpoint =
        .ok { site with path := .segments (before ++ [word]) } := by
  obtain ⟨before, plainBefore, write⟩ := Url.exists_write_eq_root settled
  have target : (Url.Path.segments (before ++ [word])).write = Url.root parts ++ endpoint.toList := by
    rw [Url.write_concat, write, single]
  have path : (Url.Path.segments (before ++ [word])).IsSettled := by
    refine ⟨_, rfl, by simp, fun s hs => ?_⟩
    rcases List.mem_append.mp hs with hs | hs
    · exact plainBefore s hs
    · rw [List.mem_singleton.mp hs]
      exact plain
  refine ⟨before, path, target, fun slashes timeout => ?_⟩
  unfold url
  dsimp only
  rw [below_base h, String.toList_append, String.toList_ofList, List.append_assoc, ← target, h.read_path path]
  rfl

/-- What is sent for a URL. -/
def outgoing (method : Method) (u : Url) : Option (Method × Url) :=
  if isSendable u then some (method, u) else none

/-- A site names no one, and is never left out. -/
theorem requested_pairs (h : Url.IsSite text site) (path : Url.Path) (pairs : Url.Form.Pairs) :
    requested { site with path } (some pairs) =
      if isSendable (Url.addPairs { site with path } pairs) then .ok (Url.addPairs { site with path } pairs)
      else .error (.unnamable (String.ofList (Url.addPairs { site with path } pairs).write)) := by
  obtain ⟨host, port, site_eq⟩ := h.eq
  rw [site_eq]
  rfl

theorem requested_none (h : Url.IsSite text site) (path : Url.Path) :
    requested { site with path } none =
      if isSendable { site with path } then .ok { site with path }
      else .error (.unnamable (String.ofList (Url.write { site with path }))) := by
  obtain ⟨host, port, site_eq⟩ := h.eq
  rw [site_eq]
  rfl

section Sent
variable {c : Client} {path : Url.Path} (h : Url.IsSite text site)
include h

theorem fetch_sent {α : Type} {record : Json.Decoder α} {r : Live.Request} (named : c.url r.endpoint = .ok { site with path })
    (network : Network) :
    (c.fetch network record r).value.sent = outgoing .get (Url.addPairs { site with path } r.params) := by
  unfold fetch outgoing
  rw [named]
  simp only [Logged.value_bind, requested_pairs h]
  by_cases sendable : isSendable (Url.addPairs { site with path } r.params) = true
  · rw [if_pos sendable, if_pos sendable]
    rfl
  · rw [if_neg sendable, if_neg sendable]
    rfl

theorem delete_sent {endpoint id : String} {pushed : Url.Path} (named : c.url endpoint = .ok { site with path })
    (push : ({ site with path } : Url).pushSegment? id.toList = some { site with path := pushed }) (network : Network) :
    (c.delete network endpoint id).value.sent = outgoing .delete { site with path := pushed } := by
  unfold delete outgoing
  rw [named]
  dsimp only
  rw [push]
  simp only [Logged.value_bind, requested_none h]
  by_cases sendable : isSendable { site with path := pushed } = true
  · rw [if_pos sendable, if_pos sendable]
    rfl
  · rw [if_neg sendable, if_neg sendable]
    rfl

end Sent
/-- A site whose host is a number, for examples. -/
def loopback : Url :=
  { scheme := "http".toList, host := some (.ipv6 [0, 0, 0, 0, 0, 0, 0, 1]), port := some 8089, path := .segments [[]] }

theorem isSite_loopback : Url.IsSite "http://[::1]:8089".toList loopback := by
  have plain : ("[::1]:8089".toList.all fun c => !Url.isSlash true c && !Url.endsPath c && c != '@') = true := by decide
  simp only [List.all_eq_true, Bool.and_eq_true, Bool.not_eq_true', bne_iff_ne, and_assoc] at plain
  exact ⟨.inl rfl, ⟨"[::1]:8089".toList, plain, by decide⟩, by simp, by rfl⟩

end Http.Client
end ProxyMonitor
