import ProxyMonitor.Proofs.Http.Target

/-! Deletions name their records: the id is one segment below the collection and is read back from it, unless it has tabs
or line ends in it or is a dot or two. -/
namespace ProxyMonitor.Http.Client
open ProxyMonitor.Url (IsAddressable IsSite Names Settled root)
variable {text : List Char} {site : Url} {parts : List (List Char)}

/-- The request that deletes a record goes to the site of the base. Its target is the base's path and the endpoint and one
more segment which stands for the id, exactly if the id is addressable; such ids have targets of their own. Only dots lead
to the collection. -/
theorem removal_addresses (h : IsSite text site) (settled : ∀ s ∈ parts, Settled s) {page : Page} {endpoint : String}
    (removable : page.removalEndpoint = some endpoint) :
    ∃ target : String → Url,
      (∀ slashes timeout network id, ((below text parts slashes timeout).delete network endpoint id).value.sent =
        outgoing .delete (target id)) ∧
      (∀ id, ∃ path, target id = { site with path }) ∧
      (∀ id, Names (target id).target (root parts ++ endpoint.toList) id.toList ↔ IsAddressable id.toList) ∧
      (∀ id other, IsAddressable id.toList → IsAddressable other.toList → (target id).target = (target other).target →
        id = other) ∧
      ∀ id, (target id).target = root parts ++ endpoint.toList ↔ id = "." ∨ id = ".." := by
  obtain ⟨word, single, plain, some⟩ := page.removalEndpoint_eq removable
  obtain ⟨before, _, collection, named⟩ := url_below h settled single plain
  have deep : before ++ [word] ≠ [[]] := by
    intro same
    have last := congrArg List.getLast? same
    rw [List.getLast?_concat] at last
    exact some (Option.some.inj last)
  have push (id : String) :=
    Url.pushSegment?_eq (u := { site with path := .segments (before ++ [word]) }) h.special rfl deep id.toList
  have target (id : String) : Url.target { site with path := .segments (Url.pushed (before ++ [word]) id.toList) } =
      (Url.Path.segments (Url.pushed (before ++ [word]) id.toList)).write := by
    obtain ⟨host, port, site_eq⟩ := h.eq
    rw [site_eq]
    exact List.append_nil _
  have names (id : String) := Url.names_pushed before word id.toList
  refine ⟨fun id => { site with path := .segments (Url.pushed (before ++ [word]) id.toList) },
    fun slashes timeout network id => delete_sent h (named slashes timeout) (push id) network, fun id => ⟨_, rfl⟩, ?_, ?_, ?_⟩
  · intro id
    rw [target, ← collection]
    exact names id
  · intro id other addressable otherAddressable same
    rw [target, target] at same
    have named := (names id).mpr addressable
    rw [same] at named
    exact String.toList_inj.mp (named.text_eq ((names other).mpr otherAddressable))
  · intro id
    rw [target, ← collection, Url.write_pushed_eq_iff before some]
    simp [← String.toList_inj]

theorem removal_addresses_escaped :
    IsSite "http://[::1]:8089".toList loopback ∧ (∀ s ∈ ["api".toList, "".toList], Settled s) ∧
    Page.removalEndpoint .blacklist = some "/blacklist" ∧
    ∃ target : String → Url,
      (∀ slashes timeout network id,
        ((below "http://[::1]:8089".toList ["api".toList, "".toList] slashes timeout).delete network "/blacklist"
          id).value.sent = outgoing .delete (target id)) ∧
      Names (target "a/b%2F?#\\é. ").target "/api/blacklist".toList "a/b%2F?#\\é. ".toList := by
  have settled : ∀ s ∈ ["api".toList, "".toList], Settled s := by decide
  have addressable : IsAddressable "a/b%2F?#\\é. ".toList := by
    have kept : ("a/b%2F?#\\é. ".toList.all fun c => !Url.isDropped c) = true := by decide
    exact ⟨by decide, by decide, by simpa using kept⟩
  have removable : Page.removalEndpoint .blacklist = some "/blacklist" := rfl
  obtain ⟨target, sent, _, names, _⟩ := removal_addresses isSite_loopback settled removable
  exact ⟨isSite_loopback, settled, removable, target, sent, (names _).mpr addressable⟩

/-- Ids with tabs or line ends share the target of others, and dots lead out of the collection. -/
theorem removal_misses :
    let sent (id : String) :=
      ((ofBase "http://[::1]:8089/api" 5000).delete (fun _ _ => .refuses) "/blacklist" id).value.sent.map
        fun request => String.ofList request.2.target
    sent "a\tb" = some "/api/blacklist/ab" ∧ sent "ab" = some "/api/blacklist/ab" ∧ sent ".." = some "/api/blacklist" ∧
      sent ".\n." = some "/api/" := by
  refine ⟨by rfl, by rfl, by rfl, by rfl⟩

end ProxyMonitor.Http.Client
