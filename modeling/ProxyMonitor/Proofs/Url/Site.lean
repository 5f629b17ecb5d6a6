import ProxyMonitor.Proofs.Url.Authority

/-! Web addresses with a path: the site is read as it is alone, and the path as it is written. -/
namespace ProxyMonitor.Url
open ProxyMonitor.Text
variable {scheme authority text : List Char} {site : Url}

/-- The text is a web scheme, a host and perhaps a port, and is read as the site. -/
structure IsSite (text : List Char) (site : Url) : Prop where
  web : site.scheme = "http".toList ∨ site.scheme = "https".toList
  text_eq : ∃ authority, IsAuthority authority ∧ text = site.scheme ++ ':' :: '/' :: '/' :: authority
  visible : ∀ c ∈ text, 0x20 < c.toNat
  read : Url.read text = .ok site

theorem IsSite.special (h : IsSite text site) : isSpecial site.scheme = true := by
  rcases h.web with web | web <;> (rw [web]; decide)

theorem IsSite.noFile (h : IsSite text site) : isFile site.scheme = false := by
  rcases h.web with web | web <;> (rw [web]; decide)

/-- What is read after the scheme of a site and two slashes. -/
theorem read_web (web : scheme = "http".toList ∨ scheme = "https".toList) {rest : List Char}
    (visible : ∀ c ∈ scheme ++ ':' :: '/' :: '/' :: rest, 0x20 < c.toNat) :
    Url.read (scheme ++ ':' :: '/' :: '/' :: rest) = readAuthority scheme (rest.dropWhile (isSlash true)) := by
  have split : splitScheme (scheme ++ ':' :: '/' :: '/' :: rest) = some (scheme, '/' :: '/' :: rest) := by
    rcases web with rfl | rfl <;> rfl
  have absolute : readAbsolute scheme ('/' :: '/' :: rest) = readAuthority scheme (rest.dropWhile (isSlash true)) := by
    rcases web with rfl | rfl <;> rfl
  rw [Url.read, prepared_eq_self visible, split]
  exact absolute

/-- A host is never left out. -/
theorem readAuthority_nil (special : isSpecial scheme = true) : readAuthority scheme [] = .error .emptyHost := by
  rw [readAuthority_eq special rfl]
  rfl

theorem IsAuthority.dropWhile_append (plain : IsAuthority authority) (some : authority ≠ []) (more : List Char) :
    (authority ++ more).dropWhile (isSlash true) = authority ++ more := by
  cases authority with
  | nil => exact absurd rfl some
  | cons c rest =>
    rw [List.cons_append, List.dropWhile_cons_of_neg]
    simp [(plain c List.mem_cons_self).1]

/-- The parts of a site, each of them read from its text. -/
theorem IsSite.readAuthority (h : IsSite text site) :
    ∃ authority, IsAuthority authority ∧ authority ≠ [] ∧ text = site.scheme ++ ':' :: '/' :: '/' :: authority ∧
      Url.readAuthority site.scheme authority = .ok site := by
  obtain ⟨authority, plain, rfl⟩ := h.text_eq
  have read := h.read
  rw [read_web h.web h.visible] at read
  have some : authority ≠ [] := by
    rintro rfl
    rw [List.dropWhile_nil, readAuthority_nil h.special] at read
    cases read
  have dropped := plain.dropWhile_append some []
  rw [List.append_nil] at dropped
  rw [dropped] at read
  exact ⟨authority, plain, some, rfl, read⟩

theorem IsSite.eq (h : IsSite text site) :
    ∃ host port, site = { scheme := site.scheme, host := some host, port, path := .segments [[]] } := by
  obtain ⟨authority, plain, _, _, read⟩ := h.readAuthority
  exact readAuthority_eq_ok h.special h.noFile plain read

theorem finishPath_settled (special : isSpecial site.scheme = true) (noFile : isFile site.scheme = false) {path : Path}
    (settled : path.IsSettled) : finishPath site path.write = { site with path, fragment := none } := by
  obtain ⟨parts, rfl, some, plain⟩ := id settled
  have ends : ∀ c ∈ (Path.segments parts).write, endsPath c = false := fun c hc => settled.endsPath hc
  obtain ⟨before, after⟩ := pathEnd_part ends none
  rw [part, List.append_nil] at before after
  simp only [finishPath, before, after, special, Bool.not_true, Bool.false_and, Bool.false_eq_true, if_false]
  rw [write_segments some]
  simp only [afterSlash, isSlash, BEq.rfl, Bool.true_or, if_true]
  rw [readPath_intercalate special noFile some plain]
  rfl

/-- A site and a settled path after it are read as both. -/
theorem IsSite.read_path (h : IsSite text site) {path : Path} (settled : path.IsSettled) :
    Url.read (text ++ path.write) = .ok { site with path } := by
  have visible : ∀ c ∈ text ++ path.write, 0x20 < c.toNat := by
    intro c hc
    rcases List.mem_append.mp hc with hc | hc
    · exact h.visible c hc
    · exact (settled.isGraphic hc).1
  have stop : EndsAuthority path.write := by
    obtain ⟨parts, rfl, some, _⟩ := settled
    rw [write_segments some]
    rintro c ⟨⟩
    exact .inl rfl
  obtain ⟨host, port, site_eq⟩ := h.eq
  obtain ⟨authority, plain, some, rfl, read⟩ := h.readAuthority
  rw [List.append_assoc] at visible ⊢
  simp only [List.cons_append] at visible ⊢
  rw [read_web h.web visible, plain.dropWhile_append some, readAuthority_append h.special plain stop, read, Except.map,
    finishPath_settled h.special h.noFile settled, site_eq]

end ProxyMonitor.Url
