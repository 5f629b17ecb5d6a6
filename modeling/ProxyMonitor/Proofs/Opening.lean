import Mathlib.Data.List.TakeWhile
import ProxyMonitor.Command.Run
import ProxyMonitor.Proofs.LocationText
import ProxyMonitor.Proofs.Url.Authority

/-! Opening what is shown. A path leads to a page whatever slashes stand around the page's name, but two slashes at the
start of a text stand before a host. -/
namespace ProxyMonitor
open ProxyMonitor.Text

namespace Page

/-- The words that lead to a page. -/
def words : List (List Char) :=
  ["history".toList, "pool".toList, "blacklist".toList, "reverify".toList, "proxies".toList]

theorem word_of_ofPath? {path : String} {page : Page} (h : ofPath? path = some page) :
    trim path.toList (· == '/') ∈ words := by
  unfold ofPath? at h
  dsimp only at h
  generalize trim path.toList (· == '/') = bare at h ⊢
  rcases Option.or_eq_some_iff.mp h with named | ⟨-, other⟩
  · have named := List.find?_some named
    rw [beq_iff_eq] at named
    have bare : bare = page.name.toList := by rw [named, String.toList_ofList]
    rw [bare]
    cases page <;> decide
  · split at other
    · rename_i title
      have bare : bare = "proxies".toList := by rw [← title, String.toList_ofList]
      rw [bare]
      decide
    · cases other

/-- The words are made of small letters, which are read as they are. -/
theorem plain_of_word {word : List Char} (h : word ∈ words) :
    Url.Settled word ∧ (∀ c ∈ word, c.isLower = true) ∧ word ≠ [] := by
  have plain : (words.all fun word => Url.isSettled word && word.all Char.isLower && !word.isEmpty) = true := by
    decide
  simp only [List.all_eq_true, Bool.and_eq_true, Url.isSettled_iff, Bool.not_eq_true', List.isEmpty_eq_false_iff,
    and_assoc] at plain
  exact plain word h

/-- A path that leads to a page is a word between slashes. -/
theorem path_of_ofPath? {path : String} {page : Page} (h : ofPath? path = some page) :
    ∃ before after, ∃ word ∈ words,
      path.toList = List.replicate before '/' ++ word ++ List.replicate after '/' := by
  obtain ⟨front, back, parts, hfront, hback⟩ := trim_parts path.toList (· == '/')
  have slashes {text : List Char} (h : ∀ c ∈ text, (c == '/') = true) : text = List.replicate text.length '/' :=
    List.eq_replicate_of_mem fun c hc => eq_of_beq (h c hc)
  exact ⟨front.length, back.length, _, word_of_ofPath? h, by rw [← slashes hfront, ← slashes hback]; exact parts⟩

theorem ofPath?_congr {path other : String} (h : trim path.toList (· == '/') = trim other.toList (· == '/')) :
    ofPath? path = ofPath? other := by
  unfold ofPath?
  rw [h]

/-- Slashes alone lead to no page. -/
theorem ofPath?_slashes (n : Nat) : ofPath? (String.ofList (List.replicate n '/')) = none := by
  have nothing : trim (List.replicate n '/') (· == '/') = [] := by
    rw [trim, trimStart, List.dropWhile_eq_nil_iff.mpr fun c hc => by simp [List.eq_of_mem_replicate hc]]
    rfl
  unfold ofPath?
  rw [String.toList_ofList, nothing]
  decide

end Page

namespace Location
variable {l : Location} {word : List Char} {before after : Nat}

/-- A path that is a word between slashes. -/
structure IsWord (l : Location) (word : List Char) (before after : Nat) : Prop where
  mem : word ∈ Page.words
  path_eq : l.path.toList = List.replicate before '/' ++ word ++ List.replicate after '/'

theorem isWord_of_page? {page : Page} (h : l.page? = some page) : ∃ word before after, l.IsWord word before after := by
  obtain ⟨before, after, word, mem, path⟩ := Page.path_of_ofPath? h
  exact ⟨word, before, after, mem, path⟩

theorem IsWord.not_slash (h : l.IsWord word before after) {more : List Char} : ¬ ['/'] <+: word ++ more := by
  obtain ⟨settled, _, some⟩ := Page.plain_of_word h.mem
  cases word with
  | nil => exact absurd rfl some
  | cons c rest =>
    rintro ⟨_, same⟩
    have first : c = '/' := (List.cons.inj same).1.symm
    exact absurd (settled.slash c List.mem_cons_self) (by rw [first]; decide)

theorem IsWord.two_slashes_iff (h : l.IsWord word before after) : "//".toList <+: l.path.toList ↔ 2 ≤ before := by
  rw [h.path_eq, List.append_assoc]
  constructor
  · intro slashes
    by_contra few
    have cases : before = 0 ∨ before = 1 := by omega
    rcases cases with rfl | rfl
    · exact h.not_slash ((List.prefix_append ['/'] ['/']).trans slashes)
    · exact h.not_slash ((List.cons_prefix_cons.mp slashes).2)
  · intro many
    obtain ⟨n, rfl⟩ := Nat.exists_eq_add_of_le' many
    exact ⟨List.replicate n '/' ++ (word ++ List.replicate after '/'), rfl⟩

/-- With one slash before it, the word is a path that is read as it is. -/
theorem IsWord.isRooted (h : l.IsWord word 1 after) : l.IsRooted (Url.pathOf word after) := by
  have path : (Url.pathOf word after).write = l.path.toList := by rw [Url.pathOf_write, h.path_eq]; rfl
  refine ⟨(Page.plain_of_word h.mem).1.pathOf after, ?_, ?_⟩
  · rw [path, h.two_slashes_iff]
    decide
  · rw [path, String.ofList_toList]

/-- The text of such a location has no characters that would be dropped. -/
theorem IsWord.isGraphic (h : l.IsWord word before after) : ∀ c ∈ l.text.toList, Url.IsGraphic c := by
  intro c hc
  rw [l.text_toList (.bare []), h.path_eq] at hc
  simp only [List.mem_append, List.mem_replicate] at hc
  rcases hc with ((⟨_, rfl⟩ | hc) | ⟨_, rfl⟩) | hc
  · exact ⟨by decide, by decide⟩
  · obtain ⟨ascii, plain⟩ := (Page.plain_of_word h.mem).1.plain c hc
    exact Url.isGraphic_of_path ascii plain
  · exact ⟨by decide, by decide⟩
  · exact Url.isGraphic_of_mem_part (l.plain_query _) hc

theorem IsWord.trim_text (h : l.IsWord word before after) : trim l.text.toList = l.text.toList :=
  trim_eq_self fun c hc => Url.not_isBlank_of_isGraphic (h.isGraphic c hc)

theorem IsWord.isAuthority (h : l.IsWord word before after) : Url.IsAuthority word := by
  obtain ⟨settled, letters, _⟩ := Page.plain_of_word h.mem
  intro c hc
  have small := letters c hc
  refine ⟨settled.slash c hc, Bool.eq_false_iff.mpr fun mark => ?_, ?_⟩
  · rcases Url.eq_of_endsPath mark with rfl | rfl <;> exact absurd small (by decide)
  · rintro rfl
    exact absurd small (by decide)

/-- What stands after the word ends a host. -/
theorem endsAuthority_after (after : Nat) (query : Option (List Char)) :
    Url.EndsAuthority (List.replicate after '/' ++ Url.part '?' query) := by
  cases after with
  | zero =>
    cases query with
    | none => nofun
    | some q =>
      rintro c ⟨⟩
      exact .inr (by decide)
  | succ n =>
    rintro c ⟨⟩
    exact .inl rfl

/-- The same location on the path from the root. -/
def rooted (l : Location) : Location :=
  { l with path := "/" ++ l.path }

theorem IsWord.rooted (h : l.IsWord word before after) : l.rooted.IsWord word (before + 1) after :=
  ⟨h.mem, by simp [Location.rooted, h.path_eq, List.replicate_succ]⟩

theorem rooted_text (l : Location) : l.rooted.text.toList = '/' :: l.text.toList := by
  rw [l.rooted.text_toList (.bare []), l.text_toList (.bare [])]
  simp [rooted, toUrl]

theorem rooted_page? (l : Location) : l.rooted.page? = l.page? := by
  refine Page.ofPath?_congr ?_
  have path : (l.rooted.path).toList = '/' :: l.path.toList := by simp [rooted]
  rw [path, trim_cons (by decide)]

/-- A word without a slash before it is read as with one. -/
theorem IsWord.read_text (h : l.IsWord word 0 after) : read l.text = .ok l.rooted := by
  have same : base.join l.text.toList = base.join ('/' :: l.text.toList) := by
    have path : l.text.toList = word ++ (List.replicate after '/' ++ Url.part '?' (l.toUrl (.bare [])).query) := by
      rw [l.text_toList (.bare []), h.path_eq]
      simp
    obtain ⟨_, letters, some⟩ := Page.plain_of_word h.mem
    have graphic := h.isGraphic
    cases word with
    | nil => exact absurd rfl some
    | cons c rest =>
      rw [path] at graphic ⊢
      obtain ⟨slash, mark, _⟩ := h.isAuthority c List.mem_cons_self
      exact Url.join_root rfl slash mark graphic
        (Url.splitScheme_word letters (endsAuthority_after _ _))
  have rooted := h.rooted.isRooted.read_text
  rw [read, h.rooted.trim_text, rooted_text] at rooted
  rw [read, h.trim_text, same, rooted]

/-- After two slashes the word is a host, and leads to no page. -/
theorem IsWord.page?_read (h : l.IsWord word (before + 2) after) {found : Location} (read : read l.text = .ok found) :
    found.page? = none := by
  have special : Url.isSpecial base.scheme = true := by decide
  have noFile : Url.isFile base.scheme = false := by decide
  obtain ⟨query, text⟩ : ∃ query, l.text.toList =
      '/' :: '/' :: (List.replicate before '/' ++ (word ++ (List.replicate after '/' ++ Url.part '?' query))) := by
    refine ⟨(l.toUrl (.bare [])).query, ?_⟩
    rw [l.text_toList (.bare []), h.path_eq]
    simp [List.replicate_succ]
  have graphic := h.isGraphic
  rw [text] at graphic
  rw [Location.read, h.trim_text, text, Url.join_slashes base graphic] at read
  cases before with
  | zero =>
    rw [List.replicate_zero, List.nil_append,
      Url.readAuthority_append special h.isAuthority (endsAuthority_after _ _)] at read
    cases site : Url.readAuthority base.scheme word with
    | error problem =>
      rw [site] at read
      cases read
    | ok site =>
      obtain ⟨host, port, rfl⟩ := Url.readAuthority_eq_ok special noFile h.isAuthority site
      have slashes : ∀ c ∈ List.replicate after '/', Url.endsPath c = false := by
        intro c hc
        rw [List.eq_of_mem_replicate hc]
        decide
      have path : Url.beforePathEnd (List.replicate after '/' ++ Url.part '?' query) = List.replicate after '/' :=
        (Url.pathEnd_part slashes _).1
      rw [site] at read
      cases read
      dsimp only [page?]
      rw [Url.finishPath_path, path, special, Bool.not_true, Bool.false_and, if_neg (by decide),
        Url.write_readPath_slashes special noFile]
      exact Page.ofPath?_slashes _
  | succ n =>
    -- more slashes leave no host at all
    have stop : Url.EndsAuthority
        (List.replicate (n + 1) '/' ++ (word ++ (List.replicate after '/' ++ Url.part '?' query))) := by
      rintro c ⟨⟩
      exact .inl rfl
    have empty : Url.IsAuthority [] := fun _ none => absurd none List.not_mem_nil
    have append := Url.readAuthority_append special empty stop
    rw [List.nil_append] at append
    rw [append] at read
    cases read

end Location

namespace Command
variable {asked page : Page} {raw : String} {l : Location}

theorem opening_eq_ok :
    opening asked (some raw) = .ok (page, l) ↔ Location.read raw = .ok l ∧ l.page? = some page := by
  cases read : Location.read raw with
  | error problem => simp [opening, read]
  | ok found =>
    cases named : found.page? with
    | none =>
      have refused : ∀ same : found = l, l.page? ≠ some page := by
        rintro rfl
        simp [named]
      simpa [opening, read, named] using refused
    | some other =>
      simp only [opening, read, named, Except.ok.injEq, Prod.mk.injEq]
      constructor
      · rintro ⟨rfl, rfl⟩
        exact ⟨rfl, named⟩
      · rintro ⟨rfl, same⟩
        exact ⟨Option.some.inj (named.symm.trans same), rfl⟩

/-- The text of a location that was opened opens the same page with the same pairs, unless its path begins with two
slashes. Then the page's name is read as a host, and nothing is opened. -/
theorem shown_text_reopens (opened : opening asked (some raw) = .ok (page, l)) (again : Page) :
    (¬ "//".toList <+: l.path.toList →
      ∃ found, opening again (some l.text) = .ok (page, found) ∧ found.pairs = l.pairs) ∧
    ("//".toList <+: l.path.toList → ∀ found, opening again (some l.text) ≠ .ok found) := by
  have named : l.page? = some page := (opening_eq_ok.mp opened).2
  obtain ⟨word, before, after, shape⟩ := Location.isWord_of_page? named
  rw [shape.two_slashes_iff]
  refine ⟨fun few => ?_, fun many found opened => ?_⟩
  · have cases : before = 0 ∨ before = 1 := by omega
    rcases cases with rfl | rfl
    · exact ⟨l.rooted, opening_eq_ok.mpr ⟨shape.read_text, l.rooted_page?.trans named⟩, rfl⟩
    · exact ⟨l, opening_eq_ok.mpr ⟨shape.isRooted.read_text, named⟩, rfl⟩
  · obtain ⟨n, rfl⟩ := Nat.exists_eq_add_of_le' many
    obtain ⟨read, page⟩ := opening_eq_ok.mp opened
    rw [shape.page?_read read] at page
    cases page

/-- A page without a slash before it but with some after it, and an escaped filter. -/
def bareProxies : Location :=
  ⟨"proxies//", [("x", "1"), ("filter", "a b+c")]⟩

theorem opening_bare : opening .history (some " web+x:proxies//?x=1&filter=a+b%2Bc#top") = .ok (.pool, bareProxies) := by
  have joined : Location.base.join (trim " web+x:proxies//?x=1&filter=a+b%2Bc#top".toList) = .ok {
      scheme := "web+x".toList, path := .bare "proxies//".toList
      query := some "x=1&filter=a+b%2Bc".toList, fragment := some "top".toList } := by
    rfl
  have pairs : Url.Form.read "x=1&filter=a+b%2Bc".toList = bareProxies.pairs := by
    have written : Url.Form.write bareProxies.pairs = "x=1&filter=a+b%2Bc".toList := by decide
    rw [← written, Url.Form.read_write]
  refine opening_eq_ok.mpr ⟨?_, by decide⟩
  rw [Location.read, joined]
  simp only [Except.map, Url.queryPairs, Option.getD_some, pairs]
  rfl

theorem shown_text_reopens_bare :
    opening .history (some " web+x:proxies//?x=1&filter=a+b%2Bc#top") = .ok (.pool, bareProxies) ∧
    ¬ "//".toList <+: bareProxies.path.toList ∧
    ∃ found, opening .history (some bareProxies.text) = .ok (.pool, found) ∧ found.pairs = bareProxies.pairs := by
  have single : ¬ "//".toList <+: bareProxies.path.toList := by decide
  exact ⟨opening_bare, single, (shown_text_reopens opening_bare .history).1 single⟩

/-- What is shown of a page after two slashes cannot be opened. -/
theorem slashes_not_reopened :
    opening .history (some "/.//history") = .ok (.history, ⟨"//history", []⟩) ∧
    Location.text ⟨"//history", []⟩ = "//history" ∧ ∀ found, opening .history (some "//history") ≠ .ok found := by
  have shape : Location.IsWord ⟨"//history", []⟩ "history".toList 2 0 := ⟨by decide, by decide⟩
  refine ⟨opening_eq_ok.mpr ⟨by rfl, by decide⟩, by decide, fun found opened => ?_⟩
  obtain ⟨read, page⟩ := opening_eq_ok.mp opened
  rw [shape.page?_read read] at page
  cases page

end Command
end ProxyMonitor
