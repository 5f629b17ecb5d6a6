import ProxyMonitor.Proofs.Live.Results
import ProxyMonitor.Proofs.Url.Form
import ProxyMonitor.Proofs.Url.Join

/-! The text of a location is read as the location, whatever its pairs have become: the path was settled when it was
read, and no edit touches it. -/
namespace ProxyMonitor
open ProxyMonitor.Text

namespace Location
variable {l : Location} {url : Url}

/-- Paths that are read as they are written. -/
structure IsRooted (l : Location) (path : Url.Path) : Prop where
  settled : path.IsSettled
  slashes : ¬ "//".toList <+: path.write
  path_eq : l.path = String.ofList path.write

theorem IsRooted.congr {k : Location} {path : Url.Path} (h : l.IsRooted path) (same : k.path = l.path) :
    k.IsRooted path :=
  ⟨h.settled, h.slashes, same.trans h.path_eq⟩

/-- Characters of a written query are in no need of an escape. -/
theorem plain_of_mem_write {pairs : Url.Form.Pairs} {c : Char} (h : c ∈ Url.Form.write pairs) :
    c.toNat < 0x80 ∧ Url.Percent.specialQuery c = false := by
  have encoded : Url.Form.isEncoded c = true ∨ c = '=' ∨ c = '&' := Url.Form.mem_write h
  have ascii : c.toNat < 0x80 := by
    rcases encoded with encoded | rfl | rfl
    · exact Url.Form.toNat_lt_of_isEncoded encoded
    · decide
    · decide
  refine ⟨ascii, ?_⟩
  have plain : Url.Form.isEncoded c = true ∨ c = '=' ∨ c = '&' → Url.Percent.specialQuery c = false :=
    of_ascii (p := fun c => Url.Form.isEncoded c = true ∨ c = '=' ∨ c = '&' → Url.Percent.specialQuery c = false)
      (by decide) ascii
  exact plain encoded

/-- The location as a URL of the host that locations are read against. -/
def toUrl (l : Location) (path : Url.Path) : Url :=
  { base with path, query := if l.pairs.isEmpty then none else some (Url.Form.write l.pairs) }

theorem plain_query (l : Location) (path : Url.Path) :
    ∀ q, (l.toUrl path).query = some q → ∀ c ∈ q, c.toNat < 0x80 ∧ Url.Percent.specialQuery c = false := by
  intro q hq c hc
  have hq : (if l.pairs.isEmpty then none else some (Url.Form.write l.pairs)) = some q := hq
  split at hq
  · cases hq
  · cases hq
    exact plain_of_mem_write hc

theorem IsRooted.isPlain {path : Url.Path} (h : l.IsRooted path) : (l.toUrl path).IsPlain :=
  ⟨h.settled, l.plain_query path⟩

theorem text_toList (l : Location) (path : Url.Path) :
    l.text.toList = l.path.toList ++ Url.part '?' (l.toUrl path).query := by
  unfold text toUrl
  split
  · simp [Url.part]
  · simp [Url.part, query, toString]

theorem IsRooted.text_eq_target {path : Url.Path} (h : l.IsRooted path) : l.text.toList = (l.toUrl path).target := by
  rw [l.text_toList path, h.path_eq, String.toList_ofList]
  rfl

theorem queryPairs_toUrl (l : Location) (path : Url.Path) : (l.toUrl path).queryPairs = l.pairs := by
  unfold Url.queryPairs toUrl
  cases pairs : l.pairs with
  | nil => rfl
  | cons pair rest => exact Url.Form.read_write _

theorem IsRooted.read_text {path : Url.Path} (h : l.IsRooted path) : read l.text = .ok l := by
  have trimmed : trim (l.toUrl path).target = (l.toUrl path).target :=
    trim_eq_self fun c hc => Url.not_isBlank_of_isGraphic (h.isPlain.isGraphic_of_mem hc)
  have joined : base.join (l.toUrl path).target = .ok (l.toUrl path) :=
    Url.join_target h.isPlain h.slashes (by decide) (by decide)
  have back : ({ path := String.ofList (l.toUrl path).path.write, pairs := (l.toUrl path).queryPairs } : Location) = l := by
    rw [queryPairs_toUrl]
    exact congrArg (Location.mk · l.pairs) h.path_eq.symm
  rw [read, h.text_eq_target, trimmed, joined]
  exact congrArg Except.ok back

/-- What is read from a text has a path that is read as it is written, unless it begins with two slashes. -/
theorem isRooted_of_join {text : List Char} (h : base.join text = .ok url) (special : Url.isSpecial url.scheme = true)
    (noFile : Url.isFile url.scheme = false) (slashes : ¬ "//".toList <+: url.path.write) (pairs : Url.Form.Pairs) :
    IsRooted { path := String.ofList url.path.write, pairs } url.path := by
  have root : base.IsTidy := fun _ _ => ⟨[[]], rfl, by simp, by simpa using Url.Settled.nil⟩
  exact ⟨Url.tidies_join root rfl text url h special noFile, slashes, rfl⟩

theorem isRooted_ofPage (page : Page) : (ofPage page).IsRooted (.segments [page.name.toList]) := by
  have settled : Url.Settled page.name.toList := by cases page <;> decide
  refine ⟨⟨_, rfl, by simp, by simpa using settled⟩, ?_, ?_⟩
  · cases page <;> decide
  · cases page <;> decide +kernel

/-- A change of the pairs. -/
inductive Edit where
  | set (key value : String)
  | remove (key : String)

def edit (l : Location) : Edit → Location
  | .set key value => l.set key value
  | .remove key => l.remove key

@[simp] theorem edit_path (l : Location) (e : Edit) : (l.edit e).path = l.path := by
  cases e with
  | set key value => exact set_path l key value
  | remove key => rfl

theorem foldl_edit_path (l : Location) (edits : List Edit) : (edits.foldl edit l).path = l.path := by
  induction edits generalizing l with
  | nil => rfl
  | cons e edits ih => rw [List.foldl_cons, ih, edit_path]

end Location

namespace Live
open ProxyMonitor.Poll
variable {α : Type} {endpoint : String} {location : Location} {schedule : Schedule} {service : Service α}
  {past : List (Moment α)} {s : Session α}

theorem View.handle_path (v : View α) (now : Nat) (e : Event α) :
    (v.handle now e).value.2.location.path = v.location.path := by
  rcases handle_location v now e with same | ⟨value, changed⟩
  · rw [same]
  · rw [changed, Location.setFilter_path]

/-- A view stays on the path that it was mounted for. -/
theorem Run.path_eq (run : Run (Session.mount endpoint location schedule service).value past s) :
    s.view.location.path = location.path := by
  induction run with
  | start => rfl
  | ask _ asked ih =>
    obtain ⟨_, _, _, rfl⟩ := asked.eq_with
    exact ih
  | make now m _ _ ih =>
    cases m with
    | event e => rw [Session.make, Session.react_view, View.handle_path, ih]
    | handOver | crash | leave => exact ih

end Live

namespace Location
open ProxyMonitor.Live ProxyMonitor.Poll

/-- The text of a location is read as the location: same path, and the same pairs in the same order. The location is
read from a text that names a page of a web host, and then edited in any way. A view that is mounted there or at the
location of a page shows a location whose text is read as what it shows, with the filter that it shows. -/
theorem text_read_back {text : String} {url : Url} (named : base.join (trim text.toList) = .ok url)
    (web : url.scheme = "http".toList ∨ url.scheme = "https".toList) (slashes : ¬ "//".toList <+: url.path.write)
    (edits : List Edit) :
    ∃ l, read text = .ok l ∧ read (edits.foldl edit l).text = .ok (edits.foldl edit l) ∧
      ∀ {α : Type} (start : Location), start = edits.foldl edit l ∨ (∃ page, start = ofPage page) →
        ∀ (endpoint : String) (schedule : Schedule) (service : Service α) (past : List (Moment α)) (s : Session α),
          Run (Session.mount endpoint start schedule service).value past s →
          read s.shown.location.text = .ok s.shown.location ∧
            (read s.shown.location.text).map Location.filter = .ok s.shown.filter := by
  have special : Url.isSpecial url.scheme = true ∧ Url.isFile url.scheme = false := by
    rcases web with web | web <;> (rw [web]; exact ⟨by decide, by decide⟩)
  have given := isRooted_of_join named special.1 special.2 slashes url.queryPairs
  have parsed : read text = .ok { path := String.ofList url.path.write, pairs := url.queryPairs } := by
    rw [read, named]
    rfl
  refine ⟨_, parsed, (given.congr (foldl_edit_path _ edits)).read_text, ?_⟩
  intro α start mounted endpoint schedule service past s run
  have rooted : ∃ path, start.IsRooted path := by
    rcases mounted with rfl | ⟨page, rfl⟩
    · exact ⟨_, given.congr (foldl_edit_path _ edits)⟩
    · exact ⟨_, isRooted_ofPage page⟩
  obtain ⟨path, rooted⟩ := rooted
  have back : read s.shown.location.text = .ok s.shown.location := by
    rw [run.shown_eq]
    exact (rooted.congr run.path_eq).read_text
  exact ⟨back, by rw [back]; rfl⟩

/-- Dots, blanks and letters outside ASCII in the path, and empty parts, keys and values in the query. -/
def given : String :=
  " /a b/../%2E./ü\x7bx\x7d/;?x=1&&=&filter=a+b%2Bc#t "

def resolved : Url :=
  { base with
    path := .segments ["%C3%BC%7Bx%7D".toList, ";".toList]
    query := some "x=1&&=&filter=a+b%2Bc".toList
    fragment := some "t".toList }

def edits : List Edit :=
  [.set "filter" "Ok & é=+%#?\n", .remove "x", .set "" "", .set "&=" "?"]

theorem text_read_back_edited :
    base.join (trim given.toList) = .ok resolved ∧ resolved.scheme = "http".toList ∧
      ∃ l, read given = .ok l ∧ read (edits.foldl edit l).text = .ok (edits.foldl edit l) := by
  have named : base.join (trim given.toList) = .ok resolved := by rfl
  obtain ⟨l, parsed, back, _⟩ := text_read_back named (.inl rfl) (by decide) edits
  exact ⟨named, rfl, l, parsed, back⟩

end Location
end ProxyMonitor
