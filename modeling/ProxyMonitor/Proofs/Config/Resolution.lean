import Mathlib.Data.Option.Basic
import ProxyMonitor.Config

/-! Where settings come from. A file gives some of them, the others have what is usual, and the environment may give another
root of the API; what does not come out valid is not loaded. -/
namespace ProxyMonitor.Config
variable {c : Config} {members : Toml.Members} {text : String} {files : Files} {path : String} {api : Option String}

/-- The settings that are numbers. -/
inductive Number where
  | debounce | timeout
  | cadence (page : Page)
deriving DecidableEq, Repr

namespace Number

def of (c : Config) : Number → UInt64
  | .debounce => c.debounce
  | .timeout => c.timeout
  | .cadence page => c.cadence.of page

/-- What a number is where no file gives it. -/
def usual : Number → UInt64
  | .debounce => 500
  | .timeout => 30
  | .cadence .history | .cadence .pool => 2000
  | .cadence .blacklist | .cadence .reverify => 10000

end Number

def cadenceKey (page : Page) : String :=
  page.name ++ "_ms"

/-- What a cadence says of a page: in a table under the page's key, in an array at the page's position. -/
def cadencePart (page : Page) : Toml.Node → Option Toml.Node
  | .table _ members => members.lookup (cadenceKey page)
  | .array items => items[Page.all.idxOf page]?
  | _ => none

/-- Where a file gives a number. -/
def Number.given (members : Toml.Members) : Number → Option Toml.Node
  | .debounce => members.lookup "debounce_ms"
  | .timeout => members.lookup "request_timeout_secs"
  | .cadence page => (members.lookup "cadence").bind (cadencePart page)

/-- A number is the one that is given, or the usual one if none is. -/
def IsGiven (usual word : UInt64) : Option Toml.Node → Prop
  | none => word = usual
  | some n => n = .scalar (.integer word.toNat)

/-- The root of the API is the one that is given, or the usual one if none is. -/
def IsGivenUrl (url : String) : Option Toml.Node → Prop
  | none => url = "http://localhost:8089/api"
  | some n => n = .scalar (.text url)

/-- A table, an array, or a date or time, which gives no number. -/
def IsCadence : Toml.Node → Bool
  | .table .. | .array _ | .scalar .time => true
  | _ => false

/-- The settings that the members of a file give: each of them by itself, whatever else is there. -/
structure Gives (members : Toml.Members) (c : Config) : Prop where
  baseUrl : IsGivenUrl c.baseUrl (members.lookup "base_url")
  cadence : ∀ n ∈ members.lookup "cadence", IsCadence n = true
  numbers : ∀ number : Number, IsGiven number.usual (number.of c) (number.given members)

theorem wordOf_eq_some {n : Toml.Node} {word : UInt64} : wordOf n = some word ↔ n = .scalar (.integer word.toNat) := by
  constructor
  · intro found
    unfold wordOf at found
    split at found
    · rename_i i
      split at found
      · rename_i bounds
        cases found
        have small : i.toNat < UInt64.size := by omega
        rw [Nat.toUInt64, UInt64.toNat_ofNat_of_lt' small, Int.toNat_of_nonneg bounds.1]
      · cases found
    · cases found
  · rintro rfl
    have small : (word.toNat : Int) < UInt64.size := by
      have below := word.toNat_lt
      exact_mod_cast below
    rw [wordOf, if_pos ⟨Int.natCast_nonneg _, small⟩]
    simp

theorem textOf_eq_some {n : Toml.Node} {url : String} : textOf n = some url ↔ n = .scalar (.text url) := by
  unfold textOf
  split <;> simp_all

theorem wordIn_eq_some {name : String} {usual word : UInt64} :
    wordIn members name usual = some word ↔ IsGiven usual word (members.lookup name) := by
  unfold wordIn
  cases members.lookup name with
  | none => simp [IsGiven, eq_comm]
  | some n => exact wordOf_eq_some

theorem ofFields_eq_some {word : String → UInt64 → Option UInt64} {cadence : Cadence} :
    Cadence.ofFields word = some cadence ↔
      ∀ page, word (cadenceKey page) (Number.usual (.cadence page)) = some (cadence.of page) := by
  unfold Cadence.ofFields
  simp only [bind, Option.bind_eq_some_iff, pure, Option.some.injEq]
  constructor
  · rintro ⟨history, hh, pool, hp, blacklist, hb, reverify, hr, rfl⟩ (_ | _ | _ | _)
    exacts [hh, hp, hb, hr]
  · exact fun found => ⟨_, found .history, _, found .pool, _, found .blacklist, _, found .reverify, rfl⟩

/-- The items of an array stand for the fields in their order. -/
theorem lookup_zip_fieldNames (items : List Toml.Node) (page : Page) :
    (Cadence.fieldNames.zip items).lookup (cadenceKey page) = items[Page.all.idxOf page]? := by
  rcases items with _ | ⟨_, _ | ⟨_, _ | ⟨_, _ | ⟨_, _⟩⟩⟩⟩ <;> cases page <;> rfl

theorem cadenceOf_eq_some {n : Toml.Node} {cadence : Cadence} :
    cadenceOf n = some cadence ↔ IsCadence n = true ∧
      ∀ page, IsGiven (Number.usual (.cadence page)) (cadence.of page) (cadencePart page n) := by
  cases n with
  | table origin inner => simp only [cadenceOf, ofFields_eq_some, wordIn_eq_some, IsCadence, cadencePart, true_and]
  | array items =>
    simp only [cadenceOf, ofFields_eq_some, wordIn_eq_some, lookup_zip_fieldNames, IsCadence, cadencePart, true_and]
  | scalar s =>
    cases s with
    | time => simp only [cadenceOf, ofFields_eq_some, wordIn_eq_some, List.lookup_nil, IsCadence, cadencePart, true_and]
    | text | integer | other => simp [cadenceOf, IsCadence]
  | tables => simp [cadenceOf, IsCadence]

/-- A file is read if and only if it is a document whose members are of the right kinds, and then it gives one configuration. -/
theorem ofText?_eq_some : ofText? text = some c ↔ ∃ members, Toml.read text.toList = some members ∧ Gives members c := by
  have url {found : Option Toml.Node} {url : String} :
      found.elim (some ({} : Config).baseUrl) textOf = some url ↔ IsGivenUrl url found := by
    cases found with
    | none => simp [IsGivenUrl, eq_comm]
    | some n => exact textOf_eq_some
  have cadence {found : Option Toml.Node} {cadence : Cadence} :
      found.elim (some ({} : Config).cadence) cadenceOf = some cadence ↔ (∀ n ∈ found, IsCadence n = true) ∧
        ∀ page, IsGiven (Number.usual (.cadence page)) (cadence.of page) (found.bind (cadencePart page)) := by
    cases found with
    | none =>
      constructor
      · rintro same
        cases same
        exact ⟨nofun, fun page => by cases page <;> rfl⟩
      · rintro ⟨_, usual⟩
        obtain ⟨history, pool, blacklist, reverify⟩ := cadence
        obtain rfl : history = 2000 := usual .history
        obtain rfl : pool = 2000 := usual .pool
        obtain rfl : blacklist = 10000 := usual .blacklist
        obtain rfl : reverify = 10000 := usual .reverify
        rfl
    | some n => simpa using cadenceOf_eq_some
  unfold ofText?
  simp only [bind, Option.bind_eq_some_iff, pure, Option.some.injEq, url, wordIn_eq_some, cadence]
  constructor
  · rintro ⟨members, read, baseUrl, root, debounce, quiet, timeout, bound, cadence, ⟨kind, pages⟩, rfl⟩
    refine ⟨members, read, root, kind, fun number => ?_⟩
    cases number with
    | debounce => exact quiet
    | timeout => exact bound
    | cadence page => exact pages page
  · rintro ⟨members, read, gives⟩
    exact ⟨members, read, _, gives.baseUrl, _, gives.numbers .debounce, _, gives.numbers .timeout, _,
      ⟨gives.cadence, fun page => gives.numbers (.cadence page)⟩, rfl⟩

/-- A date in place of the cadences gives no number and is no problem. -/
example : ofText? "cadence = 1979-05-27" = some {} := by
  rfl

theorem validated_eq_ok {c' : Config} : c.validated = .ok c' ↔ c' = c ∧ c.validate = .ok () := by
  unfold validated
  cases h : c.validate with
  | error e => simp [Except.map, Except.mapError]
  | ok u => simp [Except.map, Except.mapError, eq_comm]

theorem load_eq_ok : load files path = .ok c ↔
    ∃ text, files.readText path = .ok text ∧ ofText? text = some c ∧ c.validate = .ok () := by
  unfold load
  cases read : files.readText path with
  | error problem => simp [bind, Except.bind, Except.mapError]
  | ok text =>
    cases given : ofText? text with
    | none => simp [bind, Except.bind, Except.mapError, given]
    | some c' =>
      simp only [bind, Except.bind, Except.mapError, given, validated_eq_ok, Except.ok.injEq, exists_eq_left',
        Option.some.injEq]
      constructor
      · rintro ⟨rfl, valid⟩
        exact ⟨rfl, valid⟩
      · rintro ⟨rfl, valid⟩
        exact ⟨rfl, valid⟩

/-- The members of the file, or none if there is no file. -/
inductive Source (files : Files) (path : String) : Toml.Members → Prop
  | absent (missing : files.hasPath path = false) : Source files path []
  | file {text : String} {members : Toml.Members} (there : files.hasPath path = true) (read : files.readText path = .ok text)
      (parsed : Toml.read text.toList = some members) : Source files path members

/-- Settings with another root of the API, if one is given beside them. -/
def withApi (c : Config) (api : Option String) : Config :=
  { c with baseUrl := api.getD c.baseUrl }

theorem number_withApi (number : Number) (c : Config) (api : Option String) : number.of (c.withApi api) = number.of c := by
  cases number <;> rfl

theorem gives_usual : Gives [] {} where
  baseUrl := rfl
  cadence := nofun
  numbers number := by
    cases number with
    | cadence page => cases page <;> rfl
    | _ => rfl

theorem eq_usual_of_gives (h : Gives [] c) : c = {} := by
  have number (number : Number) : number.of c = number.usual := by
    have given := h.numbers number
    cases number with
    | _ => exact given
  obtain ⟨baseUrl, debounce, timeout, history, pool, blacklist, reverify⟩ := c
  obtain rfl : baseUrl = _ := h.baseUrl
  obtain rfl : debounce = 500 := number .debounce
  obtain rfl : timeout = 30 := number .timeout
  obtain rfl : history = 2000 := number (.cadence .history)
  obtain rfl : pool = 2000 := number (.cadence .pool)
  obtain rfl : blacklist = 10000 := number (.cadence .blacklist)
  obtain rfl : reverify = 10000 := number (.cadence .reverify)
  rfl

theorem validate_eq_ok : c.validate = .ok () ↔
    ("http://".toList <+: c.baseUrl.toList ∨ "https://".toList <+: c.baseUrl.toList) ∧ c.timeout ≠ 0 ∧
      ∀ page ∈ Page.all, c.cadence.of page ≠ 0 := by
  have pages : (∀ page ∈ Page.all, c.cadence.of page ≠ 0) ↔ Page.all.find? (c.cadence.of · = 0) = none := by
    simp [List.find?_eq_none]
  rw [pages, ← String.startsWith_string_iff, ← String.startsWith_string_iff, ← Bool.or_eq_true, validate]
  cases c.baseUrl.startsWith "http://" || c.baseUrl.startsWith "https://" with
  | false => simp
  | true =>
    by_cases zero : c.timeout = 0
    · simp [zero]
    · rw [Bool.not_true, if_neg Bool.false_ne_true, if_neg zero]
      cases Page.all.find? (c.cadence.of · = 0) <;> simp [zero]

/-- What is usual is valid. -/
theorem validate_usual : ({} : Config).validate = .ok () :=
  validate_eq_ok.mpr ⟨.inl (by decide), by decide, by decide⟩

/-- The environment has its say on settings that are valid. -/
theorem loadOrDefault_of_found (base : (if files.hasPath path then load files path else .ok {}) = .ok found)
    (valid : found.validate = .ok ()) :
    loadOrDefault files path api = .ok c ↔ c = found.withApi api ∧ c.validate = .ok () := by
  have merged : loadOrDefault files path api = api.elim (.ok found) fun baseUrl => validated { found with baseUrl } := by
    unfold loadOrDefault
    split at base <;> rename_i there
    · rw [if_pos there, base]
      cases api <;> rfl
    · rw [if_neg there, base]
      cases api <;> rfl
  rw [merged]
  cases api with
  | none =>
    rw [Option.elim_none, Except.ok.injEq]
    constructor
    · rintro rfl
      exact ⟨rfl, valid⟩
    · rintro ⟨rfl, _⟩
      rfl
  | some url =>
    rw [Option.elim_some, validated_eq_ok]
    constructor
    · rintro ⟨rfl, valid⟩
      exact ⟨rfl, valid⟩
    · rintro ⟨rfl, valid⟩
      exact ⟨rfl, valid⟩

/-- A file that is there and cannot be loaded by itself is a problem, whatever the environment says. -/
theorem loadOrDefault_error {e : ConfigError} (there : files.hasPath path = true) (failed : load files path = .error e)
    (api : Option String) : loadOrDefault files path api = .error e := by
  rw [loadOrDefault, if_pos there, failed]
  rfl

/-- Settings that are loaded come from the file or are the usual ones, and are valid before and after the environment has its
say. -/
theorem loadOrDefault_eq_ok : loadOrDefault files path api = .ok c ↔
    ∃ members found, Source files path members ∧ Gives members found ∧ found.validate = .ok () ∧ c = found.withApi api ∧
      c.validate = .ok () := by
  cases there : files.hasPath path with
  | false =>
    have base : (if files.hasPath path then load files path else .ok {}) = .ok {} := by
      rw [there, if_neg Bool.false_ne_true]
    rw [loadOrDefault_of_found base validate_usual]
    constructor
    · rintro ⟨same, valid⟩
      exact ⟨[], {}, .absent there, gives_usual, validate_usual, same, valid⟩
    · rintro ⟨members, found, source, gives, _, same, valid⟩
      cases source with
      | absent => exact ⟨eq_usual_of_gives gives ▸ same, valid⟩
      | file there' => simp [there] at there'
  | true =>
    have base : (if files.hasPath path then load files path else .ok {}) = load files path := by
      rw [there, if_pos rfl]
    constructor
    · intro loaded
      cases file : load files path with
      | error e =>
        rw [loadOrDefault_error there file] at loaded
        cases loaded
      | ok found =>
        obtain ⟨text, read, given, valid⟩ := load_eq_ok.mp file
        obtain ⟨members, parsed, gives⟩ := ofText?_eq_some.mp given
        rw [loadOrDefault_of_found (base.trans file) valid] at loaded
        exact ⟨members, found, .file there read parsed, gives, valid, loaded⟩
    · rintro ⟨members, found, source, gives, valid, result⟩
      cases source with
      | absent missing => simp [there] at missing
      | file _ read parsed =>
        have given := ofText?_eq_some.mpr ⟨members, parsed, gives⟩
        have file : load files path = .ok found := load_eq_ok.mpr ⟨_, read, given, valid⟩
        exact (loadOrDefault_of_found (base.trans file) valid).mpr result

/-- Settings are resolved one by one, in any files and any environment. What is loaded is valid. The root of the API is that of
the environment, or else the one that the file gives, or else the usual one; each number is the one that the file gives in its
own place, or else its usual one, whatever else stands in the file. A file that is there and cannot be read, or is no document
of settings, or gives settings that are not valid by themselves is a problem in every environment. In all other cases settings
are loaded, unless the root that the environment gives makes them invalid. -/
theorem settings_resolved (files : Files) (path : String) :
    (∀ api c, loadOrDefault files path api = .ok c → c.validate = .ok () ∧ ∃ members, Source files path members ∧
      (∀ url, api = some url → c.baseUrl = url) ∧ (api = none → IsGivenUrl c.baseUrl (members.lookup "base_url")) ∧
      ∀ number : Number, IsGiven number.usual (number.of c) (number.given members)) ∧
    (files.hasPath path = true →
      (∀ problem, files.readText path = .error problem →
        ∀ api, loadOrDefault files path api = .error (.unreadable path problem)) ∧
      ∀ text, files.readText path = .ok text →
        ((¬ ∃ members found, Toml.read text.toList = some members ∧ Gives members found) →
          ∀ api, loadOrDefault files path api = .error (.malformed path)) ∧
        ∀ members found setting, Toml.read text.toList = some members → Gives members found →
          found.validate = .error setting → ∀ api, loadOrDefault files path api = .error (.invalid setting)) ∧
    ∀ members found api, Source files path members → Gives members found → found.validate = .ok () →
      (found.withApi api).validate = .ok () → loadOrDefault files path api = .ok (found.withApi api) := by
  refine ⟨fun api c loaded => ?_, fun there => ⟨fun problem unreadable => ?_, fun text read => ⟨fun malformed => ?_, ?_⟩⟩, ?_⟩
  · obtain ⟨members, found, source, gives, _, rfl, valid⟩ := loadOrDefault_eq_ok.mp loaded
    refine ⟨valid, members, source, ?_, ?_, fun number => ?_⟩
    · rintro url rfl
      rfl
    · rintro rfl
      exact gives.baseUrl
    · rw [number_withApi]
      exact gives.numbers number
  · refine loadOrDefault_error there ?_
    simp [load, unreadable, Except.mapError, bind, Except.bind]
  · refine loadOrDefault_error there ?_
    have none : ofText? text = none := Option.eq_none_iff_forall_ne_some.mpr fun found given => by
      obtain ⟨members, parsed, gives⟩ := ofText?_eq_some.mp given
      exact malformed ⟨members, found, parsed, gives⟩
    simp [load, read, none, Except.mapError, bind, Except.bind]
  · intro members found setting parsed gives invalid
    refine loadOrDefault_error there ?_
    have given := ofText?_eq_some.mpr ⟨members, parsed, gives⟩
    simp [load, read, given, validated, invalid, Except.mapError, Except.map, bind, Except.bind]
  · exact fun members found api source gives valid merged =>
      loadOrDefault_eq_ok.mpr ⟨members, found, source, gives, valid, rfl, merged⟩

/-- A file that gives one cadence by its place in an array, and no key for it. -/
def positional : Files :=
  ⟨[(["config.toml"], .file (Text.Utf8.ofString "cadence = [5000]"))]⟩

theorem source_positional : Source positional "config.toml" [("cadence", .array [.scalar (.integer 5000)])] :=
  have read : positional.readText "config.toml" = .ok "cadence = [5000]" := by with_unfolding_all rfl
  .file (by decide +kernel) read (by rfl)

theorem gives_positional :
    Gives [("cadence", .array [.scalar (.integer 5000)])] { cadence := { history := 5000 } } where
  baseUrl := rfl
  cadence := by simp [IsCadence]
  numbers number := by
    cases number with
    | cadence page => cases page <;> rfl
    | _ => rfl

theorem valid_positional : ({ cadence := { history := 5000 } } : Config).validate = .ok () :=
  validate_eq_ok.mpr ⟨.inl (by decide), by decide, by decide⟩

theorem settings_resolved_positional :
    ∃ c, loadOrDefault positional "config.toml" (some "https://pool.example/api") = .ok c ∧ c.validate = .ok () ∧
      c.baseUrl = "https://pool.example/api" ∧ c.cadence.history = 5000 ∧ c.cadence.pool = 2000 ∧ c.timeout = 30 := by
  obtain ⟨resolved, _, loads⟩ := settings_resolved positional "config.toml"
  have loaded := loads _ _ (some "https://pool.example/api") source_positional gives_positional valid_positional
    (validate_eq_ok.mpr ⟨.inr (by decide), by decide, by decide⟩)
  obtain ⟨valid, _, _, url, _, _⟩ := resolved _ _ loaded
  exact ⟨_, loaded, valid, url _ rfl, rfl, rfl, rfl⟩

/-- A number need not stand under its key: the document has no table, and the first item of its array is the number of the first
page, where it would be 2000 if only keys counted. -/
theorem cadence_without_key :
    Source positional "config.toml" [("cadence", .array [.scalar (.integer 5000)])] ∧
    ∃ c, loadOrDefault positional "config.toml" none = .ok c ∧ c.cadence.history = 5000 ∧
      c.cadence.history ≠ Number.usual (.cadence .history) :=
  have loaded : loadOrDefault positional "config.toml" none = .ok { cadence := { history := 5000 } } :=
    loadOrDefault_eq_ok.mpr ⟨_, _, source_positional, gives_positional, valid_positional, rfl, valid_positional⟩
  ⟨source_positional, _, loaded, rfl, by decide⟩

end ProxyMonitor.Config
