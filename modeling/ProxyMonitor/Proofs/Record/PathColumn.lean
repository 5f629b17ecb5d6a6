import Mathlib.Data.List.TakeWhile
import ProxyMonitor.Proofs.Text.Search
import ProxyMonitor.Record.History

/-! The path column of the history. It has what follows the first slash behind `://`, which is the path and all behind it where
the URL has a path; where it has none, the query is lost, or what follows a slash in it is taken for the path. -/
namespace ProxyMonitor.HistoryRecord
open ProxyMonitor.Text

/-- What is asked of a host, by what stands behind its name: the path and all behind it, or the query of the path that is not
written. -/
def requested : List Char → List Char
  | '/' :: rest => '/' :: rest
  | '?' :: rest => '/' :: '?' :: rest.takeWhile (· != '#')
  | _ => ['/']

/-- A text from its first slash on; `/` if there is none. -/
def fromSlash (text : List Char) : List Char :=
  match text.dropWhile (· != '/') with
  | [] => ['/']
  | rest => rest

theorem toList_path (r : HistoryRecord) : r.path.toList = fromSlash (afterScheme r.url.toList) := by
  unfold path fromSlash
  cases (afterScheme r.url.toList).dropWhile (· != '/') with
  | nil => rfl
  | cons c rest => exact String.toList_ofList

section FromSlash
variable {front text : List Char}

theorem ne_slash_of_not_mem (none : '/' ∉ front) : ∀ c ∈ front, (c != '/') = true :=
  fun _ hc => bne_iff_ne.mpr fun slash => none (slash ▸ hc)

theorem fromSlash_append (none : '/' ∉ front) (text : List Char) : fromSlash (front ++ text) = fromSlash text := by
  rw [fromSlash, List.dropWhile_append_of_pos (ne_slash_of_not_mem none), fromSlash]

theorem fromSlash_of_not_mem (none : '/' ∉ text) : fromSlash text = ['/'] := by
  have all := fromSlash_append none []
  rwa [List.append_nil] at all

theorem fromSlash_slash (back : List Char) : fromSlash ('/' :: back) = '/' :: back := rfl

/-- There is a first slash or none. -/
theorem fromSlash_cases (text : List Char) :
    ('/' ∉ text ∧ fromSlash text = ['/']) ∨
      ∃ front back, text = front ++ '/' :: back ∧ '/' ∉ front ∧ fromSlash text = '/' :: back := by
  by_cases slash : '/' ∈ text
  · obtain ⟨front, back, rfl, none⟩ := List.eq_append_cons_of_mem slash
    exact .inr ⟨front, back, rfl, none, (fromSlash_append none _).trans (fromSlash_slash back)⟩
  · exact .inl ⟨slash, fromSlash_of_not_mem slash⟩

theorem head?_fromSlash (text : List Char) : (fromSlash text).head? = some '/' := by
  rcases fromSlash_cases text with ⟨_, bare⟩ | ⟨_, _, _, _, found⟩
  · rw [bare]
    rfl
  · rw [found]
    rfl

theorem length_fromSlash_le (text : List Char) : (fromSlash text).length ≤ text.length + 1 := by
  rcases fromSlash_cases text with ⟨_, bare⟩ | ⟨front, back, rfl, _, found⟩
  · rw [bare]
    exact Nat.le_add_left 1 _
  · rw [found, List.length_append]
    omega

/-- Only the last character may be a slash that leads to nothing. -/
theorem fromSlash_eq_slash : fromSlash text = ['/'] ↔ '/' ∉ text.dropLast := by
  rcases fromSlash_cases text with ⟨none, bare⟩ | ⟨front, back, rfl, none, found⟩
  · exact iff_of_true bare fun slash => none ((List.dropLast_sublist text).subset slash)
  · rw [found, List.dropLast_append_of_ne_nil (List.cons_ne_nil '/' back)]
    cases back with
    | nil => simp [none]
    | cons c back => simp

end FromSlash

/-- A scheme has no colon in it. -/
theorem afterScheme_append {scheme : List Char} (named : ':' ∉ scheme) (rest : List Char) :
    afterScheme (scheme ++ ':' :: '/' :: '/' :: rest) = rest := by
  have found : afterScheme.find (scheme ++ ':' :: '/' :: '/' :: rest) = some rest := by
    induction scheme with
    | nil => rfl
    | cons c scheme ih =>
      have here : ':' ≠ c := List.ne_of_not_mem_cons named
      have later : ':' ∉ scheme := List.not_mem_of_not_mem_cons named
      have next : ∀ after, c = (':' : Char) → scheme ++ ':' :: '/' :: '/' :: rest = '/' :: '/' :: after → False :=
        fun _ colon _ => here colon.symm
      rw [List.cons_append, afterScheme.find.eq_2 _ _ next]
      exact ih later
  rw [afterScheme, found]
  rfl

theorem toList_path_of_parts {r : HistoryRecord} {scheme authority rest : List Char}
    (url : r.url.toList = scheme ++ "://".toList ++ authority ++ rest) (named : ':' ∉ scheme) (host : '/' ∉ authority) :
    r.path.toList = fromSlash rest := by
  have parts : scheme ++ "://".toList ++ authority ++ rest = scheme ++ ':' :: '/' :: '/' :: (authority ++ rest) := by
    simp
  rw [toList_path, url, parts, afterScheme_append named, fromSlash_append host]

theorem find_eq_around (url : List Char) : afterScheme.find url = (around? [':', '/', '/'] url).map Prod.snd := by
  fun_induction afterScheme.find url with
  | case1 rest =>
    have here : [':', '/', '/'] <+: ':' :: '/' :: '/' :: rest := List.prefix_append [':', '/', '/'] rest
    rw [around?, if_pos here]
    rfl
  | case2 c rest other ih =>
    have elsewhere : ¬ [':', '/', '/'] <+: c :: rest := by
      rintro ⟨after, same⟩
      obtain ⟨colon, slashes⟩ := List.cons.inj same
      exact other after colon.symm slashes.symm
    rw [around?, if_neg elsewhere, Option.map_map]
    exact ih
  | case3 => rfl

theorem fromSlash_eq_around (text : List Char) :
    fromSlash text = ((around? ['/'] text).map fun parts => '/' :: parts.2).getD ['/'] := by
  induction text with
  | nil => rfl
  | cons c rest ih =>
    by_cases slash : c = '/'
    · subst slash
      have here : ['/'] <+: '/' :: rest := List.prefix_append ['/'] rest
      rw [around?, if_pos here]
      rfl
    · have elsewhere : ¬ ['/'] <+: c :: rest := by
        rintro ⟨after, same⟩
        exact slash (List.cons.inj same).1.symm
      have other : '/' ∉ [c] := fun here => slash (List.mem_singleton.mp here).symm
      have passed : fromSlash (c :: rest) = fromSlash rest := fromSlash_append other rest
      rw [around?, if_neg elsewhere, Option.map_map, passed]
      exact ih

/-- What begins at the first slash from a byte on. There is none if the text cannot be cut there. -/
def slashFrom? (bytes : List UInt8) (start : Nat) : Option (List Char) := do
  let after ← Utf8.textFrom? bytes start
  match Utf8.find? (Utf8.ofString "/") (Utf8.encode after) with
  | some further => Utf8.textFrom? bytes (start + further)
  | none => some ['/']

/-- The path by counting bytes: where `://` ends, and how far from there the first slash is. -/
def cutPath? (url : String) : Option (List Char) :=
  let bytes := Utf8.ofString url
  slashFrom? bytes (((Utf8.find? (Utf8.ofString "://") bytes).map (· + 3)).getD 0)

/-- Where a character begins, the slash begins another one. -/
theorem slashFrom?_encode (front after : List Char) :
    slashFrom? (Utf8.encode (front ++ after)) (Utf8.encode front).length = some (fromSlash after) := by
  have slash : Utf8.ofString "/" = Utf8.encode ['/'] := rfl
  have found : Utf8.find? (Utf8.encode ['/']) (Utf8.encode after) = _ := Utf8.find?_encode ⟨_, _, rfl, by decide⟩ after
  rw [slashFrom?, Utf8.textFrom?_encode, slash, fromSlash_eq_around]
  dsimp only [Option.bind_eq_bind, Option.bind_some]
  rw [found]
  cases searched : around? ['/'] after with
  | none => rfl
  | some parts =>
    obtain ⟨before, back⟩ := parts
    have whole := Utf8.textFrom?_encode (front ++ before) ('/' :: back)
    rw [Utf8.encode_append front before, List.length_append] at whole
    rw [around?_eq_some searched, List.append_assoc, ← List.append_assoc front]
    exact whole

/-- A URL is never cut within a character. -/
theorem cutPath?_eq (r : HistoryRecord) : cutPath? r.url = some r.path.toList := by
  have scheme : Utf8.ofString "://" = Utf8.encode [':', '/', '/'] := rfl
  have found : Utf8.find? (Utf8.encode [':', '/', '/']) (Utf8.encode r.url.toList) = _ :=
    Utf8.find?_encode ⟨_, _, rfl, by decide⟩ r.url.toList
  have url : Utf8.ofString r.url = Utf8.encode r.url.toList := rfl
  rw [toList_path, afterScheme, find_eq_around, cutPath?, scheme, url, found]
  cases searched : around? [':', '/', '/'] r.url.toList with
  | none => exact slashFrom?_encode [] r.url.toList
  | some parts =>
    obtain ⟨front, after⟩ := parts
    have cut := slashFrom?_encode (front ++ [':', '/', '/']) after
    have start : (Utf8.encode (front ++ [':', '/', '/'])).length = (Utf8.encode front).length + 3 := by
      rw [Utf8.encode_append, List.length_append]
      rfl
    rwa [← around?_eq_some searched, start] at cut

/-- Without a path of its own, a query is never shown. -/
theorem fromSlash_ne_query {query : List Char} (bare : '#' ∉ query) : fromSlash ('?' :: query) ≠ requested ('?' :: query) := by
  have all : query.takeWhile (· != '#') = query :=
    List.takeWhile_eq_self_iff.mpr fun c hc => bne_iff_ne.mpr fun hash => bare (hash ▸ hc)
  have passed : fromSlash ('?' :: query) = fromSlash query := fromSlash_append (by decide : '/' ∉ ['?']) query
  intro same
  have short := length_fromSlash_le query
  rw [← passed, same, requested, all] at short
  simp only [List.length_cons] at short
  omega

/-- Without a fragment, the first slash is where the path begins only if there is a path, or nothing at all. -/
theorem fromSlash_eq_requested_iff {rest : List Char} (begins : ∀ c ∈ rest.head?, c = '/' ∨ c = '?' ∨ c = '#')
    (bare : '#' ∉ rest) : fromSlash rest = requested rest ↔ rest = [] ∨ rest.head? = some '/' := by
  cases rest with
  | nil => exact iff_of_true rfl (.inl rfl)
  | cons c rest =>
    rcases begins c rfl with rfl | rfl | rfl
    · exact iff_of_true rfl (.inr rfl)
    · exact iff_of_false (fromSlash_ne_query (List.not_mem_of_not_mem_cons bare)) (by simp)
    · exact absurd List.mem_cons_self bare

/-- The path column is the URL from the first slash behind its authority on. Whatever text the URL is, it is cut between
characters, and the column begins with a slash. What stands behind the authority is shown as it is where it begins with a path;
otherwise it is shown from its first slash on, or a slash alone if it has none. Without a fragment this is what is asked of the
host if there is a path or nothing at all, and never if there is only a query. A fragment alone is left out unless a slash
stands in it before its end. -/
theorem path_from_slash (r : HistoryRecord) :
    (∀ now, ("Path", r.path) ∈ listing.headers.zip (listing.cells now r)) ∧ r.path.toList.head? = some '/' ∧
    cutPath? r.url = some r.path.toList ∧
    ∀ scheme authority rest : List Char, r.url.toList = scheme ++ "://".toList ++ authority ++ rest →
      ':' ∉ scheme → (∀ c ∈ authority, c ≠ '/' ∧ c ≠ '?' ∧ c ≠ '#') →
      (∀ c ∈ rest.head?, c = '/' ∨ c = '?' ∨ c = '#') →
      (∀ front back, rest = front ++ '/' :: back → '/' ∉ front → r.path.toList = '/' :: back) ∧
      ('/' ∉ rest → r.path.toList = ['/']) ∧
      (rest.head? = some '/' → r.path.toList = rest ∧ requested rest = rest) ∧
      ('#' ∉ rest → (r.path.toList = requested rest ↔ rest = [] ∨ rest.head? = some '/')) ∧
      (rest.head? = some '#' → (r.path.toList = requested rest ↔ '/' ∉ rest.dropLast)) := by
  refine ⟨fun now => ?_, ?_, cutPath?_eq r, ?_⟩
  · simp [listing]
  · rw [toList_path]
    exact head?_fromSlash _
  · intro scheme authority rest url named host begins
    have noSlash : '/' ∉ authority := fun slash => (host '/' slash).1 rfl
    rw [toList_path_of_parts url named noSlash]
    refine ⟨?_, fromSlash_of_not_mem, ?_, fromSlash_eq_requested_iff begins, ?_⟩
    · rintro front back rfl none
      exact (fromSlash_append none _).trans (fromSlash_slash back)
    · intro path
      obtain ⟨back, rfl⟩ := List.head?_eq_some_iff.mp path
      exact ⟨rfl, rfl⟩
    · intro fragment
      obtain ⟨rest, rfl⟩ := List.head?_eq_some_iff.mp fragment
      exact fromSlash_eq_slash

/-- Slashes and a URL in the query are part of what is shown. -/
theorem path_from_slash_nested :
    ':' ∉ "https".toList ∧ (∀ c ∈ "[::1]:8080".toList, c ≠ '/' ∧ c ≠ '?' ∧ c ≠ '#') ∧
      path { url := "https://[::1]:8080/ä//b?to=http://c/d#e" } = "/ä//b?to=http://c/d#e" := by
  have named : ':' ∉ "https".toList := by decide
  have host : ∀ c ∈ "[::1]:8080".toList, c ≠ '/' ∧ c ≠ '?' ∧ c ≠ '#' := by simp
  obtain ⟨_, _, _, parts⟩ := path_from_slash { url := "https://[::1]:8080/ä//b?to=http://c/d#e" }
  obtain ⟨_, _, whole, _⟩ :=
    parts "https".toList "[::1]:8080".toList "/ä//b?to=http://c/d#e".toList (by decide) named host (by simp)
  exact ⟨named, host, String.toList_injective (whole (by decide)).1⟩

/-- A query without a path is lost, or what stands behind a slash in it is the path, as behind a slash in a fragment. -/
theorem query_taken_for_path :
    path { url := "http://example.com?page=2" } = "/" ∧ requested "?page=2".toList = "/?page=2".toList ∧
    path { url := "http://example.com?next=/a" } = "/a" ∧ requested "?next=/a".toList = "/?next=/a".toList ∧
    path { url := "http://example.com#/top" } = "/top" ∧ requested "#/top".toList = "/".toList := by
  decide

end ProxyMonitor.HistoryRecord
