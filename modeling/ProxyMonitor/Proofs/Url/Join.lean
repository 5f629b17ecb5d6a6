import Mathlib.Data.List.TakeWhile
import ProxyMonitor.Proofs.Url.Path

/-! Reading against a base: the path is settled whatever is read, and a text of such a path and a query is read as
both. -/
namespace ProxyMonitor.Url
open ProxyMonitor.Text
variable {base u : Url} {scheme text : List Char}

/-- The URL has a settled path, if its scheme is one of those whose paths have segments; files have drives. -/
def IsTidy (u : Url) : Prop :=
  isSpecial u.scheme = true → isFile u.scheme = false → u.path.IsSettled

@[simp] theorem finish_scheme (u : Url) (text : List Char) : (finish u text).scheme = u.scheme := by
  unfold finish
  dsimp only
  split <;> rfl

@[simp] theorem finish_path (u : Url) (text : List Char) : (finish u text).path = u.path := by
  unfold finish
  dsimp only
  split <;> rfl

theorem IsTidy.finish (h : u.IsTidy) (text : List Char) : (Url.finish u text).IsTidy := by
  intro special noFile
  rw [finish_scheme] at special noFile
  rw [finish_path]
  exact h special noFile

theorem isTidy_readPath (u : Url) (text : List Char) : ({ u with path := readPath u.scheme [] text } : Url).IsTidy :=
  fun special noFile => readPath_isSettled special noFile text

theorem isTidy_finishPath (u : Url) (text : List Char) : (finishPath u text).IsTidy := by
  have scheme : (finishPath u text).scheme = u.scheme := by simp [finishPath]
  intro special noFile
  rw [scheme] at special noFile
  rw [finishPath, finish_path]
  simp only [special, Bool.not_true, Bool.false_and, Bool.false_eq_true, if_false]
  exact readPath_isSettled special noFile _

/-- Nothing but such URLs comes out. -/
def Tidies (result : Except Problem Url) : Prop :=
  ∀ u, result = .ok u → u.IsTidy

theorem Tidies.ok (h : u.IsTidy) : Tidies (.ok u) := by
  intro v hv
  cases hv
  exact h

theorem Tidies.bind {α : Type} {first : Except Problem α} {next : α → Except Problem Url}
    (h : ∀ a, Tidies (next a)) : Tidies (first >>= next) := by
  intro u hu
  cases first with
  | error problem => cases hu
  | ok a => exact h a u hu

theorem tidies_readAuthority (scheme text : List Char) : Tidies (readAuthority scheme text) := by
  -- whatever the port is, the path is read last
  have port (username password : List Char) (host : Host) (result : Except Problem (Option Nat × List Char)) : Tidies
      (result >>= fun found => pure (finishPath
        { scheme, username, password, host := some host, port := found.1, path := .segments [] } found.2)) :=
    .bind fun _ => .ok (isTidy_finishPath _ _)
  refine .bind fun credentials => ?_
  dsimp only
  split
  · refine .bind fun _ => ?_
    split <;> refine .bind fun host => ?_ <;> split <;> exact port _ _ _ _
  · split <;> refine .bind fun host => ?_ <;> split <;> exact port _ _ _ _

theorem tidies_readFile (text : List Char) : Tidies (readFile text) := by
  unfold readFile
  dsimp only
  split
  · split
    · exact .ok (isTidy_finishPath _ _)
    · exact .bind fun _ => .ok (isTidy_finishPath _ _)
  · exact .ok (isTidy_finishPath _ _)

theorem tidies_readOther (other : isSpecial scheme = false) (text : List Char) : Tidies (readOther scheme text) := by
  have unlike {u : Url} (h : u.scheme = scheme) (text : List Char) : (Url.finish u text).IsTidy := by
    intro special
    rw [finish_scheme, h, other] at special
    cases special
  unfold readOther
  split
  · exact tidies_readAuthority _ _
  · exact .ok (unlike rfl _)
  · exact .ok (unlike rfl _)

theorem tidies_readAbsolute (scheme text : List Char) : Tidies (readAbsolute scheme text) := by
  unfold readAbsolute
  split
  · exact tidies_readFile _
  · split
    · exact tidies_readAuthority _ _
    · rename_i other
      exact tidies_readOther (by simpa using other) _

section Root
variable (tidy : base.IsTidy) (root : base.path = .segments [[]])
include tidy root

theorem tidies_readRelative (text : List Char) : Tidies (readRelative base text) := by
  unfold readRelative
  dsimp only
  split
  · exact .ok tidy
  · exact .ok (IsTidy.finish (u := { base with query := none, fragment := none }) tidy _)
  · exact .ok (IsTidy.finish (u := { base with fragment := none }) tidy _)
  · split
    · split
      · split
        · exact tidies_readAuthority _ _
        · exact tidies_readAuthority _ _
      · exact .ok ((isTidy_readPath { base with query := none, fragment := none } _).finish _)
    · rw [root]
      exact .ok ((isTidy_readPath { base with query := none, fragment := none } _).finish _)

/-- Whatever is read against the root of a host has a settled path. -/
theorem tidies_join (text : List Char) : Tidies (base.join text) := by
  unfold join
  dsimp only
  split
  · split
    · exact tidies_readRelative tidy root _
    · exact tidies_readAbsolute _ _
  · exact tidies_readRelative tidy root _

end Root

/-- Visible ASCII characters. -/
def IsGraphic (c : Char) : Prop :=
  0x20 < c.toNat ∧ c.toNat < 0x7F

theorem isGraphic_of_query {c : Char} (ascii : c.toNat < 0x80) (h : Percent.query c = false) : IsGraphic c := by
  simp only [Percent.query, Percent.controls, Bool.or_eq_false_iff, decide_eq_false_iff_not, List.mem_cons, not_or,
    beq_eq_false_iff_ne] at h
  obtain ⟨⟨low, high⟩, blank, _⟩ := h
  have blank : c.toNat ≠ 0x20 := fun same => blank (Char.toNat_inj.mp same)
  constructor <;> omega

theorem isGraphic_of_path {c : Char} (ascii : c.toNat < 0x80) (h : Percent.path c = false) : IsGraphic c := by
  have query : Percent.path c = false → Percent.query c = false :=
    of_ascii (p := fun c => Percent.path c = false → Percent.query c = false) (by decide) ascii
  exact isGraphic_of_query ascii (query h)

theorem not_isBlank_of_isGraphic {c : Char} (h : IsGraphic c) : isBlank c = false := by
  obtain ⟨low, high⟩ := h
  simp only [isBlank, Bool.or_eq_false_iff, Bool.and_eq_false_iff, decide_eq_false_iff_not, beq_eq_false_iff_ne]
  omega

theorem prepared_eq_self (h : ∀ c ∈ text, 0x20 < c.toNat) : prepared text = text := by
  have inner : ∀ c ∈ text, (!(c == '\t' || c == '\n' || c == '\r')) = true := by
    intro c hc
    have high := h c hc
    simp only [Bool.not_eq_true', Bool.or_eq_false_iff, beq_eq_false_iff_ne]
    refine ⟨⟨?_, ?_⟩, ?_⟩ <;> (rintro rfl; exact absurd high (by decide))
  have ends : ∀ c ∈ text, decide (c.toNat ≤ 0x20) = false := by
    intro c hc
    have high := h c hc
    exact decide_eq_false (by omega)
  rw [prepared, trim_eq_self ends, List.filter_eq_self.mpr inner]

/-- A path and a query, in characters that need no escape there. -/
structure IsPlain (u : Url) : Prop where
  path : u.path.IsSettled
  query : ∀ q, u.query = some q → ∀ c ∈ q, c.toNat < 0x80 ∧ Percent.specialQuery c = false

theorem mem_part {mark c : Char} {text : Option (List Char)} (h : c ∈ part mark text) :
    c = mark ∨ ∃ q, text = some q ∧ c ∈ q := by
  cases text with
  | none => cases h
  | some q =>
    rcases List.mem_cons.mp h with h | h
    · exact .inl h
    · exact .inr ⟨q, rfl, h⟩

theorem Path.IsSettled.mem_write {path : Path} (h : path.IsSettled) {c : Char} (hc : c ∈ path.write) :
    c = '/' ∨ c.toNat < 0x80 ∧ Percent.path c = false ∧ isSlash true c = false := by
  obtain ⟨parts, rfl, _, settled⟩ := h
  obtain ⟨part, hpart, hc⟩ := List.mem_flatMap.mp hc
  rcases List.mem_cons.mp hc with hc | hc
  · exact .inl hc
  · have here := settled part hpart
    exact .inr ⟨(here.plain c hc).1, (here.plain c hc).2, here.slash c hc⟩

theorem Path.IsSettled.isGraphic {path : Path} (h : path.IsSettled) {c : Char} (hc : c ∈ path.write) : IsGraphic c := by
  rcases h.mem_write hc with rfl | ⟨ascii, plain, _⟩
  · exact ⟨by decide, by decide⟩
  · exact isGraphic_of_path ascii plain

theorem eq_of_endsPath {c : Char} (h : endsPath c = true) : c = '?' ∨ c = '#' :=
  (Bool.or_eq_true_iff.mp h).imp eq_of_beq eq_of_beq

theorem Path.IsSettled.endsPath {path : Path} (h : path.IsSettled) {c : Char} (hc : c ∈ path.write) :
    Url.endsPath c = false := by
  rcases h.mem_write hc with rfl | ⟨_, plain, _⟩
  · decide
  · refine Bool.eq_false_iff.mpr fun mark => ?_
    rcases eq_of_endsPath mark with rfl | rfl <;> exact absurd plain (by decide)

theorem isGraphic_of_mem_part {query : Option (List Char)}
    (plain : ∀ q, query = some q → ∀ c ∈ q, c.toNat < 0x80 ∧ Percent.specialQuery c = false) {c : Char}
    (hc : c ∈ part '?' query) : IsGraphic c := by
  rcases mem_part hc with rfl | ⟨q, hq, hc⟩
  · exact ⟨by decide, by decide⟩
  · obtain ⟨ascii, plain⟩ := plain q hq c hc
    rw [Percent.specialQuery, Bool.or_eq_false_iff] at plain
    exact isGraphic_of_query ascii plain.1

theorem IsPlain.isGraphic_of_mem (h : u.IsPlain) {c : Char} (hc : c ∈ u.target) : IsGraphic c := by
  rcases List.mem_append.mp hc with hc | hc
  · exact h.path.isGraphic hc
  · exact isGraphic_of_mem_part h.query hc

/-- What ends a path is the mark of the query. -/
theorem pathEnd_part {path : List Char} (h : ∀ c ∈ path, endsPath c = false) (query : Option (List Char)) :
    beforePathEnd (path ++ part '?' query) = path ∧ fromPathEnd (path ++ part '?' query) = part '?' query := by
  have passed : ∀ c ∈ path, (! endsPath c) = true := fun c hc => by simp [h c hc]
  rw [beforePathEnd, fromPathEnd, List.takeWhile_append_of_pos passed, List.dropWhile_append_of_pos passed]
  cases query with
  | none => simp [part]
  | some query => simp [part, endsPath]

theorem finish_part (h : u.IsPlain) (special : isSpecial base.scheme = true) :
    finish { base with path := u.path, query := none, fragment := none } (part '?' u.query) =
      { base with path := u.path, query := u.query, fragment := none } := by
  cases given : u.query with
  | none => rfl
  | some q =>
    have plain := h.query q given
    have noHash : ∀ c ∈ q, (c != '#') = true := by
      intro c hc
      refine bne_iff_ne.mpr fun hash => ?_
      have := (plain c hc).2
      rw [hash] at this
      exact absurd this (by decide)
    have all : q.takeWhile (· != '#') = q := List.takeWhile_eq_self_iff.mpr noHash
    have none : q.dropWhile (· != '#') = [] := List.dropWhile_eq_nil_iff.mpr (by simpa using noHash)
    simp only [part, finish, special, if_true, all, none, Percent.encode_eq_self plain]

/-- One slash leads to the root. -/
theorem readRelative_slash (base : Url) {text : List Char} (single : text.head?.any (isSlash true) = false) :
    readRelative base ('/' :: text) =
      .ok (finish { base with path := readPath base.scheme [] (beforePathEnd text), query := none, fragment := none }
        (fromPathEnd text)) := by
  rw [readRelative]
  · rw [if_pos (by decide), single, if_neg (by decide)]
  · decide
  · decide
  · rintro rest _ rfl
    exact absurd single (by simp [isSlash])

/-- What begins with no slash is read from the root as well. -/
theorem join_root {base : Url} {c : Char} {rest : List Char} (root : base.path = .segments [[]])
    (slash : isSlash true c = false) (mark : endsPath c = false) (graphic : ∀ d ∈ c :: rest, IsGraphic d)
    (noScheme : splitScheme (c :: rest) = none) : base.join (c :: rest) = base.join ('/' :: c :: rest) := by
  have below : readRelative base (c :: rest) = readRelative base ('/' :: c :: rest) := by
    have other {d : Char} (h : endsPath d = true ∨ d = '/') : c ≠ d := by
      rintro rfl
      rcases h with h | rfl
      · simp [h] at mark
      · exact absurd slash (by decide)
    have single : (c :: rest).head?.any (isSlash true) = false := slash
    rw [readRelative_slash base single, readRelative]
    · rw [slash, if_neg (by decide), root]
      rfl
    · exact other (.inl rfl)
    · exact other (.inl rfl)
    · exact fun _ same => absurd same (other (.inr rfl))
  have graphicSlash : ∀ d ∈ '/' :: c :: rest, IsGraphic d := by
    intro d hd
    rcases List.mem_cons.mp hd with rfl | hd
    · exact ⟨by decide, by decide⟩
    · exact graphic d hd
  have slashScheme : splitScheme ('/' :: c :: rest) = none := rfl
  rw [join, join, prepared_eq_self fun d hd => (graphic d hd).1, prepared_eq_self fun d hd => (graphicSlash d hd).1,
    noScheme, slashScheme]
  exact below

/-- Two slashes lead to another host. -/
theorem join_slashes (base : Url) (graphic : ∀ c ∈ '/' :: '/' :: text, IsGraphic c) :
    base.join ('/' :: '/' :: text) = readAuthority base.scheme text := by
  have noScheme : splitScheme ('/' :: '/' :: text) = none := rfl
  rw [join, prepared_eq_self fun c hc => (graphic c hc).1, noScheme]
  rfl

/-- A settled path and an escaped query, written, are read as both. Two slashes at the start would be read as those
before a host. -/
theorem join_target (h : u.IsPlain) (slashes : ¬ "//".toList <+: u.path.write)
    (special : isSpecial base.scheme = true) (noFile : isFile base.scheme = false) :
    base.join u.target = .ok { base with path := u.path, query := u.query, fragment := none } := by
  obtain ⟨parts, path, some, settled⟩ := h.path
  have write : u.path.write = '/' :: ['/'].intercalate parts := by rw [path, write_segments some]
  have target : u.target = '/' :: (['/'].intercalate parts ++ part '?' u.query) := by
    rw [Url.target, write, List.cons_append]
  have within {c : Char} (hc : c ∈ ['/'].intercalate parts) : c ∈ u.path.write := write ▸ List.mem_cons_of_mem '/' hc
  have ends : ∀ c ∈ ['/'].intercalate parts, endsPath c = false := fun c hc => h.path.endsPath (within hc)
  have single : ((['/'].intercalate parts ++ part '?' u.query).head?.any (isSlash true)) = false := by
    cases rest : ['/'].intercalate parts with
    | nil => cases u.query <;> rfl
    | cons c rest' =>
      have hc : c ∈ ['/'].intercalate parts := rest ▸ List.mem_cons_self
      rcases h.path.mem_write (within hc) with rfl | ⟨_, _, other⟩
      · rw [write, rest] at slashes
        exact absurd ⟨rest', rfl⟩ slashes
      · exact other
  obtain ⟨before, after⟩ := pathEnd_part ends u.query
  have relative : readRelative base u.target =
      .ok (finish { base with path := u.path, query := none, fragment := none } (part '?' u.query)) := by
    rw [target, readRelative_slash base single, before, after, readPath_intercalate special noFile some settled, path]
  have noScheme : splitScheme u.target = none := by
    rw [target]
    rfl
  rw [join, prepared_eq_self fun c hc => (h.isGraphic_of_mem hc).1, noScheme]
  exact relative.trans (congrArg _ (finish_part h special))

end ProxyMonitor.Url
