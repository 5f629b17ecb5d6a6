import Mathlib.Data.List.Infix
import ProxyMonitor.Proofs.Text.Parts
import ProxyMonitor.Proofs.Url.Percent
import ProxyMonitor.Url.Resolve

/-! Paths as they are once read: dots have moved, everything else is escaped, and reading them once more changes
nothing. -/
namespace ProxyMonitor.Url
open ProxyMonitor.Text

/-- All that a dot segment can be, in lower case. -/
def dotForms : List (List Char) :=
  [".".toList, "%2e".toList, "..".toList, "%2e.".toList, ".%2e".toList, "%2e%2e".toList]

theorem dotForms_of_isDot {segment : List Char} (h : isDot segment = true) :
    segment.map Char.toLower ∈ dotForms := by
  simp only [isDot, dotForms, decide_eq_true_eq, List.mem_cons, List.not_mem_nil, or_false] at h ⊢
  rcases h with h | h <;> simp [h]

theorem dotForms_of_isDoubleDot {segment : List Char} (h : isDoubleDot segment = true) :
    segment.map Char.toLower ∈ dotForms := by
  simp only [isDoubleDot, dotForms, decide_eq_true_eq, List.mem_cons, List.not_mem_nil, or_false] at h ⊢
  rcases h with h | h | h | h <;> simp [h]

/-- A percent sign in a dot segment stands for a dot. -/
private theorem dotForms_escape : ∀ form ∈ dotForms, ∀ s ∈ form.tails,
    s.head? = some '%' → s.take 3 = "%2e".toList := by
  decide

private theorem escape_dot : ∀ n < 256,
    (Percent.escape (UInt8.ofNat n)).map Char.toLower = "%2e".toList → n = 0x2E := by
  decide +kernel

section Dots
variable {set : Char → Bool} (dot : set '.' = false)
include dot

/-- The first byte of a character that is escaped is not that of a dot. -/
private theorem first_byte_ne {c : Char} (h : 0x80 ≤ c.toNat ∨ set c = true) :
    ∃ b rest, String.utf8EncodeChar c = b :: rest ∧ b.toNat ≠ 0x2E := by
  have value : c.val.toNat = c.toNat := rfl
  unfold String.utf8EncodeChar
  simp only [value]
  split
  · refine ⟨_, _, rfl, fun byte => ?_⟩
    have code : c.toNat = 0x2E := by
      rw [UInt8.toNat_ofNat'] at byte
      omega
    have char : c = '.' := Char.toNat_inj.mp code
    rw [char, dot] at h
    exact absurd h (by decide)
  · split
    · refine ⟨_, _, rfl, fun byte => ?_⟩
      rw [UInt8.toNat_ofNat'] at byte
      omega
    · split
      · refine ⟨_, _, rfl, fun byte => ?_⟩
        rw [UInt8.toNat_ofNat'] at byte
        omega
      · refine ⟨_, _, rfl, fun byte => ?_⟩
        rw [UInt8.toNat_ofNat'] at byte
        omega

/-- A dot segment has no escapes but those it was given. -/
theorem plain_of_dotForms {segment : List Char} (h : (Percent.encode set segment).map Char.toLower ∈ dotForms) :
    ∀ c ∈ segment, c.toNat < 0x80 ∧ set c = false := by
  intro c hc
  by_contra escaped
  have escaped : 0x80 ≤ c.toNat ∨ set c = true := by
    by_contra plain
    simp only [not_or, Bool.not_eq_true] at plain
    exact escaped ⟨by omega, plain.2⟩
  obtain ⟨b, bytes, hb, notDot⟩ := first_byte_ne dot escaped
  obtain ⟨before, after, rfl⟩ := List.append_of_mem hc
  have written : Percent.encode set (before ++ c :: after) =
      Percent.encode set before ++ (Percent.escape b ++ (bytes.flatMap Percent.escape ++ Percent.encode set after)) := by
    have here : Percent.encodeChar set c = Percent.escape b ++ bytes.flatMap Percent.escape := by
      rw [Percent.encodeChar, if_pos (by simpa using escaped), hb, List.flatMap_cons]
    simp only [Percent.encode, List.flatMap_append, List.flatMap_cons, here, List.append_assoc]
  rw [written, List.map_append, List.map_append] at h
  have lowered := dotForms_escape _ h _ ((List.mem_tails _ _).mpr (List.suffix_append _ _)) rfl
  have lowered : (Percent.escape (UInt8.ofNat b.toNat)).map Char.toLower = "%2e".toList := by
    rw [UInt8.ofNat_toNat]
    exact lowered
  exact notDot (escape_dot b.toNat b.toNat_lt lowered)

end Dots

/-- A dot segment is written as it was given. -/
theorem encode_eq_of_dotForms {segment : List Char}
    (h : (Percent.encode Percent.path segment).map Char.toLower ∈ dotForms) :
    Percent.encode Percent.path segment = segment :=
  Percent.encode_eq_self (plain_of_dotForms (by decide) h)

/-- What escapes are made of needs no escape in a path. -/
theorem isEscape_plain {c : Char} (h : Percent.isEscape c = true) :
    c.toNat < 0x80 ∧ Percent.path c = false ∧ isSlash true c = false := by
  have ascii := Percent.toNat_lt_of_isEscape h
  have all : Percent.isEscape c = true → Percent.path c = false ∧ isSlash true c = false :=
    of_ascii (p := fun c => Percent.isEscape c = true → Percent.path c = false ∧ isSlash true c = false)
      (by decide) ascii
  exact ⟨ascii, all h⟩

/-- A segment that is read as it is written. -/
structure Settled (segment : List Char) : Prop where
  plain : ∀ c ∈ segment, c.toNat < 0x80 ∧ Percent.path c = false
  slash : ∀ c ∈ segment, isSlash true c = false
  dot : isDot segment = false
  dots : isDoubleDot segment = false

/-- The same as a test. -/
def isSettled (segment : List Char) : Bool :=
  (segment.all fun c => c.toNat < 0x80 && !Percent.path c && !isSlash true c) && !isDot segment && !isDoubleDot segment

theorem isSettled_iff (segment : List Char) : isSettled segment = true ↔ Settled segment := by
  simp only [isSettled, List.all_eq_true, Bool.and_eq_true, decide_eq_true_eq, Bool.not_eq_true']
  constructor
  · rintro ⟨⟨letters, dot⟩, dots⟩
    exact ⟨fun c hc => (letters c hc).1, fun c hc => (letters c hc).2, dot, dots⟩
  · rintro ⟨plain, slash, dot, dots⟩
    exact ⟨⟨fun c hc => ⟨plain c hc, slash c hc⟩, dot⟩, dots⟩

instance (segment : List Char) : Decidable (Settled segment) :=
  decidable_of_iff (isSettled segment = true) (isSettled_iff segment)

theorem Settled.nil : Settled [] :=
  ⟨nofun, nofun, by decide, by decide⟩

/-- A segment that moves nothing is escaped once and for all. -/
theorem Settled.encode {segment : List Char} (slash : ∀ c ∈ segment, isSlash true c = false)
    (dot : isDot segment = false) (dots : isDoubleDot segment = false) :
    Settled (Percent.encode Percent.path segment) := by
  have same {form : List Char → Bool} (forms : ∀ s, form s = true → s.map Char.toLower ∈ dotForms)
      (given : form segment = false) : form (Percent.encode Percent.path segment) = false := by
    by_contra h
    have h : form (Percent.encode Percent.path segment) = true := by simpa using h
    rw [encode_eq_of_dotForms (forms _ h), given] at h
    cases h
  refine ⟨fun c hc => ?_, fun c hc => ?_, same (fun _ => dotForms_of_isDot) dot,
    same (fun _ => dotForms_of_isDoubleDot) dots⟩
  · rcases Percent.mem_encode hc with escape | ⟨_, plain⟩
    · exact ⟨(isEscape_plain escape).1, (isEscape_plain escape).2.1⟩
    · exact plain
  · rcases Percent.mem_encode hc with escape | ⟨given, _⟩
    · exact (isEscape_plain escape).2.2
    · exact slash c given

theorem mem_of_mem_shortened {file : Bool} {done : List (List Char)} {s : List Char}
    (h : s ∈ shortened file done) : s ∈ done := by
  unfold shortened at h
  split at h
  · split at h
    · exact h
    · cases h
  · exact List.mem_of_mem_drop h

theorem escaped_eq (done : List (List Char)) (segment : List Char) :
    walk.escaped false done segment = Percent.encode Percent.path segment := by
  simp [walk.escaped]

/-- Dots and escapes are gone from what is read. -/
theorem walk_settled {segments done : List (List Char)} (slash : ∀ s ∈ segments, ∀ c ∈ s, isSlash true c = false)
    (settled : ∀ s ∈ done, Settled s) : ∀ s ∈ walk false done segments, Settled s := by
  induction segments generalizing done with
  | nil => exact fun s hs => settled s (List.mem_reverse.mp hs)
  | cons segment rest ih =>
    have here : ∀ c ∈ segment, isSlash true c = false := slash segment List.mem_cons_self
    have slash : ∀ s ∈ rest, ∀ c ∈ s, isSlash true c = false := fun s hs => slash s (List.mem_cons_of_mem _ hs)
    have short : ∀ s ∈ shortened false done, Settled s := fun s hs => settled s (mem_of_mem_shortened hs)
    have add {segment : List Char} {done : List (List Char)} (first : Settled segment)
        (settled : ∀ s ∈ done, Settled s) : ∀ s ∈ segment :: done, Settled s := by
      intro s hs
      rcases List.mem_cons.mp hs with rfl | hs
      · exact first
      · exact settled s hs
    cases rest with
    | nil =>
      rw [walk, escaped_eq]
      split
      · exact fun s hs => add .nil short s (List.mem_reverse.mp hs)
      · split
        · exact fun s hs => add .nil settled s (List.mem_reverse.mp hs)
        · rename_i dots dot
          exact fun s hs => add (.encode here (by simpa using dot) (by simpa using dots)) settled s
            (List.mem_reverse.mp hs)
    | cons second rest =>
      rw [walk, escaped_eq]
      · split
        · exact ih slash short
        · split
          · exact ih slash settled
          · rename_i dots dot
            exact ih slash (add (.encode here (by simpa using dot) (by simpa using dots)) settled)
      · simp

theorem walk_ne_nil {segments : List (List Char)} (h : segments ≠ []) (file : Bool) (done : List (List Char)) :
    walk file done segments ≠ [] := by
  induction segments generalizing done with
  | nil => exact absurd rfl h
  | cons segment rest ih =>
    cases rest with
    | nil =>
      rw [walk]
      split
      · simp
      · split <;> simp
    | cons second rest =>
      rw [walk]
      · split
        · exact ih (by simp) _
        · split
          · exact ih (by simp) _
          · exact ih (by simp) _
      · simp

/-- What has been read is read as it is. -/
theorem walk_of_settled {segments : List (List Char)} (settled : ∀ s ∈ segments, Settled s)
    (done : List (List Char)) : walk false done segments = done.reverse ++ segments := by
  induction segments generalizing done with
  | nil => rw [walk, List.append_nil]
  | cons segment rest ih =>
    have here := settled segment List.mem_cons_self
    have kept : Percent.encode Percent.path segment = segment := Percent.encode_eq_self here.plain
    cases rest with
    | nil =>
      rw [walk, escaped_eq, kept, here.dots, here.dot]
      simp
    | cons second rest =>
      rw [walk, escaped_eq, kept, here.dots, here.dot]
      · rw [if_neg (by simp), if_neg (by simp), ih (fun s hs => settled s (List.mem_cons_of_mem _ hs))]
        simp
      · simp

/-- A path as a URL of a scheme with hosts has it once it is read. -/
def Path.IsSettled (path : Path) : Prop :=
  ∃ parts, path = .segments parts ∧ parts ≠ [] ∧ ∀ s ∈ parts, Settled s

section Special
variable {scheme : List Char} (special : isSpecial scheme = true) (noFile : isFile scheme = false)
include special noFile

theorem readPath_eq (text : List Char) :
    readPath scheme [] text = .segments (walk false [] ((slashNormal true text).splitOn '/')) := by
  simp [readPath, special, noFile]

theorem readPath_isSettled (text : List Char) : (readPath scheme [] text).IsSettled := by
  refine ⟨_, readPath_eq special noFile text, walk_ne_nil (List.splitOn_ne_nil _ _) _ _, walk_settled ?_ nofun⟩
  intro s hs c hc
  obtain ⟨given, notSlash⟩ := mem_splitOn hs c hc
  obtain ⟨d, _, rfl⟩ := List.mem_map.mp given
  by_cases h : isSlash true d = true
  · simp [h] at notSlash
  · simp [h]

/-- A path that was read and written is read as the same path. -/
theorem readPath_intercalate {parts : List (List Char)} (some : parts ≠ []) (settled : ∀ s ∈ parts, Settled s) :
    readPath scheme [] (['/'].intercalate parts) = .segments parts := by
  have slash {c : Char} (h : isSlash true c = true) (hc : c ∈ ['/'].intercalate parts) : c = '/' := by
    rcases mem_intercalate hc with hc | ⟨part, hpart, hc⟩
    · exact hc
    · exact absurd ((settled part hpart).slash c hc) (by simp [h])
  have normal : slashNormal true (['/'].intercalate parts) = ['/'].intercalate parts := by
    have same : ∀ c ∈ ['/'].intercalate parts, (if isSlash true c = true then '/' else c) = id c := by
      intro c hc
      split
      · rename_i h
        exact (slash h hc).symm
      · rfl
    rw [slashNormal, List.map_congr_left same, List.map_id]
  have apart : ∀ part ∈ parts, '/' ∉ part := fun part hpart h =>
    absurd ((settled part hpart).slash _ h) (by decide)
  rw [readPath_eq special noFile, normal, List.splitOn_intercalate _ apart some, walk_of_settled settled]
  rfl

end Special

@[simp] theorem write_append (front parts : List (List Char)) :
    (Path.segments (front ++ parts)).write = (Path.segments front).write ++ (Path.segments parts).write :=
  List.flatMap_append

theorem write_segments {parts : List (List Char)} (some : parts ≠ []) :
    (Path.segments parts).write = '/' :: ['/'].intercalate parts := by
  induction parts with
  | nil => exact absurd rfl some
  | cons part rest ih =>
    cases rest with
    | nil => simp [Path.write, List.intercalate]
    | cons second rest =>
      have step : (Path.segments (part :: second :: rest)).write =
          '/' :: part ++ (Path.segments (second :: rest)).write := by
        simp [Path.write]
      rw [step, ih (by simp), List.intercalate_cons_cons]
      simp

/-- A word with slashes after it. -/
def pathOf (word : List Char) (after : Nat) : Path :=
  .segments (word :: List.replicate after [])

theorem pathOf_write (word : List Char) (after : Nat) :
    (pathOf word after).write = '/' :: (word ++ List.replicate after '/') := by
  have slashes : (List.replicate after ([] : List Char)).flatMap ('/' :: ·) = List.replicate after '/' := by
    induction after with
    | zero => rfl
    | succ n ih => rw [List.replicate_succ, List.flatMap_cons, ih]; rfl
  rw [pathOf, Path.write, List.flatMap_cons, slashes]
  rfl

theorem Settled.pathOf {word : List Char} (h : Settled word) (after : Nat) : (Url.pathOf word after).IsSettled := by
  refine ⟨_, rfl, by simp, ?_⟩
  intro s hs
  rcases List.mem_cons.mp hs with rfl | hs
  · exact h
  · rw [List.eq_of_mem_replicate hs]
    exact .nil

/-- A path of slashes is read as one. -/
theorem write_readPath_slashes {scheme : List Char} (special : isSpecial scheme = true) (noFile : isFile scheme = false)
    (n : Nat) : (readPath scheme [] (afterSlash true (List.replicate n '/'))).write = List.replicate (n - 1 + 1) '/' := by
  have rest : afterSlash true (List.replicate n '/') = List.replicate (n - 1) '/' := by
    cases n with
    | zero => rfl
    | succ n => rfl
  have slashes : (pathOf [] (n - 1)).write = List.replicate (n - 1 + 1) '/' := pathOf_write [] (n - 1)
  have settled := Settled.nil.pathOf (n - 1)
  obtain ⟨parts, path, some, settled⟩ := settled
  have inner : ['/'].intercalate parts = List.replicate (n - 1) '/' := by
    rw [path, write_segments some, List.replicate_succ] at slashes
    exact (List.cons.inj slashes).2
  rw [rest, ← inner, readPath_intercalate special noFile some settled, ← path, slashes]

end ProxyMonitor.Url
