import ProxyMonitor.Proofs.Url.Join

/-! Segments that are appended to a path: one more segment, which stands for the text that was given, unless there are
tabs or line ends in it or it is a dot or two. -/
namespace ProxyMonitor.Url
open ProxyMonitor.Text
variable {u : Url} {parts : List (List Char)} {segment : List Char}

/-- Tabs and line ends, which are dropped wherever they stand. -/
def isDropped (c : Char) : Bool :=
  c == '\t' || c == '\n' || c == '\r'

/-- What a segment makes of a path. -/
def pushed (parts : List (List Char)) (segment : List Char) : List (List Char) :=
  let kept := segment.filter (! isDropped ·)
  if segment = ['.'] ∨ segment = ['.', '.'] then parts
  else if kept = ['.', '.'] then parts.dropLast ++ [[]]
  else if kept = ['.'] then parts ++ [[]]
  else parts ++ [Percent.encode Percent.specialPathSegment kept]

private theorem eq_dot {c : Char} (ascii : c.toNat < 0x80) (h : c.toLower = '.') : c = '.' :=
  of_ascii (p := fun c => c.toLower = '.' → c = '.') (by decide) ascii h

private theorem eq_percent {c : Char} (ascii : c.toNat < 0x80) (h : c.toLower = '%') : c = '%' :=
  of_ascii (p := fun c => c.toLower = '%' → c = '%') (by decide) ascii h

/-- A dot segment that is written without percent signs is made of dots. -/
private theorem dots_of_forms {text : List Char} (h : text.map Char.toLower ∈ dotForms)
    (plain : ∀ c ∈ text, c.toNat < 0x80 ∧ Percent.specialPathSegment c = false) : ∀ c ∈ text, c = '.' := by
  have noPercent : '%' ∉ text.map Char.toLower := by
    intro percent
    obtain ⟨c, hc, lower⟩ := List.mem_map.mp percent
    have escaped := (plain c hc).2
    rw [eq_percent (plain c hc).1 lower] at escaped
    exact absurd escaped (by decide)
  have dots : (dotForms.all fun form => form.contains '%' || form.all (· == '.')) = true := by decide
  have dots := List.all_eq_true.mp dots _ h
  simp only [Bool.or_eq_true, List.contains_iff_mem, noPercent, false_or, List.all_eq_true, beq_iff_eq] at dots
  exact fun c hc => eq_dot (plain c hc).1 (dots _ (List.mem_map_of_mem hc))

/-- Escapes do not make a dot segment of anything. -/
theorem dots_of_encode {text : List Char} (h : (Percent.encode Percent.specialPathSegment text).map Char.toLower ∈ dotForms) :
    Percent.encode Percent.specialPathSegment text = text ∧ ∀ c ∈ text, c = '.' := by
  have plain := plain_of_dotForms (by decide) h
  have same := Percent.encode_eq_self plain
  rw [same] at h
  exact ⟨same, dots_of_forms h plain⟩

private theorem isDot_dots (n : Nat) : isDot (List.replicate n '.') = true ↔ n = 1 := by
  match n with
  | 0 | 1 | 2 => decide
  | n + 3 => simp [isDot, List.replicate_succ]

private theorem isDoubleDot_dots (n : Nat) : isDoubleDot (List.replicate n '.') = true ↔ n = 2 := by
  match n with
  | 0 | 1 | 2 => decide
  | n + 3 => simp [isDoubleDot, List.replicate_succ]

theorem isDot_encode (text : List Char) : isDot (Percent.encode Percent.specialPathSegment text) = true ↔ text = ['.'] := by
  constructor
  · intro h
    obtain ⟨same, dots⟩ := dots_of_encode (dotForms_of_isDot h)
    rw [same, List.eq_replicate_of_mem dots, isDot_dots] at h
    rw [List.eq_replicate_of_mem dots, h]
    rfl
  · rintro rfl
    decide

theorem isDoubleDot_encode (text : List Char) :
    isDoubleDot (Percent.encode Percent.specialPathSegment text) = true ↔ text = ['.', '.'] := by
  constructor
  · intro h
    obtain ⟨same, dots⟩ := dots_of_encode (dotForms_of_isDoubleDot h)
    rw [same, List.eq_replicate_of_mem dots, isDoubleDot_dots] at h
    rw [List.eq_replicate_of_mem dots, h]
    rfl
  · rintro rfl
    decide

theorem pushSegment?_eq (special : isSpecial u.scheme = true) (path : u.path = .segments parts) (deep : parts ≠ [[]])
    (segment : List Char) : u.pushSegment? segment = some { u with path := .segments (pushed parts segment) } := by
  unfold pushSegment? pushed isDropped
  rw [path]
  dsimp only
  rw [special, if_pos rfl, if_neg deep]
  split
  · rw [← path]
  · simp only [isDot_encode, isDoubleDot_encode]

/-- The text stands for itself in a path. -/
def IsAddressable (text : List Char) : Prop :=
  text ≠ ['.'] ∧ text ≠ ['.', '.'] ∧ ∀ c ∈ text, isDropped c = false

theorem pushed_of_isAddressable (h : IsAddressable segment) :
    pushed parts segment = parts ++ [Percent.encode Percent.specialPathSegment segment] := by
  obtain ⟨dot, dots, kept⟩ := h
  have same : segment.filter (! isDropped ·) = segment := List.filter_eq_self.mpr fun c hc => by simp [kept c hc]
  unfold pushed
  dsimp only
  rw [same, if_neg (by simp [dot, dots]), if_neg dots, if_neg dot]

/-- What is pushed holds no mark that ends a segment. -/
theorem mem_encode_segment {text : List Char} {c : Char} (h : c ∈ Percent.encode Percent.specialPathSegment text) :
    c ≠ '/' ∧ endsPath c = false := by
  have ends (d : Char) (special : Percent.specialPathSegment d = true) (escape : Percent.isEscape d = false) : c ≠ d := by
    rintro rfl
    rcases Percent.mem_encode h with escaped | ⟨_, _, plain⟩
    · simp [escape] at escaped
    · simp [special] at plain
  refine ⟨ends '/' (by decide) (by decide), ?_⟩
  simp [endsPath, ends '?' (by decide) (by decide), ends '#' (by decide) (by decide)]

/-- The target is the collection's with one more segment, which stands for the text. -/
def Names (target collection text : List Char) : Prop :=
  ∃ segment, (∀ c ∈ segment, c ≠ '/' ∧ endsPath c = false) ∧ target = collection ++ '/' :: segment ∧
    Percent.decode segment = Utf8.encode text

theorem Names.text_eq {target collection text other : List Char} (h : Names target collection text)
    (same : Names target collection other) : text = other := by
  obtain ⟨segment, _, rfl, read⟩ := h
  obtain ⟨segment', _, target, read'⟩ := same
  obtain rfl := (List.cons.inj (List.append_cancel_left target)).2
  exact Utf8.encode_injective (read.symm.trans read')

theorem Names.decode_eq {collection given text : List Char} (h : Names (collection ++ '/' :: given) collection text) :
    Percent.decode given = Utf8.encode text := by
  obtain ⟨segment, _, same, read⟩ := h
  obtain rfl := (List.cons.inj (List.append_cancel_left same)).2
  exact read

theorem write_concat (parts : List (List Char)) (word : List Char) :
    (Path.segments (parts ++ [word])).write = (Path.segments parts).write ++ '/' :: word := by
  rw [write_append]
  simp [Path.write]

/-- The texts that are named by the path that they make are those that stand for themselves. -/
theorem names_pushed (parts : List (List Char)) (word segment : List Char) :
    Names (Path.segments (pushed (parts ++ [word]) segment)).write (Path.segments (parts ++ [word])).write segment ↔
      IsAddressable segment := by
  constructor
  · intro named
    unfold pushed at named
    dsimp only at named
    split at named
    · obtain ⟨_, _, same, _⟩ := named
      simp at same
    · rename_i noDots
      rw [not_or] at noDots
      refine ⟨noDots.1, noDots.2, ?_⟩
      split at named
      · obtain ⟨_, _, same, _⟩ := named
        rw [List.dropLast_concat, write_concat, write_concat, List.append_assoc] at same
        have same := (List.cons.inj (List.append_cancel_left same)).2
        simp at same
      · split at named
        · rename_i dot
          rw [write_concat _ []] at named
          have empty : [] = segment := Utf8.encode_injective named.decode_eq
          rw [← empty] at dot
          cases dot
        · rw [write_concat _ (Percent.encode _ _)] at named
          have kept : segment.filter (! isDropped ·) = segment :=
            Utf8.encode_injective ((Percent.decode_encode (by decide) _).symm.trans named.decode_eq)
          exact fun c hc => by simpa using List.filter_eq_self.mp kept c hc
  · intro h
    rw [pushed_of_isAddressable h]
    exact ⟨_, fun c hc => mem_encode_segment hc, write_concat _ _, Percent.decode_encode (by decide) _⟩

/-- Dots alone lead to the collection itself. -/
theorem write_pushed_eq_iff (parts : List (List Char)) {word : List Char} (some : word ≠ []) (segment : List Char) :
    (Path.segments (pushed (parts ++ [word]) segment)).write = (Path.segments (parts ++ [word])).write ↔
      segment = ['.'] ∨ segment = ['.', '.'] := by
  unfold pushed
  dsimp only
  split
  · rename_i dots
    exact ⟨fun _ => dots, fun _ => rfl⟩
  · rename_i noDots
    refine ⟨fun same => ?_, fun dots => absurd dots noDots⟩
    split at same
    · rw [List.dropLast_concat, write_concat, write_concat] at same
      exact absurd (List.cons.inj (List.append_cancel_left same)).2.symm some
    · split at same
      · rw [write_concat _ []] at same
        simp at same
      · rw [write_concat _ (Percent.encode _ _)] at same
        simp at same

end ProxyMonitor.Url
