import ProxyMonitor.Proofs.Config.Resolution
import ProxyMonitor.Proofs.Files
import ProxyMonitor.Proofs.Text.Utf8
import ProxyMonitor.Proofs.Toml.Document

/-! Settings that are saved are loaded again, whatever characters are in them. -/
namespace ProxyMonitor.Config
open Text Toml
variable {c : Config}

/-- The members of a file with these settings. -/
def membersOf (c : Config) : Members :=
  let number := fun (n : Number) => Node.scalar (.integer (n.of c).toNat)
  [("base_url", .scalar (.text c.baseUrl)), ("debounce_ms", number .debounce), ("request_timeout_secs", number .timeout),
    ("cadence", .table .header [("history_ms", number (.cadence .history)), ("pool_ms", number (.cadence .pool)),
      ("blacklist_ms", number (.cadence .blacklist)), ("reverify_ms", number (.cadence .reverify))])]

theorem gives_membersOf (c : Config) : Gives c.membersOf c where
  baseUrl := rfl
  cadence := by simp [membersOf, IsCadence, List.lookup_cons]
  numbers number := by
    cases number with
    | cadence page => cases page <;> rfl
    | _ => rfl

theorem toList_toString (n : UInt64) : (toString n).toList = digits n.toNat := by
  show (Nat.repr n.toNat).toList = _
  rw [Nat.repr, String.toList_ofList]
  rfl

theorem numberText_eq_ok {n : UInt64} (small : n ≤ 0x7FFFFFFFFFFFFFFF) :
    ∃ text, numberText n = .ok text ∧ Spells (.integer n.toNat) text.toList := by
  refine ⟨s!"{n}", if_pos small, ?_⟩
  have spells : Spells (.integer n.toNat) (digits n.toNat) := .number (UInt64.le_iff_toNat_le.mp small)
  rw [← toList_toString] at spells
  exact spells

theorem lines_pairText {p q : Progress} {key value : String} {s : Scalar} {rest : List Char} {members : Members}
    (bare : IsBareKey key) (spells : Spells s value.toList) (added : addPair p [] key (.scalar s) = some q)
    (more : Lines q rest members) : Lines p ((pairText key value).toList ++ rest) members := by
  have line : (pairText key value).toList ++ rest = key.toList ++ ' ' :: '=' :: (' ' :: value.toList ++ '\n' :: rest) := by
    simp [pairText, toString]
  rw [line]
  exact .pair bare spells added more

/-- A file whose numbers are not too large is written line by line, and its lines give these members. -/
theorem toText_eq_ok (small : ∀ number : Number, number.of c ≤ 0x7FFFFFFFFFFFFFFF) :
    ∃ text, c.toText = .ok text ∧ Lines {} text.toList c.membersOf := by
  have number (n : Number) := numberText_eq_ok (small n)
  obtain ⟨debounce, wroteDebounce, spellsDebounce⟩ := number .debounce
  obtain ⟨timeout, wroteTimeout, spellsTimeout⟩ := number .timeout
  obtain ⟨history, wroteHistory, spellsHistory⟩ := number (.cadence .history)
  obtain ⟨pool, wrotePool, spellsPool⟩ := number (.cadence .pool)
  obtain ⟨blacklist, wroteBlacklist, spellsBlacklist⟩ := number (.cadence .blacklist)
  obtain ⟨reverify, wroteReverify, spellsReverify⟩ := number (.cadence .reverify)
  simp only [Number.of, Cadence.of] at wroteDebounce wroteTimeout wroteHistory wrotePool wroteBlacklist wroteReverify
  simp only [toText, wroteDebounce, wroteTimeout, wroteHistory, wrotePool, wroteBlacklist, wroteReverify, bind, Except.bind,
    pure, Except.pure]
  refine ⟨_, rfl, ?_⟩
  have url : Spells (.text c.baseUrl) (String.ofList (writeQuoted c.baseUrl.toList)).toList := by
    have spells := Spells.text c.baseUrl.toList
    rwa [String.ofList_toList, ← String.toList_ofList (l := writeQuoted c.baseUrl.toList)] at spells
  have header (rest : List Char) :
      "\n[cadence]\n".toList ++ rest = '\n' :: '[' :: ("cadence".toList ++ ']' :: '\n' :: rest) := rfl
  have cadence : IsBareKey "cadence" := by decide
  have last (text : String) : text.toList = text.toList ++ [] := (List.append_nil _).symm
  simp only [String.join, List.foldl, String.toList_append, String.toList_empty, List.nil_append, List.append_assoc, header]
  rw [last (pairText "reverify_ms" reverify)]
  refine lines_pairText (by decide) url (addPair_top rfl) ?_
  refine lines_pairText (by decide) spellsDebounce (addPair_top rfl) ?_
  refine lines_pairText (by decide) spellsTimeout (addPair_top rfl) ?_
  refine .blank (.header cadence (addTable_top rfl) ?_)
  refine lines_pairText (by decide) spellsHistory (addPair_below rfl rfl) ?_
  refine lines_pairText (by decide) spellsPool (addPair_below rfl rfl) ?_
  refine lines_pairText (by decide) spellsBlacklist (addPair_below rfl rfl) ?_
  exact lines_pairText (by decide) spellsReverify (addPair_below rfl rfl) (.done _)

/-- Settings that are valid, and whose numbers are not too large, are saved wherever a file may be put, and what is loaded from
there are the same settings. -/
theorem saved_loads_back (c : Config) (files : Files) (path : String) (valid : c.validate = .ok ())
    (small : ∀ number : Number, number.of c ≤ 0x7FFFFFFFFFFFFFFF) (writable : files.Writable path) :
    ∃ after, c.save files path = .ok after ∧ load after path = .ok c := by
  obtain ⟨text, wrote, lines⟩ := toText_eq_ok small
  obtain ⟨made, after, created, written, found⟩ := writable.written (Utf8.ofString text)
  refine ⟨after, ?_, load_eq_ok.mpr ⟨text, ?_, ?_, valid⟩⟩
  · simp only [save, wrote, created, written, bind, Except.bind, Except.mapError]
  · simp only [Files.readText, found, bind, Except.bind, Utf8.toString?_ofString]
    rfl
  · exact ofText?_eq_some.mpr ⟨c.membersOf, lines.read, gives_membersOf c⟩

/-- A root of the API with every kind of character that calls for another form. -/
def hardUrl : String :=
  "https://a\"\"\"b\'\'\'c\\d\ne\rf\u0001\u007f"

def hardSettings : Config :=
  { baseUrl := hardUrl, timeout := 1, cadence := { pool := 0x7FFFFFFFFFFFFFFF } }

theorem saved_loads_back_hard :
    ∃ after, hardSettings.save {} "etc/watch.toml" = .ok after ∧ load after "etc/watch.toml" = .ok hardSettings := by
  refine saved_loads_back _ _ _ (validate_eq_ok.mpr ⟨.inr (by decide), by decide, by decide⟩) ?_ ?_
  · intro number
    cases number with
    | cadence page => cases page <;> decide
    | _ => decide
  · exact ⟨by decide, by decide +kernel, ⟨[(["etc"], .directory)]⟩, by decide +kernel, by decide +kernel⟩

end ProxyMonitor.Config
