import ProxyMonitor.Answer
import ProxyMonitor.Proofs.Json.Codec
import ProxyMonitor.Proofs.Time.Rfc3339
import ProxyMonitor.Record.Collection

/-! An answer that was read is written again without loss: each of its records, its facets and its total is read from
both texts as it was. -/
namespace ProxyMonitor
open ProxyMonitor.Json ProxyMonitor.Json.Decoder ProxyMonitor.Record ProxyMonitor.Http ProxyMonitor.Time

namespace Record
variable {nested : Nat}

theorem survives_natural {n bound : Nat} (below : n < bound) (fits : bound ≤ UInt64.size) :
    Survives nested (Decoder.natural bound) .nat n where
  exact := .int _
  read _ _ := natural_nat (Nat.le_of_lt_succ (Nat.lt_of_lt_of_le below fits)) below

theorem survives_word64 (n : UInt64) : Survives nested word64 (fun n => .nat n.toNat) n where
  exact := .int _
  read depth deep := by
    have value := (survives_natural n.toNat_lt (Nat.le_refl _)).read deep
    rw [word64, value, Option.map_some, Nat.toUInt64_eq, UInt64.ofNat_toNat]

theorem survives_word32 (n : UInt32) : Survives nested word32 (fun n => .nat n.toNat) n where
  exact := .int _
  read depth deep := by
    have value := (survives_natural n.toNat_lt (by decide : UInt32.size ≤ UInt64.size)).read deep
    rw [word32, value, Option.map_some, Nat.toUInt32_eq, UInt32.ofNat_toNat]

theorem survives_int64 (i : Int64) : Survives nested int64 (fun i => .int i.toInt) i where
  exact := .int _
  read depth _ := by
    have least : minInteger ≤ i.toInt := i.le_toInt
    have most : i.toInt ≤ maxInteger := Int.le_of_lt_add_one i.toInt_lt
    simp [int64, integer_int least most]

theorem survives_instant {t : Instant} (writable : t.Writable) : Survives nested instant ofInstant t where
  exact := .text _
  read depth deep := by
    rw [instant, ofInstant, (survives_text _).read deep, Option.bind_some, String.toList_ofList, Rfc3339.read_write writable]

theorem survives_time {t : Option Instant} (writable : ∀ u ∈ t, u.Writable) :
    Survives nested (nullable instant) (.optional ofInstant) t :=
  .nullable (fun u hu => survives_instant (writable u hu)) fun u null => by
    rw [ofInstant, Value.doc] at null
    cases null

theorem instant_yields (depth : Nat) (d : Doc) : Yields Instant.Writable (instant depth d) :=
  .bind fun text _ => Rfc3339.read_writable text.toList

/-- Times that were read can be written. -/
theorem time_yields (parts : Nat × (String → Option Doc)) (name : String) :
    Yields (fun t : Option Instant => ∀ u ∈ t, u.Writable) (Decoder.optional parts name none (nullable instant)) :=
  have empty : ∀ u ∈ (none : Option Instant), u.Writable := nofun
  optional_yields (nullable_yields instant_yields) empty parts name

end Record

namespace PoolRecord

theorem survives {r : PoolRecord} (after : ∀ t ∈ r.reanimateAfter, t.Writable) : Survives 2 decode encode r := by
  have time : Survives 1 (nullable instant) (.optional ofInstant) r.reanimateAfter := survives_time after
  have hours (items : List UInt64) : Survives 1 (Decoder.list word64) (.list fun n => .nat n.toNat) items :=
    .list fun n _ => survives_word64 n
  constructor
  · refine .object ?_
    simp only [List.forall_mem_cons]
    refine ⟨.text _, .int _, .int _, time.exact, .bool _, .int _, .int _, .int _, .int _, .int _, .int _, ?_⟩
    exact ⟨(hours _).exact, (hours _).exact, .text _, .text _, .int _, nofun⟩
  · intro depth deep
    refine read_object (by decide : fieldNames.Nodup) deep fun inner deep => ?_
    refine (survives_text _).field deep rfl ((survives_int64 _).field deep rfl ?_)
    refine (survives_int64 _).field deep rfl (time.field deep rfl ?_)
    refine (survives_bool _).field deep rfl ((survives_word64 _).field deep rfl ?_)
    refine (survives_word32 _).field deep rfl ((survives_word32 _).field deep rfl ?_)
    refine (survives_word64 _).field deep rfl ((survives_word32 _).field deep rfl ?_)
    refine (survives_word64 _).field deep rfl ((hours _).field deep rfl ?_)
    refine (hours _).field deep rfl ((survives_text _).field deep rfl ?_)
    exact (survives_text _).field deep rfl ((survives_word32 _).field deep rfl rfl)

theorem lossless : Lossless 2 decode encode := by
  intro depth d
  refine .bind fun parts _ => .bind fun _ _ => .bind fun _ _ => .bind fun _ _ => .bind fun after given => ?_
  refine .bind fun _ _ => .bind fun _ _ => .bind fun _ _ => .bind fun _ _ => .bind fun _ _ => .bind fun _ _ => ?_
  refine .bind fun _ _ => .bind fun _ _ => .bind fun _ _ => .bind fun _ _ => .bind fun _ _ => .bind fun _ _ => ?_
  rintro _ ⟨⟩
  exact survives (time_yields parts _ after given)

end PoolRecord

namespace BlacklistRecord

theorem survives (r : BlacklistRecord) : Survives 2 decode encode r := by
  have sources : Survives 1 (Decoder.list Decoder.text) (.list .text) r.sources := .list fun s _ => survives_text s
  constructor
  · refine .object ?_
    simp only [List.forall_mem_cons]
    exact ⟨.text _, .text _, .text _, .int _, .text _, sources.exact, nofun⟩
  · intro depth deep
    refine read_object (by decide : fieldNames.Nodup) deep fun inner deep => ?_
    refine (survives_text _).field deep rfl ((survives_text _).field deep rfl ?_)
    refine (survives_text _).field deep rfl ((survives_word32 _).field deep rfl ?_)
    exact (survives_text _).field deep rfl (sources.field deep rfl rfl)

end BlacklistRecord

namespace ReverifyRecord

theorem survives {r : ReverifyRecord} (after : ∀ t ∈ r.after, t.Writable) : Survives 2 decode encode r := by
  have time : Survives 1 (nullable instant) (.optional ofInstant) r.after := survives_time after
  have sources : Survives 1 (Decoder.list Decoder.text) (.list .text) r.sources := .list fun s _ => survives_text s
  constructor
  · refine .object ?_
    simp only [List.forall_mem_cons]
    exact ⟨.text _, .int _, time.exact, .text _, .text _, .int _, .text _, sources.exact, nofun⟩
  · intro depth deep
    refine read_object (by decide : fieldNames.Nodup) deep fun inner deep => ?_
    refine (survives_text _).field deep rfl ((survives_word32 _).field deep rfl ?_)
    refine time.field deep rfl ((survives_text _).field deep rfl ?_)
    refine (survives_text _).field deep rfl ((survives_word32 _).field deep rfl ?_)
    exact (survives_text _).field deep rfl (sources.field deep rfl rfl)

theorem lossless : Lossless 2 decode encode := by
  intro depth d
  refine .bind fun parts _ => .bind fun _ _ => .bind fun _ _ => .bind fun after given => ?_
  refine .bind fun _ _ => .bind fun _ _ => .bind fun _ _ => .bind fun _ _ => .bind fun _ _ => ?_
  rintro _ ⟨⟩
  exact survives (time_yields parts _ after given)

end ReverifyRecord

/-- The records of every page without doubles. -/
theorem Record.lossless {page : Page} (plain : page ≠ .history) :
    Lossless 2 (Collection.ofPage page).decode (Collection.ofPage page).encode := by
  cases page with
  | history => exact absurd rfl plain
  | pool => exact PoolRecord.lossless
  | blacklist => exact fun _ _ r _ => r.survives
  | reverify => exact ReverifyRecord.lossless

/-- What a value was, it is a text from then on. -/
theorem FacetEntry.survives (e : FacetEntry) : Survives 1 decode encode e where
  exact := by
    refine .object ?_
    simp only [List.forall_mem_cons]
    exact ⟨.text _, .text _, .text _, nofun⟩
  read depth deep := by
    have value : Survives 0 decodeValue .text e.value := ⟨.text _, fun _ deep => (survives_text e.value).read deep⟩
    refine read_object (by decide : ["Name", "Value", "Filter"].Nodup) deep fun inner deep => ?_
    refine (survives_text _).requiredField deep rfl (value.requiredField deep rfl ?_)
    exact (survives_text _).field deep rfl rfl

theorem Facet.survives (f : Facet) : Survives 3 decode encode f := by
  have top : Survives 2 (listOrNull FacetEntry.decode) (.list FacetEntry.encode) f.top :=
    .listOrNull fun e _ => e.survives
  constructor
  · refine .object ?_
    simp only [List.forall_mem_cons]
    exact ⟨.text _, top.exact, nofun⟩
  · intro depth deep
    refine read_object (by decide : ["Name", "Top"].Nodup) deep fun inner deep => ?_
    exact (survives_text _).requiredField deep rfl (top.field deep rfl rfl)

namespace Answer
variable {α : Type} {record : Decoder α} {write : α → Value}

theorem survives {a : Answer α} (each : ∀ r ∈ a.records, Survives 2 record write r) :
    Survives 5 (decode record) (encode write) a := by
  have records : Survives 3 (listOrNull record) (.list write) a.records := .listOrNull each
  have facets (list : List Facet) :
      Survives 4 (nullable (Decoder.list Facet.decode)) (.optional (.list Facet.encode)) (some list) := by
    refine .nullable (fun given hgiven => ?_) nofun
    exact .list fun f _ => f.survives
  have total : Survives 4 (Decoder.natural UInt64.size) .nat a.total.toNat := survives_natural a.total.toNat_lt (Nat.le_refl _)
  have whole : a.total.toNat.toUInt64 = a.total := UInt64.ofNat_toNat
  obtain ⟨count, items, found⟩ := a
  cases found with
  | none =>
    constructor
    · refine .object ?_
      simp only [List.append_nil, List.forall_mem_cons]
      exact ⟨total.exact, records.exact, nofun⟩
    · intro depth deep
      refine read_object (by decide : ["Total", "Records"].Nodup) deep fun inner deep => ?_
      refine total.requiredField deep rfl (records.field (by omega) rfl ?_)
      exact congrArg (fun n => some (⟨n, items, none⟩ : Answer α)) whole
  | some found =>
    constructor
    · refine .object ?_
      simp only [List.cons_append, List.nil_append, List.forall_mem_cons]
      exact ⟨total.exact, records.exact, (facets found).exact, nofun⟩
    · intro depth deep
      refine read_object (by decide : ["Total", "Records", "Facets"].Nodup) deep fun inner deep => ?_
      refine total.requiredField deep rfl (records.field (by omega) rfl ((facets found).field deep rfl ?_))
      exact congrArg (fun n => some (⟨n, items, some found⟩ : Answer α)) whole

theorem lossless (each : Lossless 2 record write) : Lossless 5 (decode record) (encode write) := by
  intro depth d
  refine .bind fun parts _ => .bind fun _ _ => .bind fun items hitems => .bind fun _ _ => ?_
  rintro _ ⟨⟩
  have none : ∀ r ∈ ([] : List α), Survives 2 record write r := nofun
  exact survives (optional_yields (listOrNull_yields each) none parts _ items hitems)

/-- An answer that was read is written so that it is read as the same answer, from the text on one line and from the
text over several, whatever blanks come after. -/
theorem reencoded_read_back {page : Page} (plain : page ≠ .history) {status again : Status}
    (success : status.isSuccess = true) (success' : again.isSuccess = true) {body : List UInt8}
    {a : Answer (Collection.ofPage page).Item}
    (read : ofResponse (Collection.ofPage page).decode status body = .ok a) {after : String}
    (blank : ∀ c ∈ after.toList, Token.isSpace c = true) :
    ofResponse (Collection.ofPage page).decode again
        (Text.Utf8.ofString ((encode (Collection.ofPage page).encode a).toText ++ after)) = .ok a ∧
      ofResponse (Collection.ofPage page).decode again
        (Text.Utf8.ofString ((encode (Collection.ofPage page).encode a).toPrettyText ++ after)) = .ok a := by
  obtain ⟨d, _, decoded⟩ := Option.bind_eq_some_iff.mp ((ofResponse_eq_ok success).mp read)
  have survives := lossless (Record.lossless plain) depthLimit d a decoded
  have decoded := survives.read (by decide : 5 < depthLimit)
  obtain ⟨compact, pretty⟩ := survives.exact.read_text blank
  constructor
  · refine (ofResponse_eq_ok success').mpr ?_
    rw [Decoder.run, compact, Option.bind_some, decoded]
  · refine (ofResponse_eq_ok success').mpr ?_
    rw [Decoder.run, pretty, Option.bind_some, decoded]

private def leapAnswer : Answer (Collection.ofPage .reverify).Item :=
  ⟨2, [{ proxy := "é", attempt := 7, after := some ⟨1483228799, 1000000000⟩ : ReverifyRecord }],
    some [⟨"n", [⟨"m", "-7", ""⟩]⟩]⟩

private def leapBody : List UInt8 :=
  Text.Utf8.ofString
    "\x7b\"Total\":2,\"Records\":[[\"é\",7,\"2016-12-31 18:59:60-05:00\"]],\"Facets\":[[\"n\",[[\"m\",-7]]]]\x7d"

/-- A record in the order of its fields, with a leap second of another zone, and a facet whose value is a number. -/
theorem reencoded_read_back_leap :
    ofResponse (Collection.ofPage .reverify).decode ⟨200⟩ leapBody = .ok leapAnswer ∧
      ofResponse (Collection.ofPage .reverify).decode ⟨200⟩
        (Text.Utf8.ofString ((encode (Collection.ofPage .reverify).encode leapAnswer).toPrettyText ++ "\n")) =
          .ok leapAnswer := by
  have read : ofResponse (Collection.ofPage .reverify).decode ⟨200⟩ leapBody = .ok leapAnswer := by with_unfolding_all rfl
  have blank : ∀ c ∈ "\n".toList, Token.isSpace c = true := List.forall_mem_singleton.mpr rfl
  exact ⟨read, (reencoded_read_back (by decide) (by decide) (by decide) read blank).2⟩

end Answer
end ProxyMonitor
