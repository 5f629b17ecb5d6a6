import ProxyMonitor.Proofs.Json.Restated
import ProxyMonitor.Proofs.Record.EmptyLists

/-! The order of members, and members that are not known, make no difference to answers; a field that is left out has
its default, and all others are as they were. -/
namespace ProxyMonitor
open ProxyMonitor.Json ProxyMonitor.Record ProxyMonitor.Http

variable {name : String} {depth : Nat} {d d' : Doc}

namespace Record
variable {shape : Shape}

theorem follows_text : Decoder.Follows shape Decoder.text :=
  Decoder.follows_of_none (fun _ _ => rfl) fun _ _ => rfl

theorem follows_bool : Decoder.Follows shape Decoder.bool :=
  Decoder.follows_of_none (fun _ _ => rfl) fun _ _ => rfl

theorem follows_double : Decoder.Follows shape Decoder.double :=
  Decoder.follows_of_none (fun _ _ => rfl) fun _ _ => rfl

theorem follows_natural (bound : Nat) : Decoder.Follows shape (Decoder.natural bound) :=
  Decoder.follows_of_none (fun _ _ => rfl) fun _ _ => rfl

theorem follows_word64 : Decoder.Follows shape word64 :=
  Decoder.follows_of_none (fun _ _ => rfl) fun _ _ => rfl

theorem follows_word32 : Decoder.Follows shape word32 :=
  Decoder.follows_of_none (fun _ _ => rfl) fun _ _ => rfl

theorem follows_word16 : Decoder.Follows shape word16 :=
  Decoder.follows_of_none (fun _ _ => rfl) fun _ _ => rfl

theorem follows_int64 : Decoder.Follows shape int64 :=
  Decoder.follows_of_none (fun _ _ => rfl) fun _ _ => rfl

theorem follows_instant : Decoder.Follows shape (Decoder.nullable instant) :=
  Decoder.follows_of_none (fun _ _ => rfl) fun _ _ => rfl

/-- What a record type is read from: an object with these fields, none of which holds objects. -/
def shapeOf (names : List String) : Shape :=
  .record names fun _ => .leaf

end Record

namespace HistoryRecord

theorem follows : Decoder.Follows (shapeOf fieldNames) decode :=
  Decoder.follows_record fun parts parts' alike => by
    simp only [alike.optional _ follows_word64, alike.optional _ follows_word32, alike.optional _ follows_word16,
      alike.optional _ follows_instant, alike.optional _ follows_text, alike.optional _ follows_double]

/-- The record as it is read without the field. -/
def without (name : String) (r : HistoryRecord) : HistoryRecord where
  id := Decoder.kept name "ID" 0 r.id
  serial := Decoder.kept name "Serial" 0 r.serial
  attempt := Decoder.kept name "Attempt" 0 r.attempt
  ts := Decoder.kept name "Ts" none r.ts
  method := Decoder.kept name "Method" "" r.method
  url := Decoder.kept name "URL" "" r.url
  status := Decoder.kept name "Status" "" r.status
  statusCode := Decoder.kept name "StatusCode" 0 r.statusCode
  proxy := Decoder.kept name "Proxy" "" r.proxy
  appeared := Decoder.kept name "Appeared" 0 r.appeared
  size := Decoder.kept name "Size" 0 r.size
  took := Decoder.kept name "Took" Binary64.zero r.took

variable {r : HistoryRecord}

theorem decode_without (known : name ∈ fieldNames) (gone : Without fieldNames name d d') (read : decode depth d = some r) :
    decode depth d' = some (r.without name) := by
  obtain ⟨parts, given, read⟩ := Option.bind_eq_some_iff.mp read
  obtain ⟨parts', given', omits⟩ := Decoder.fields_without (by decide) known gone given
  refine Option.bind_eq_some_iff.mpr ⟨parts', given', omits.step (fun _ => ?_) read⟩
  refine omits.step fun _ => omits.step fun _ => omits.step fun _ => omits.step fun _ => omits.step fun _ => ?_
  refine omits.step fun _ => omits.step fun _ => omits.step fun _ => omits.step fun _ => omits.step fun _ => ?_
  refine omits.step fun _ whole => ?_
  cases whole
  rfl

end HistoryRecord

namespace PoolRecord

theorem follows : Decoder.Follows (shapeOf fieldNames) decode :=
  Decoder.follows_record fun parts parts' alike => by
    simp only [alike.optional _ follows_word64, alike.optional _ follows_word32, alike.optional _ follows_int64,
      alike.optional _ follows_instant, alike.optional _ follows_text, alike.optional _ follows_bool,
      alike.optional _ (Decoder.Follows.list fun _ => follows_word64)]

/-- The record as it is read without the field. -/
def without (name : String) (r : PoolRecord) : PoolRecord where
  proxy := Decoder.kept name "Proxy" "" r.proxy
  firstSeen := Decoder.kept name "FirstSeen" 0 r.firstSeen
  lastSeen := Decoder.kept name "LastSeen" 0 r.lastSeen
  reanimateAfter := Decoder.kept name "ReanimateAfter" none r.reanimateAfter
  ok := Decoder.kept name "Ok" false r.ok
  speed := Decoder.kept name "Speed" 0 r.speed
  seen := Decoder.kept name "Seen" 0 r.seen
  timeouts := Decoder.kept name "Timeouts" 0 r.timeouts
  offered := Decoder.kept name "Offered" 0 r.offered
  reanimated := Decoder.kept name "Reanimated" 0 r.reanimated
  succeed := Decoder.kept name "Succeed" 0 r.succeed
  hourOffered := Decoder.kept name "HourOffered" [] r.hourOffered
  hourSucceed := Decoder.kept name "HourSucceed" [] r.hourSucceed
  country := Decoder.kept name "Country" "" r.country
  provider := Decoder.kept name "Provider" "" r.provider
  asn := Decoder.kept name "ASN" 0 r.asn

variable {r : PoolRecord}

theorem decode_without (known : name ∈ fieldNames) (gone : Without fieldNames name d d') (read : decode depth d = some r) :
    decode depth d' = some (r.without name) := by
  obtain ⟨parts, given, read⟩ := Option.bind_eq_some_iff.mp read
  obtain ⟨parts', given', omits⟩ := Decoder.fields_without (by decide) known gone given
  refine Option.bind_eq_some_iff.mpr ⟨parts', given', omits.step (fun _ => ?_) read⟩
  refine omits.step fun _ => omits.step fun _ => omits.step fun _ => omits.step fun _ => omits.step fun _ => ?_
  refine omits.step fun _ => omits.step fun _ => omits.step fun _ => omits.step fun _ => omits.step fun _ => ?_
  refine omits.step fun _ => omits.step fun _ => omits.step fun _ => omits.step fun _ => omits.step fun _ whole => ?_
  cases whole
  rfl

end PoolRecord

namespace BlacklistRecord

theorem follows : Decoder.Follows (shapeOf fieldNames) decode :=
  Decoder.follows_record fun parts parts' alike => by
    simp only [alike.optional _ follows_word32, alike.optional _ follows_text,
      alike.optional _ (Decoder.Follows.list fun _ => follows_text)]

/-- The record as it is read without the field. -/
def without (name : String) (r : BlacklistRecord) : BlacklistRecord where
  proxy := Decoder.kept name "Proxy" "" r.proxy
  country := Decoder.kept name "Country" "" r.country
  provider := Decoder.kept name "Provider" "" r.provider
  asn := Decoder.kept name "ASN" 0 r.asn
  failure := Decoder.kept name "Failure" "" r.failure
  sources := Decoder.kept name "Sources" [] r.sources

variable {r : BlacklistRecord}

theorem decode_without (known : name ∈ fieldNames) (gone : Without fieldNames name d d') (read : decode depth d = some r) :
    decode depth d' = some (r.without name) := by
  obtain ⟨parts, given, read⟩ := Option.bind_eq_some_iff.mp read
  obtain ⟨parts', given', omits⟩ := Decoder.fields_without (by decide) known gone given
  refine Option.bind_eq_some_iff.mpr ⟨parts', given', omits.step (fun _ => ?_) read⟩
  refine omits.step fun _ => omits.step fun _ => omits.step fun _ => omits.step fun _ => omits.step fun _ whole => ?_
  cases whole
  rfl

end BlacklistRecord

namespace ReverifyRecord

theorem follows : Decoder.Follows (shapeOf fieldNames) decode :=
  Decoder.follows_record fun parts parts' alike => by
    simp only [alike.optional _ follows_word32, alike.optional _ follows_text, alike.optional _ follows_instant,
      alike.optional _ (Decoder.Follows.list fun _ => follows_text)]

/-- The record as it is read without the field. -/
def without (name : String) (r : ReverifyRecord) : ReverifyRecord where
  proxy := Decoder.kept name "Proxy" "" r.proxy
  attempt := Decoder.kept name "Attempt" 0 r.attempt
  after := Decoder.kept name "After" none r.after
  country := Decoder.kept name "Country" "" r.country
  provider := Decoder.kept name "Provider" "" r.provider
  asn := Decoder.kept name "ASN" 0 r.asn
  failure := Decoder.kept name "Failure" "" r.failure
  sources := Decoder.kept name "Sources" [] r.sources

variable {r : ReverifyRecord}

theorem decode_without (known : name ∈ fieldNames) (gone : Without fieldNames name d d') (read : decode depth d = some r) :
    decode depth d' = some (r.without name) := by
  obtain ⟨parts, given, read⟩ := Option.bind_eq_some_iff.mp read
  obtain ⟨parts', given', omits⟩ := Decoder.fields_without (by decide) known gone given
  refine Option.bind_eq_some_iff.mpr ⟨parts', given', omits.step (fun _ => ?_) read⟩
  refine omits.step fun _ => omits.step fun _ => omits.step fun _ => omits.step fun _ => omits.step fun _ => ?_
  refine omits.step fun _ => omits.step fun _ whole => ?_
  cases whole
  rfl

end ReverifyRecord

namespace Record

theorem follows (page : Page) :
    Decoder.Follows (shapeOf (fieldNames page)) (Collection.ofPage page).decode := by
  cases page with
  | history => exact HistoryRecord.follows
  | pool => exact PoolRecord.follows
  | blacklist => exact BlacklistRecord.follows
  | reverify => exact ReverifyRecord.follows

/-- The record as it is read without the field: that has its default, and all others are as they were. -/
def without (page : Page) (name : String) :
    (Collection.ofPage page).Item → (Collection.ofPage page).Item :=
  match page with
  | .history => HistoryRecord.without name
  | .pool => PoolRecord.without name
  | .blacklist => BlacklistRecord.without name
  | .reverify => ReverifyRecord.without name

theorem decode_without {page : Page} {r : (Collection.ofPage page).Item} (known : name ∈ fieldNames page)
    (gone : Without (fieldNames page) name d d') (read : (Collection.ofPage page).decode depth d = some r) :
    (Collection.ofPage page).decode depth d' = some (without page name r) := by
  cases page with
  | history => exact HistoryRecord.decode_without known gone read
  | pool => exact PoolRecord.decode_without known gone read
  | blacklist => exact BlacklistRecord.decode_without known gone read
  | reverify => exact ReverifyRecord.decode_without known gone read

end Record

namespace FacetEntry

def shape : Shape :=
  shapeOf ["Name", "Value", "Filter"]

theorem follows_value {shape : Shape} : Decoder.Follows shape decodeValue :=
  Decoder.follows_of_none (fun _ _ => rfl) fun _ _ => rfl

theorem follows : Decoder.Follows shape decode :=
  Decoder.follows_record fun parts parts' alike => by
    simp only [alike.required follows_text, alike.required follows_value, alike.optional _ follows_text]

end FacetEntry

namespace Facet

def shape : Shape :=
  .record ["Name", "Top"] fun name => if name = "Top" then .list FacetEntry.shape else .leaf

theorem follows : Decoder.Follows shape decode :=
  Decoder.follows_record fun parts parts' alike => by
    have top : Decoder.Follows (if "Top" = "Top" then .list FacetEntry.shape else .leaf)
        (Decoder.listOrNull FacetEntry.decode) := Decoder.Follows.listOrNull fun _ => FacetEntry.follows
    simp only [alike.required follows_text, alike.optional _ top]

end Facet

namespace Answer
variable {α : Type} {record : Decoder α}

/-- What the answers with such records are read from. -/
def shape (record : Shape) : Shape :=
  .record fieldNames fun name =>
    if name = "Records" then .list record else if name = "Facets" then .list Facet.shape else .leaf

theorem follows {item : Shape} (records : Decoder.Follows item record) :
    Decoder.Follows (shape item) (decode record) :=
  Decoder.follows_record fun parts parts' alike => by
    have list : Decoder.Follows (if "Records" = "Records" then .list item else
        if "Records" = "Facets" then .list Facet.shape else .leaf) (Decoder.listOrNull record) :=
      Decoder.Follows.listOrNull fun _ => records
    have inner : Decoder.Follows (.list Facet.shape) (Decoder.list Facet.decode) :=
      Decoder.Follows.list fun _ => Facet.follows
    have facets : Decoder.Follows (if "Facets" = "Records" then .list item else
        if "Facets" = "Facets" then .list Facet.shape else .leaf) (Decoder.nullable (Decoder.list Facet.decode)) :=
      inner.nullable
    simp only [alike.required (follows_natural _), alike.optional _ list, alike.optional _ facets]

/-- Where a record is read as another one, the answer is read with that one in its place. -/
theorem decode_recordAt {one : Doc → Doc → Prop} {f : α → α} {place : Nat} {a : Answer α}
    (reads : ∀ ⦃depth d d' r⦄, one d d' → record depth d = some r → record depth d' = some (f r))
    (revised : Revised fieldNames "Records" (ItemAt place one) d d') (read : decode record depth d = some a) :
    ∃ r, a.records[place]? = some r ∧
      decode record depth d' = some { a with records := a.records.set place (f r) } := by
  obtain ⟨parts, given, read⟩ := Option.bind_eq_some_iff.mp read
  obtain ⟨parts', given', differs⟩ := Decoder.fields_revised (by decide) (by decide) revised given
  obtain ⟨total, htotal, read⟩ := Option.bind_eq_some_iff.mp read
  obtain ⟨items, hitems, read⟩ := Option.bind_eq_some_iff.mp read
  obtain ⟨found, hfound, read⟩ := Option.bind_eq_some_iff.mp read
  cases read
  have total' := differs.required (by decide) htotal
  have found' := differs.optional (fun same => absurd same (by decide)) hfound
  obtain ⟨old, held, changed⟩ := differs.changed
  rw [Decoder.optional_eq_readOr, held] at hitems
  obtain ⟨r, present, items'⟩ := Decoder.listOrNull_itemAt reads changed hitems
  rw [← differs.depth, ← Decoder.optional_eq_readOr] at items'
  refine ⟨r, present, ?_⟩
  rw [decode, show Decoder.fields ["Total", "Records", "Facets"] depth d' = some parts' from given']
  simp [total', items', found']

/-- Answers are read alike whatever order the members of their objects stand in, and whatever other members these have; and
a field of a record that is left out has its default, while all else is as it was. -/
theorem members_in_any_order {page : Page} {status : Status} (success : status.isSuccess = true) {body body' : List UInt8}
    (given : Doc.read body = some d) (changed : Doc.read body' = some d') :
    (Relation.EqvGen (Restated (shape (shapeOf (Record.fieldNames page)))) d d' →
      ∀ a, ofResponse (Collection.ofPage page).decode status body' = .ok a ↔
        ofResponse (Collection.ofPage page).decode status body = .ok a) ∧
    ∀ name ∈ Record.fieldNames page, ∀ place,
      Revised fieldNames "Records" (ItemAt place (Without (Record.fieldNames page) name)) d d' →
        ∀ a, ofResponse (Collection.ofPage page).decode status body = .ok a →
          ∃ r, a.records[place]? = some r ∧ ofResponse (Collection.ofPage page).decode status body' =
            .ok { a with records := a.records.set place (Record.without page name r) } := by
  have read (a : Answer (Collection.ofPage page).Item) : ofResponse (Collection.ofPage page).decode status body = .ok a ↔
      decode (Collection.ofPage page).decode depthLimit d = some a := by
    rw [ofResponse_eq_ok success, Decoder.run, given, Option.bind_some]
  have read' (a : Answer (Collection.ofPage page).Item) : ofResponse (Collection.ofPage page).decode status body' = .ok a ↔
      decode (Collection.ofPage page).decode depthLimit d' = some a := by
    rw [ofResponse_eq_ok success, Decoder.run, changed, Option.bind_some]
  refine ⟨fun restated a => ?_, fun name known place gone a answered => ?_⟩
  · rw [read, read', (follows (Record.follows page)).all restated]
  · have reads ⦃depth : Nat⦄ ⦃d d' : Doc⦄ ⦃r : (Collection.ofPage page).Item⦄
        (gone : Without (Record.fieldNames page) name d d')
        (old : (Collection.ofPage page).decode depth d = some r) := Record.decode_without known gone old
    obtain ⟨r, present, answered'⟩ := decode_recordAt reads gone ((read a).mp answered)
    exact ⟨r, present, (read' _).mpr answered'⟩

namespace Reordered

def key (name : String) : List StringUnit :=
  name.toList.map fun c => .plain (some c)

def text (value : String) : Doc :=
  .text (key value)

def one (c : Char) : Doc :=
  .number ⟨false, [c], [], none⟩

def total : List StringUnit × Doc :=
  (key "Total", one '1')

/-- One proxy, of which these members are written. -/
def records (members : List (List StringUnit × Doc)) : List StringUnit × Doc :=
  (key "Records", .array [.object ((key "Proxy", text "a") :: members)])

/-- One facet with one entry, whose members are written. -/
def facets (entry : List (List StringUnit × Doc)) : List StringUnit × Doc :=
  (key "Facets", .array [.object [(key "Name", text "n"), (key "Top", .array [.object entry])]])

def asn : List StringUnit × Doc :=
  (key "ASN", one '7')

def extra : List StringUnit × Doc :=
  (key "Asn", .array [.object []])

def entry : List (List StringUnit × Doc) :=
  [(key "Name", text "x"), (key "Value", one '2')]

def plain : List UInt8 := Text.Utf8.ofString
  ("\x7b\"Total\":1,\"Records\":[\x7b\"Proxy\":\"a\",\"ASN\":7\x7d]," ++
    "\"Facets\":[\x7b\"Name\":\"n\",\"Top\":[\x7b\"Name\":\"x\",\"Value\":2\x7d]\x7d]\x7d")

/-- The facets come first, the entry of the facet begins with its value, and the record has one more member. -/
def moved : List UInt8 := Text.Utf8.ofString
  ("\x7b\"Facets\":[\x7b\"Name\":\"n\",\"Top\":[\x7b\"Value\":2,\"Name\":\"x\"\x7d]\x7d]," ++
    "\"Total\":1,\"Records\":[\x7b\"Proxy\":\"a\",\"ASN\":7,\"Asn\":[\x7b\x7d]\x7d]\x7d")

/-- The record has one member less. -/
def short : List UInt8 := Text.Utf8.ofString
  ("\x7b\"Total\":1,\"Records\":[\x7b\"Proxy\":\"a\"\x7d]," ++
    "\"Facets\":[\x7b\"Name\":\"n\",\"Top\":[\x7b\"Name\":\"x\",\"Value\":2\x7d]\x7d]\x7d")

theorem extended : Restated (shape (shapeOf (Record.fieldNames .pool))) (.object [total, records [asn], facets entry])
    (.object [total, records [asn, extra], facets entry]) := by
  refine @Restated.member _ [total] _ _ _ _ (@Restated.item _ [] _ _ _ ?_)
  exact @Restated.unknown _ [(key "Proxy", text "a"), asn] [] _ "Asn" _ (by decide) (by decide)

theorem swapped : Restated (shape (shapeOf (Record.fieldNames .pool)))
    (.object [total, records [asn, extra], facets entry]) (.object [total, records [asn, extra], facets entry.reverse]) := by
  refine @Restated.member _ [total, records [asn, extra]] _ _ _ _ (@Restated.item _ [] _ _ _ ?_)
  refine @Restated.member _ [(key "Name", text "n")] _ _ _ _ (@Restated.item _ [] _ _ _ (.order ?_))
  exact (List.reverse_perm entry).symm

theorem turned : Restated (shape (shapeOf (Record.fieldNames .pool)))
    (.object [total, records [asn, extra], facets entry.reverse])
    (.object [facets entry.reverse, total, records [asn, extra]]) :=
  .order (@List.perm_append_comm _ [total, records [asn, extra]] [facets entry.reverse])

theorem shortened : Revised fieldNames "Records" (ItemAt 0 (Without (Record.fieldNames .pool) "ASN"))
    (.object [total, records [asn], facets entry]) (.object [total, records [], facets entry]) := by
  refine @Revised.member _ _ _ [total] _ _ _ (some _) (by decide) (@ItemAt.mk _ _ [] _ _ _ rfl (.removed ?_))
  exact @Revised.member _ _ _ [(key "Proxy", text "a")] [] _ _ none (by decide) rfl

end Reordered

theorem members_in_any_order_pool :
    ofResponse (Collection.ofPage .pool).decode ⟨200⟩ Reordered.moved =
      .ok ⟨1, [({ proxy := "a", asn := 7 } : PoolRecord)], some [⟨"n", [⟨"x", "2", ""⟩]⟩]⟩ ∧
    ofResponse (Collection.ofPage .pool).decode ⟨200⟩ Reordered.short =
      .ok ⟨1, [({ proxy := "a" } : PoolRecord)], some [⟨"n", [⟨"x", "2", ""⟩]⟩]⟩ := by
  have given : Doc.read Reordered.plain =
      some (.object [Reordered.total, Reordered.records [Reordered.asn], Reordered.facets Reordered.entry]) := by
    with_unfolding_all rfl
  have moved : Doc.read Reordered.moved = some (.object [Reordered.facets Reordered.entry.reverse, Reordered.total,
      Reordered.records [Reordered.asn, Reordered.extra]]) := by
    set_option maxRecDepth 1024 in with_unfolding_all rfl
  have short : Doc.read Reordered.short =
      some (.object [Reordered.total, Reordered.records [], Reordered.facets Reordered.entry]) := by with_unfolding_all rfl
  have plain : ofResponse (Collection.ofPage .pool).decode ⟨200⟩ Reordered.plain =
      .ok ⟨1, [({ proxy := "a", asn := 7 } : PoolRecord)], some [⟨"n", [⟨"x", "2", ""⟩]⟩]⟩ := by
    rw [ofResponse_eq_ok (by decide), Decoder.run, given, Option.bind_some]
    with_unfolding_all rfl
  constructor
  · refine ((members_in_any_order (by decide) given moved).1 ?_ _).mpr plain
    exact .trans _ _ _ (.rel _ _ Reordered.extended) (.trans _ _ _ (.rel _ _ Reordered.swapped) (.rel _ _ Reordered.turned))
  · obtain ⟨r, first, answered⟩ :=
      (members_in_any_order (by decide) given short).2 "ASN" (by decide) 0 Reordered.shortened _ plain
    cases first
    have reset : PoolRecord.without "ASN" { proxy := "a", asn := 7 } = { proxy := "a" } := by
      simp [PoolRecord.without, Decoder.kept]
    rw [← reset]
    exact answered

/-- A member whose name is no text, as it has half of a surrogate pair, is not skipped: the object is not read. -/
theorem surrogate_name_refused :
    let answer := fun extra : String => Text.Utf8.ofString ("\x7b\"Total\":1" ++ extra ++ "\x7d")
    ofResponse (Collection.ofPage .pool).decode ⟨200⟩ (answer "") = .ok ⟨1, [], none⟩ ∧
      ofResponse (Collection.ofPage .pool).decode ⟨200⟩ (answer ",\"\\ud800\":0") =
        .error (.transport (.undecodable "not the expected document")) := by
  constructor <;> with_unfolding_all rfl

end Answer
end ProxyMonitor
