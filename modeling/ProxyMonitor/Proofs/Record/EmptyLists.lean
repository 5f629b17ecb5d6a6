import Mathlib.Logic.Relation
import ProxyMonitor.Answer
import ProxyMonitor.Proofs.Json.Revised
import ProxyMonitor.Proofs.Yields
import ProxyMonitor.Record.Collection

/-! Empty lists that are written `null` or left out. An answer and its facets are read as before; a record is only
if its own list is left out, and written `null` that list takes the whole answer with it. -/
namespace ProxyMonitor
open ProxyMonitor.Json ProxyMonitor.Record ProxyMonitor.Http
variable {name : String} {depth : Nat} {d d' : Doc}

namespace Record

theorem keeps_list {α : Type} (item : Decoder α) : Decoder.Keeps LeftOut [] (Decoder.list item) :=
  Decoder.keeps_leftOut fun _ _ => Decoder.list_nil

/-- A decoder that reads no lists. -/
theorem keeps_of_none {α : Type} {default : α} {item : Decoder α} (none : ∀ depth, item depth (.array []) = none) :
    Decoder.Keeps LeftOut default item := by
  refine Decoder.keeps_leftOut fun depth a read => ?_
  rw [none] at read
  cases read

theorem keeps_text : Decoder.Keeps LeftOut "" Decoder.text :=
  keeps_of_none fun _ => rfl

theorem keeps_word32 : Decoder.Keeps LeftOut 0 word32 :=
  keeps_of_none fun _ => rfl

theorem keeps_word64 : Decoder.Keeps LeftOut 0 word64 :=
  keeps_of_none fun _ => rfl

theorem keeps_int64 : Decoder.Keeps LeftOut 0 int64 :=
  keeps_of_none fun _ => rfl

theorem keeps_bool : Decoder.Keeps LeftOut false Decoder.bool :=
  keeps_of_none fun _ => rfl

theorem keeps_instant : Decoder.Keeps LeftOut none (Decoder.nullable instant) :=
  keeps_of_none fun _ => rfl

end Record

namespace PoolRecord
variable {r : PoolRecord}

theorem decode_leftOut (revised : Revised fieldNames name LeftOut d d') (known : name ∈ fieldNames)
    (read : decode depth d = some r) : decode depth d' = some r := by
  obtain ⟨parts, given, read⟩ := Option.bind_eq_some_iff.mp read
  obtain ⟨parts', given', differs⟩ := Decoder.fields_revised (by decide) known revised given
  refine Option.bind_eq_some_iff.mpr ⟨parts', given', differs.step keeps_text (fun _ => ?_) read⟩
  refine differs.step keeps_int64 fun _ => differs.step keeps_int64 fun _ => differs.step keeps_instant fun _ => ?_
  refine differs.step keeps_bool fun _ => differs.step keeps_word64 fun _ => differs.step keeps_word32 fun _ => ?_
  refine differs.step keeps_word32 fun _ => differs.step keeps_word64 fun _ => differs.step keeps_word32 fun _ => ?_
  refine differs.step keeps_word64 fun _ => differs.step (keeps_list word64) fun _ => ?_
  refine differs.step (keeps_list word64) fun _ => differs.step keeps_text fun _ => ?_
  exact differs.step keeps_text fun _ => differs.step keeps_word32 fun _ => id

theorem decode_nulled (revised : Revised fieldNames name Nulled d d') (list : name ∈ ["HourOffered", "HourSucceed"])
    (read : decode depth d = some r) : decode depth d' = none := by
  have within : ["HourOffered", "HourSucceed"] ⊆ fieldNames := by decide
  obtain ⟨parts, given, _⟩ := Option.bind_eq_some_iff.mp read
  obtain ⟨parts', given', differs⟩ := Decoder.fields_revised (by decide) (within list) revised given
  have hour : name = "HourOffered" ∨ name = "HourSucceed" := by simpa using list
  refine Yields.eq_none (.bind fun found hfound => ?_)
  obtain rfl : parts' = found := Option.some.inj (given'.symm.trans hfound)
  refine .bind fun _ _ => .bind fun _ _ => .bind fun _ _ => .bind fun _ _ => .bind fun _ _ => .bind fun _ _ => ?_
  refine .bind fun _ _ => .bind fun _ _ => .bind fun _ _ => .bind fun _ _ => .bind fun _ _ => ?_
  refine .bind fun offered hoffered => .bind fun succeed hsucceed => ?_
  rcases hour with rfl | rfl
  · rw [differs.refuses] at hoffered
    cases hoffered
  · rw [differs.refuses] at hsucceed
    cases hsucceed

end PoolRecord

namespace BlacklistRecord
variable {r : BlacklistRecord}

theorem decode_leftOut (revised : Revised fieldNames name LeftOut d d') (known : name ∈ fieldNames)
    (read : decode depth d = some r) : decode depth d' = some r := by
  obtain ⟨parts, given, read⟩ := Option.bind_eq_some_iff.mp read
  obtain ⟨parts', given', differs⟩ := Decoder.fields_revised (by decide) known revised given
  refine Option.bind_eq_some_iff.mpr ⟨parts', given', differs.step keeps_text (fun _ => ?_) read⟩
  refine differs.step keeps_text fun _ => differs.step keeps_text fun _ => differs.step keeps_word32 fun _ => ?_
  exact differs.step keeps_text fun _ => differs.step (keeps_list Decoder.text) fun _ => id

theorem decode_nulled (revised : Revised fieldNames "Sources" Nulled d d') (read : decode depth d = some r) :
    decode depth d' = none := by
  obtain ⟨parts, given, _⟩ := Option.bind_eq_some_iff.mp read
  obtain ⟨parts', given', differs⟩ := Decoder.fields_revised (by decide) (by decide) revised given
  simp [decode, given', differs.refuses]

end BlacklistRecord

namespace ReverifyRecord
variable {r : ReverifyRecord}

theorem decode_leftOut (revised : Revised fieldNames name LeftOut d d') (known : name ∈ fieldNames)
    (read : decode depth d = some r) : decode depth d' = some r := by
  obtain ⟨parts, given, read⟩ := Option.bind_eq_some_iff.mp read
  obtain ⟨parts', given', differs⟩ := Decoder.fields_revised (by decide) known revised given
  refine Option.bind_eq_some_iff.mpr ⟨parts', given', differs.step keeps_text (fun _ => ?_) read⟩
  refine differs.step keeps_word32 fun _ => differs.step keeps_instant fun _ => differs.step keeps_text fun _ => ?_
  refine differs.step keeps_text fun _ => differs.step keeps_word32 fun _ => differs.step keeps_text fun _ => ?_
  exact differs.step (keeps_list Decoder.text) fun _ => id

theorem decode_nulled (revised : Revised fieldNames "Sources" Nulled d d') (read : decode depth d = some r) :
    decode depth d' = none := by
  obtain ⟨parts, given, _⟩ := Option.bind_eq_some_iff.mp read
  obtain ⟨parts', given', differs⟩ := Decoder.fields_revised (by decide) (by decide) revised given
  simp [decode, given', differs.refuses]

end ReverifyRecord

namespace Record

/-- The fields of a page's records, in the order of their array form. -/
def fieldNames : Page → List String
  | .history => HistoryRecord.fieldNames
  | .pool => PoolRecord.fieldNames
  | .blacklist => BlacklistRecord.fieldNames
  | .reverify => ReverifyRecord.fieldNames

/-- Those that hold lists. -/
def listNames : Page → List String
  | .history => []
  | .pool => ["HourOffered", "HourSucceed"]
  | .blacklist | .reverify => ["Sources"]

theorem decode_leftOut {page : Page} {r : (Collection.ofPage page).Item} (list : name ∈ listNames page)
    (revised : Revised (fieldNames page) name LeftOut d d') (read : (Collection.ofPage page).decode depth d = some r) :
    (Collection.ofPage page).decode depth d' = some r := by
  have within : listNames page ⊆ fieldNames page := by cases page <;> decide
  cases page with
  | history => cases list
  | pool => exact PoolRecord.decode_leftOut revised (within list) read
  | blacklist => exact BlacklistRecord.decode_leftOut revised (within list) read
  | reverify => exact ReverifyRecord.decode_leftOut revised (within list) read

theorem decode_nulled {page : Page} {r : (Collection.ofPage page).Item} (list : name ∈ listNames page)
    (revised : Revised (fieldNames page) name Nulled d d') (read : (Collection.ofPage page).decode depth d = some r) :
    (Collection.ofPage page).decode depth d' = none := by
  cases page with
  | history => cases list
  | pool => exact PoolRecord.decode_nulled revised list read
  | blacklist =>
    obtain rfl := List.mem_singleton.mp list
    exact BlacklistRecord.decode_nulled revised read
  | reverify =>
    obtain rfl := List.mem_singleton.mp list
    exact ReverifyRecord.decode_nulled revised read

end Record

theorem Facet.decode_vacated {f : Facet} (revised : Revised ["Name", "Top"] "Top" Vacated d d')
    (read : decode depth d = some f) : decode depth d' = some f := by
  obtain ⟨parts, given, read⟩ := Option.bind_eq_some_iff.mp read
  obtain ⟨parts', given', differs⟩ := Decoder.fields_revised (by decide) (by decide) revised given
  obtain ⟨name, hname, read⟩ := Option.bind_eq_some_iff.mp read
  refine Option.bind_eq_some_iff.mpr ⟨parts', given', ?_⟩
  refine Option.bind_eq_some_iff.mpr ⟨name, differs.required (by decide) hname, ?_⟩
  exact differs.step (Decoder.keeps_vacated FacetEntry.decode) (fun _ => id) read

namespace Answer
variable {α : Type} {record : Decoder α} {a : Answer α}

/-- The same answer, but that no facets are as good as an empty list of them. -/
def Resembles (a b : Answer α) : Prop :=
  a.total = b.total ∧ a.records = b.records ∧ a.facets.getD [] = b.facets.getD []

def fieldNames : List String :=
  ["Total", "Records", "Facets"]

/-- What facets are read as, where none are an empty list. -/
theorem optional_facets (parts : Nat × (String → Option Doc)) :
    (Decoder.optional parts "Facets" none (Decoder.nullable (Decoder.list Facet.decode))).map (·.getD []) =
      Decoder.optional parts "Facets" [] (Decoder.listOrNull Facet.decode) := by
  unfold Decoder.optional
  cases parts.2 "Facets" <;> rfl

/-- The answer is read as before, if the lists of its records and its facets are. -/
theorem decode_revised {change : Change} (known : name ∈ ["Records", "Facets"])
    (revised : Revised fieldNames name change d d')
    (records : "Records" = name → Decoder.Keeps change [] (Decoder.listOrNull record))
    (facets : "Facets" = name → Decoder.Keeps change [] (Decoder.listOrNull Facet.decode))
    (read : decode record depth d = some a) : ∃ b, decode record depth d' = some b ∧ b.Resembles a := by
  have within : ["Records", "Facets"] ⊆ fieldNames := by decide
  have other : "Total" ≠ name := by
    rintro rfl
    exact absurd known (by decide)
  obtain ⟨parts, given, read⟩ := Option.bind_eq_some_iff.mp read
  obtain ⟨parts', given', differs⟩ := Decoder.fields_revised (by decide) (within known) revised given
  obtain ⟨total, htotal, read⟩ := Option.bind_eq_some_iff.mp read
  obtain ⟨items, hitems, read⟩ := Option.bind_eq_some_iff.mp read
  obtain ⟨found, hfound, read⟩ := Option.bind_eq_some_iff.mp read
  cases read
  have total' := differs.required other htotal
  have items' := differs.optional records hitems
  have found' : Decoder.optional parts' "Facets" [] (Decoder.listOrNull Facet.decode) = some (found.getD []) := by
    refine differs.optional facets ?_
    rw [← optional_facets, hfound]
    rfl
  rw [← optional_facets] at found'
  obtain ⟨again, hagain, same⟩ := Option.map_eq_some_iff.mp found'
  refine ⟨⟨total.toUInt64, items, again⟩, ?_, rfl, rfl, same⟩
  rw [decode, show Decoder.fields ["Total", "Records", "Facets"] depth d' = some parts' from given']
  simp [total', items', hagain]

/-- What becomes of the answers of a page: an empty list of records, of facets or of what one facet counts is
written `null` or left out, or a list of a record is left out. -/
inductive Tolerated (page : Page) (d d' : Doc) : Prop where
  | list {name : String} : name ∈ ["Records", "Facets"] → Revised fieldNames name Vacated d d' → Tolerated page d d'
  | top : Revised fieldNames "Facets" (OfItem (Revised ["Name", "Top"] "Top" Vacated)) d d' → Tolerated page d d'
  | field {name : String} : name ∈ listNames page →
      Revised fieldNames "Records" (OfItem (Revised (Record.fieldNames page) name LeftOut)) d d' → Tolerated page d d'

/-- An empty list of a record is written `null`. -/
inductive Refused (page : Page) (d d' : Doc) : Prop where
  | field {name : String} : name ∈ listNames page →
      Revised fieldNames "Records" (OfItem (Revised (Record.fieldNames page) name Nulled)) d d' → Refused page d d'

theorem Resembles.trans {a b c : Answer α} (first : a.Resembles b) (second : b.Resembles c) : a.Resembles c :=
  ⟨first.1.trans second.1, first.2.1.trans second.2.1, first.2.2.trans second.2.2⟩

section Page
variable {page : Page} {a : Answer (Collection.ofPage page).Item}

theorem decode_tolerated (tolerated : Tolerated page d d') (read : decode (Collection.ofPage page).decode depth d = some a) :
    ∃ b, decode (Collection.ofPage page).decode depth d' = some b ∧ b.Resembles a := by
  cases tolerated with
  | list known revised =>
    exact decode_revised known revised (fun _ => Decoder.keeps_vacated _) (fun _ => Decoder.keeps_vacated _) read
  | top revised =>
    refine decode_revised (by decide) revised (fun same => absurd same (by decide)) (fun _ => ?_) read
    exact Decoder.keeps_ofItem fun _ _ _ _ => Facet.decode_vacated
  | field list revised =>
    refine decode_revised (by decide) revised (fun _ => ?_) (fun same => absurd same (by decide)) read
    exact Decoder.keeps_ofItem fun _ _ _ _ => decode_leftOut list

theorem decode_all_tolerated (tolerated : Relation.ReflTransGen (Tolerated page) d d')
    (read : decode (Collection.ofPage page).decode depth d = some a) :
    ∃ b, decode (Collection.ofPage page).decode depth d' = some b ∧ b.Resembles a := by
  induction tolerated with
  | refl => exact ⟨a, read, rfl, rfl, rfl⟩
  | tail _ last ih =>
    obtain ⟨b, hb, before⟩ := ih
    obtain ⟨c, hc, after⟩ := decode_tolerated last hb
    exact ⟨c, hc, after.trans before⟩

theorem decode_refused (refused : Refused page d d') (read : decode (Collection.ofPage page).decode depth d = some a) :
    decode (Collection.ofPage page).decode depth d' = none := by
  obtain ⟨list, revised⟩ := refused
  obtain ⟨parts, given, read⟩ := Option.bind_eq_some_iff.mp read
  obtain ⟨parts', given', differs⟩ := Decoder.fields_revised (by decide) (by decide) revised given
  obtain ⟨total, htotal, read⟩ := Option.bind_eq_some_iff.mp read
  obtain ⟨items, hitems, read⟩ := Option.bind_eq_some_iff.mp read
  obtain ⟨old, hold, changed⟩ := differs.changed
  have lost : Decoder.optional parts' "Records" [] (Decoder.listOrNull (Collection.ofPage page).decode) = none := by
    rw [Decoder.optional_eq_readOr] at hitems ⊢
    rw [hold] at hitems
    generalize parts'.2 "Records" = new at changed
    obtain ⟨one⟩ := changed
    obtain ⟨inner, _, r, _, deep, _, hr, _, _⟩ := Decoder.listOrNull_middle.mp hitems
    refine Option.eq_none_iff_forall_ne_some.mpr fun others hothers => ?_
    obtain ⟨inner', _, r', _, deep', _, hr', _, _⟩ := Decoder.listOrNull_middle.mp hothers
    rw [differs.depth, deep] at deep'
    cases deep'
    rw [decode_nulled list one hr] at hr'
    cases hr'
  rw [decode, show Decoder.fields ["Total", "Records", "Facets"] depth d' = some parts' from given']
  simp [lost]

/-- An answer is read as before whatever empty lists of its envelope and its facets are written `null` or left out,
and whatever empty lists of its records are left out: the total and the records are the same, and so are the facets,
if none are as good as an empty list of them. One empty list of a record that is written `null` then loses the whole
answer. -/
theorem empty_lists_tolerated {status : Status} (success : status.isSuccess = true) {body body' : List UInt8}
    (given : Doc.read body = some d) (changed : Doc.read body' = some d')
    (read : ofResponse (Collection.ofPage page).decode status body = .ok a) :
    (Relation.ReflTransGen (Tolerated page) d d' →
      ∃ b, ofResponse (Collection.ofPage page).decode status body' = .ok b ∧ b.Resembles a) ∧
    ∀ mid, Relation.ReflTransGen (Tolerated page) d mid → Refused page mid d' →
      ofResponse (Collection.ofPage page).decode status body' = .error (.transport (.undecodable (problemOf body'))) := by
  have read : decode (Collection.ofPage page).decode depthLimit d = some a := by
    have run := (ofResponse_eq_ok success).mp read
    rwa [Decoder.run, given, Option.bind_some] at run
  refine ⟨fun tolerated => ?_, fun mid tolerated refused => ?_⟩
  · obtain ⟨b, hb, same⟩ := decode_all_tolerated tolerated read
    refine ⟨b, ?_, same⟩
    rw [ofResponse, if_pos success, Decoder.run, changed, Option.bind_some, hb]
  · obtain ⟨b, hb, _⟩ := decode_all_tolerated tolerated read
    rw [ofResponse, if_pos success, Decoder.run, changed, Option.bind_some, decode_refused refused hb]

end Page

private def key (name : String) : List StringUnit :=
  name.toList.map fun c => .plain (some c)

/-- The document of an answer with one proxy, of which the hours are written, and facets. -/
private def document (hours : Option Doc) (facets : Doc) : Doc :=
  .object [(key "Total", .number ⟨false, ['1'], [], none⟩),
    (key "Records", .array [.object (hours.toList.map (key "HourOffered", ·))]), (key "Facets", facets)]

private def empty : List UInt8 :=
  Text.Utf8.ofString "\x7b\"Total\":1,\"Records\":[\x7b\"HourOffered\":[]\x7d],\"Facets\":[]\x7d"

private def without : List UInt8 :=
  Text.Utf8.ofString "\x7b\"Total\":1,\"Records\":[\x7b\x7d],\"Facets\":null\x7d"

private def hoursNull : List UInt8 :=
  Text.Utf8.ofString "\x7b\"Total\":1,\"Records\":[\x7b\"HourOffered\":null\x7d],\"Facets\":null\x7d"

private theorem facets_nulled : Tolerated .pool (document (some (.array [])) (.array [])) (document (some (.array [])) .null) :=
  .list (by decide) (@Revised.member _ "Facets" _
    [(key "Total", .number ⟨false, ['1'], [], none⟩), (key "Records", .array [.object [(key "HourOffered", .array [])]])]
    [] (key "Facets") (.array []) (some .null) (by decide) (.inr ⟨rfl, rfl⟩))

private theorem hours_revised {change : Change} {new : Option Doc} (h : change (.array []) new) :
    Revised fieldNames "Records" (OfItem (Revised (Record.fieldNames .pool) "HourOffered" change))
      (document (some (.array [])) .null) (document new .null) :=
  @Revised.member _ "Records" _ [(key "Total", .number ⟨false, ['1'], [], none⟩)] [(key "Facets", .null)]
    (key "Records") _ (some _) (by decide) (@OfItem.mk _ [] [] _ _
      (by simpa using
        @Revised.member (Record.fieldNames .pool) "HourOffered" change [] [] (key "HourOffered") _ new (by decide) h))

/-- Of an answer with empty lists, the facets are written `null`; the hours may then be left out, and may not be
written `null`. -/
theorem empty_lists_tolerated_hours :
    (∃ b, ofResponse (Collection.ofPage .pool).decode ⟨200⟩ without = .ok b ∧
      b.Resembles ⟨1, [({} : PoolRecord)], some []⟩) ∧
    ofResponse (Collection.ofPage .pool).decode ⟨200⟩ hoursNull =
      .error (.transport (.undecodable (problemOf hoursNull))) := by
  have given : Doc.read empty = some (document (some (.array [])) (.array [])) := by with_unfolding_all rfl
  have left : Doc.read without = some (document none .null) := by with_unfolding_all rfl
  have null : Doc.read hoursNull = some (document (some .null) .null) := by with_unfolding_all rfl
  have read : ofResponse (Collection.ofPage .pool).decode ⟨200⟩ empty = .ok ⟨1, [({} : PoolRecord)], some []⟩ := by
    with_unfolding_all rfl
  have first : Relation.ReflTransGen (Tolerated .pool) (document (some (.array [])) (.array []))
      (document (some (.array [])) .null) := .single facets_nulled
  refine ⟨(empty_lists_tolerated (by decide) given left read).1 (first.tail ?_),
    (empty_lists_tolerated (by decide) given null read).2 _ first ?_⟩
  · exact .field (by decide) (hours_revised ⟨rfl, rfl⟩)
  · exact .field (by decide) (hours_revised ⟨rfl, rfl⟩)

/-- A list of a record that is written `null` is not read, where an empty one is. -/
theorem record_list_null_refused :
    let answer := fun hours : String =>
      Text.Utf8.ofString ("\x7b\"Total\":1,\"Records\":[\x7b\"HourOffered\":" ++ hours ++ "\x7d]\x7d")
    ofResponse (Collection.ofPage .pool).decode ⟨200⟩ (answer "[]") = .ok ⟨1, [({} : PoolRecord)], none⟩ ∧
      ofResponse (Collection.ofPage .pool).decode ⟨200⟩ (answer "null") =
        .error (.transport (.undecodable "not the expected document")) := by
  constructor <;> with_unfolding_all rfl

end Answer
end ProxyMonitor
