import Mathlib.Data.List.Basic
import Mathlib.Tactic.IntervalCases
import ProxyMonitor.Proofs.FacetLinks
import ProxyMonitor.Proofs.Live.Served
import ProxyMonitor.Proofs.Screen.Typing
import ProxyMonitor.Proofs.Text.Digits

/-! The key that is drawn for a link is the key that follows it. The panel counts the links while it draws, over all
facets; a key takes the link with its number out of the list of all of them. -/
namespace ProxyMonitor.Screen
open ProxyMonitor.Http ProxyMonitor.Live ProxyMonitor.Record ProxyMonitor.Text

section Positions
variable {β γ : Type} {f : β → Option γ} {l : List β} {a : β} {b : γ} {p q i : Nat}

theorem length_filterMap_cons (f : β → Option γ) (a : β) (l : List β) :
    ((a :: l).filterMap f).length = (f a).toList.length + (l.filterMap f).length := by
  rw [← List.singleton_append, List.filterMap_append, List.length_append]
  cases taken : f a <;> simp [taken]

/-- What is taken out at a place follows what is taken out before it. -/
theorem getElem?_filterMap_take (at_p : l[p]? = some a) (taken : f a = some b) :
    (l.filterMap f)[((l.take p).filterMap f).length]? = some b := by
  obtain ⟨inside, rfl⟩ := List.getElem?_eq_some_iff.mp at_p
  have parts : l.filterMap f = (l.take p).filterMap f ++ b :: (l.drop (p + 1)).filterMap f := by
    conv_lhs => rw [← List.take_append_drop p l, List.drop_eq_getElem_cons inside]
    rw [List.filterMap_append, List.filterMap_cons_some taken]
  rw [parts, List.getElem?_append_right (Nat.le_refl _), Nat.sub_self]
  rfl

theorem length_filterMap_take_lt (at_p : l[p]? = some a) (taken : f a = some b) (later : p < q) :
    ((l.take p).filterMap f).length < ((l.take q).filterMap f).length := by
  obtain ⟨inside, rfl⟩ := List.getElem?_eq_some_iff.mp at_p
  have next : ((l.take (p + 1)).filterMap f).length = ((l.take p).filterMap f).length + 1 := by
    rw [List.take_succ_eq_append_getElem inside, List.filterMap_append, List.length_append,
      List.filterMap_cons_some taken]
    rfl
  have front : (l.take (p + 1)).Sublist (l.take q) := (List.take_prefix_take_left later).sublist
  have most := (front.filterMap f).length_le
  omega

/-- Only one place follows so many that are taken out. -/
theorem place_unique {c : β} {d : γ} (at_p : l[p]? = some a) (taken : f a = some b) (at_q : l[q]? = some c)
    (taken' : f c = some d) (same : ((l.take p).filterMap f).length = ((l.take q).filterMap f).length) : p = q := by
  rcases Nat.lt_trichotomy p q with lt | rfl | gt
  · have := length_filterMap_take_lt at_p taken lt
    omega
  · rfl
  · have := length_filterMap_take_lt at_q taken' gt
    omega

theorem exists_place (h : (l.filterMap f)[i]? = some b) :
    ∃ p a, l[p]? = some a ∧ f a = some b ∧ ((l.take p).filterMap f).length = i := by
  induction l generalizing i with
  | nil => simp at h
  | cons first rest ih =>
    cases taken : f first with
    | none =>
      rw [List.filterMap_cons_none taken] at h
      obtain ⟨p, a, at_p, taken', count⟩ := ih h
      exact ⟨p + 1, a, at_p, taken', by rw [List.take_succ_cons, List.filterMap_cons_none taken, count]⟩
    | some c =>
      rw [List.filterMap_cons_some taken] at h
      cases i with
      | zero =>
        cases h
        exact ⟨0, first, rfl, taken, rfl⟩
      | succ i =>
        obtain ⟨p, a, at_p, taken', count⟩ := ih h
        exact ⟨p + 1, a, at_p, taken', by
          rw [List.take_succ_cons, List.filterMap_cons_some taken, List.length_cons, count]⟩

end Positions

namespace Frame
variable {n place links : Nat} {text : Option String} {rest tail : List String} {e : EntryView}
  {entries more : List EntryView}

theorem toList_linkMark (n : Nat) : (linkMark n).toList = 'F' :: digits n ++ [' '] := by
  simp [linkMark, toString, digits]

theorem linkMark_injective : Function.Injective linkMark := by
  intro m n same
  have same : 'F' :: digits m ++ [' '] = 'F' :: digits n ++ [' '] := by
    rw [← toList_linkMark, ← toList_linkMark, same]
  have same : digits m = digits n := (List.cons.inj (List.append_cancel_right same)).2
  rw [← natOfDigits_digits m, same, natOfDigits_digits]

theorem linkMark_ne_gap (n : Nat) : linkMark n ≠ gap := by
  intro same
  have same : 'F' :: digits n ++ [' '] = [' ', ' '] := by rw [← toList_linkMark, same]; rfl
  cases same

/-- A piece that is neither a key nor what stands behind an entry. -/
structure Plain (piece : String) : Prop where
  mark : ∀ n, piece ≠ linkMark n
  gap : piece ≠ gap

theorem plain_entryText (e : EntryView) : Plain (entryText e) := by
  have written : (entryText e).toList = (e.label.toList ++ ' ' :: '(' :: e.value.toList) ++ [')'] := by
    simp [entryText, toString]
  have last : (entryText e).toList.getLast? = some ')' := by rw [written, List.getLast?_concat]
  constructor
  · intro n same
    rw [same, toList_linkMark, List.getLast?_concat] at last
    cases last
  · intro same
    rw [same] at last
    cases last

theorem plain_facetTitle (v : FacetView) : Plain (facetTitle v) := by
  have title : (facetTitle v).toList = v.name.toList ++ [':'] ++ [' '] := by simp [facetTitle, toString]
  constructor
  · intro n same
    have same : v.name.toList ++ [':'] ++ [' '] = 'F' :: digits n ++ [' '] := by
      rw [← title, same, toList_linkMark]
    have colon : ':' ∈ 'F' :: digits n := by
      rw [← List.append_cancel_right same]
      simp
    rcases List.mem_cons.mp colon with colon | colon
    · cases colon
    · cases isDigit_of_mem_digits colon
  · intro same
    have same : v.name.toList ++ [':'] ++ [' '] = [' '] ++ [' '] := by rw [← title, same]; rfl
    have colon : ':' ∈ [' '] := by
      rw [← List.append_cancel_right same]
      simp
    simp at colon

/-- Among pieces that are drawn one after the other, the key for a number stands after so many entries and right
before a text. -/
def Marks (drawn : List String) (n place : Nat) (text : Option String) : Prop :=
  ∃ before after, drawn = before ++ linkMark n :: after ∧ before.count gap = place ∧ after.head? = text

theorem not_marks_nil : ¬ Marks [] n place text := by
  rintro ⟨before, after, drawn, _⟩
  simp at drawn

/-- A key is the first piece or stands after it. -/
theorem marks_cons {piece : String} : Marks (piece :: rest) n place text ↔
    (piece = linkMark n ∧ place = 0 ∧ rest.head? = text) ∨
      ∃ before, place = before + [piece].count gap ∧ Marks rest n before text := by
  constructor
  · rintro ⟨before, after, drawn, rfl, rfl⟩
    cases before with
    | nil =>
      obtain ⟨rfl, rfl⟩ := List.cons.inj drawn
      exact .inl ⟨rfl, rfl, rfl⟩
    | cons first before =>
      obtain ⟨rfl, rfl⟩ := List.cons.inj drawn
      refine .inr ⟨before.count gap, ?_, before, after, rfl, rfl, rfl⟩
      rw [Nat.add_comm, ← List.count_append, List.singleton_append]
  · rintro (⟨rfl, rfl, rfl⟩ | ⟨_, rfl, before, after, rfl, rfl, rfl⟩)
    · exact ⟨[], rest, rfl, rfl, rfl⟩
    · refine ⟨piece :: before, after, rfl, ?_, rfl⟩
      rw [Nat.add_comm, ← List.count_append, List.singleton_append]

theorem marks_plain {piece : String} (plain : Plain piece) :
    Marks (piece :: rest) n place text ↔ Marks rest n place text := by
  rw [marks_cons]
  simp [plain.mark, plain.gap]

theorem marks_gap : Marks (gap :: rest) n place text ↔ ∃ before, place = before + 1 ∧ Marks rest n before text := by
  rw [marks_cons]
  simp [(linkMark_ne_gap n).symm]

theorem marks_mark {m : Nat} : Marks (linkMark m :: rest) n place text ↔
    (m = n ∧ place = 0 ∧ rest.head? = text) ∨ Marks rest n place text := by
  rw [marks_cons]
  simp [linkMark_ne_gap, linkMark_injective.eq_iff]

/-- The entry at the place has a link, and a number for it: the links are counted on from some, and the first ones
have numbers. -/
def Numbered (links : Nat) (entries : List EntryView) (n place : Nat) (text : Option String) : Prop :=
  ∃ e, entries[place]? = some e ∧ text = some (entryText e) ∧ e.link.isSome ∧ n ≤ numberedLinks ∧
    n = links + ((entries.take place).filterMap EntryView.link).length + 1

theorem numbered_zero : Numbered links (e :: entries) n 0 text ↔
    text = some (entryText e) ∧ e.link.isSome ∧ n ≤ numberedLinks ∧ n = links + 1 := by
  simp [Numbered]

theorem numbered_succ :
    Numbered links (e :: entries) n (place + 1) text ↔ Numbered (links + e.link.toList.length) entries n place text := by
  simp only [Numbered, List.getElem?_cons_succ, List.take_succ_cons, length_filterMap_cons, Nat.add_assoc]

/-- An entry has its number, and the numbers go on after it. -/
theorem marks_entryPieces
    (on : ∀ place, Marks tail n place text ↔ Numbered (links + e.link.toList.length) entries n place text) :
    Marks (entryPieces links e ++ tail) n place text ↔ Numbered links (e :: entries) n place text := by
  -- Without a key of its own, the entry moves what is behind its gap on by one place.
  have bare : Marks (entryText e :: gap :: tail) n place text ↔
      ∃ before, place = before + 1 ∧ Numbered links (e :: entries) n (before + 1) text := by
    rw [marks_plain (plain_entryText e), marks_gap]
    simp only [on, numbered_succ]
  have first : Marks (entryPieces links e ++ tail) n place text ↔
      (place = 0 ∧ Numbered links (e :: entries) n 0 text) ∨ Marks (entryText e :: gap :: tail) n place text := by
    rw [numbered_zero, entryPieces]
    split
    · rename_i marked
      obtain ⟨linked, few⟩ : e.link.isSome = true ∧ links < numberedLinks := by simpa using marked
      have head : Marks (linkMark (links + 1) :: entryText e :: gap :: tail) n place text ↔ _ := marks_mark
      rw [List.cons_append, List.cons_append, List.cons_append, List.nil_append, head]
      refine or_congr_left ⟨?_, ?_⟩
      · rintro ⟨rfl, here, written⟩
        exact ⟨here, written.symm, linked, few, rfl⟩
      · rintro ⟨here, written, _, _, number⟩
        exact ⟨number.symm, here, written.symm⟩
    · rename_i unmarked
      rw [List.cons_append, List.cons_append, List.nil_append]
      refine (or_iff_right ?_).symm
      rintro ⟨_, _, linked, few, rfl⟩
      exact unmarked (by simpa [linked] using Nat.lt_of_succ_le few)
  rw [first, bare]
  cases place with
  | zero => simp
  | succ place => simp

theorem marks_facetPieces
    (on : ∀ place, Marks tail n place text ↔
      Numbered (links + (entries.filterMap EntryView.link).length) more n place text) :
    Marks (facetPieces links entries ++ tail) n place text ↔ Numbered links (entries ++ more) n place text := by
  induction entries generalizing links place with
  | nil => exact on place
  | cons e entries ih =>
    rw [facetPieces, List.append_assoc, List.cons_append]
    refine marks_entryPieces fun place => ih fun place => (on place).trans ?_
    rw [length_filterMap_cons, Nat.add_assoc]

/-- The numbers run on over the facets. -/
theorem marks_facetLines (links : Nat) (views : List FacetView) :
    Marks (facetLines links views).flatten n place text ↔
      Numbered links (views.flatMap FacetView.entries) n place text := by
  -- The title of a facet is neither a key nor a gap, so that the lines may be read as one.
  induction views generalizing links place with
  | nil => simp [facetLines, not_marks_nil, Numbered]
  | cons v views ih =>
    rw [facetLines, List.flatten_cons, List.cons_append, marks_plain (plain_facetTitle v), List.flatMap_cons]
    exact marks_facetPieces fun place => ih _

end Frame

/-- A function key, or its digit with Alt. -/
def Key.Picks (k : Key) (n : Nat) : Prop :=
  k.code = .function n ∨ k.alt = true ∧ ∃ c, k.code = .char c ∧ c.toNat = '0'.toNat + n

namespace App
variable {a : App} {k : Key} {n : Nat}

/-- The entries of the facets that are shown, one after the other. -/
def entries (a : App) : List FacetEntry :=
  (a.mounted.session.shown.sink.facets.filter Facet.isInformative).flatMap Facet.top

theorem flatMap_entries (a : App) :
    a.mounted.session.shown.facets.flatMap FacetView.entries = a.entries.map FacetEntry.view := by
  rw [View.facets, Facet.views, List.flatMap_map, entries, List.map_flatMap]
  rfl

theorem links_eq (a : App) : a.mounted.links = a.entries.filterMap FacetEntry.drillDown := by
  have links : a.mounted.links = (a.mounted.session.shown.facets.flatMap FacetView.entries).filterMap EntryView.link := by
    rw [List.filterMap_flatMap]
    rfl
  rw [links, flatMap_entries, List.filterMap_map]
  rfl

/-- The first nine links have keys. -/
theorem press_of_picks (picks : k.Picks n) (first : 1 ≤ n) (last : n ≤ 9) : a.press k = a.followLink (n - 1) := by
  rcases picks with code | ⟨alt, c, code, number⟩
  · simp only [press, code]
    exact if_pos (by simp [first, last])
  · have digit : c = Char.ofNat ('0'.toNat + n) := by rw [← number, Char.ofNat_toNat]
    rw [press, code, alt, digit]
    interval_cases n <;> cases k.control <;> rfl

/-- A link becomes the filter on the screen, and a view that goes on shows it as soon as it runs. -/
theorem edit_settle (alive : a.mounted.session.isStopped = false) (filter : String) (now : Nat) :
    ((a.edit filter).value.settle now).value.mounted.session.Rests filter := by
  let sent := (a.mounted.session.send (.setFilter filter)).value
  have alive' : sent.isStopped = false := (Session.send_isStopped a.mounted.session _).trans alive
  have ahead : sent.filterAhead = filter := Session.filterAhead_send alive (.setFilter filter)
  have waits : sent.waiting ≠ 0 := by
    simp [sent, Session.send, alive, Session.waiting]
  have rests := Session.settle_rests alive' (fun still => absurd still waits) now
  rw [ahead] at rests
  exact rests

/-- What the program comes to by keys and as time passes. -/
inductive Operated (first : App) : App → Prop where
  | start : Operated first first
  | press {a : App} (k : Key) : Operated first a → Operated first (a.press k).value
  | settle {a : App} (now : Nat) : Operated first a → Operated first (a.settle now).value
  | advance {a : App} (now target : Nat) : Operated first a → Operated first (a.advance now target).value

theorem served_mount (client : Client) (network : Network) (config : Config) (page : Page) (location : Location) :
    (Mounted.mount client network config page location).value.session.Served :=
  .mount ⟨fun _ scripted => absurd scripted List.not_mem_nil, fun _ => rfl⟩ _ _ _

/-- A view on the screen never stops. -/
theorem Operated.served {client : Client} {network : Network} {config : Config} {page : Page} {location : Location}
    (operated : (App.start client network config page location).value.Operated a) : a.mounted.session.Served := by
  induction operated with
  | start => exact served_mount client network config page location
  | @press a k _ ih =>
    refine press_cases a k (motive := fun a => a.mounted.session.Served) ih ih ?edit ?command ?switch
    case edit => exact fun input => ih.send _
    case command => exact fun c _ => ih.send c
    case switch => exact fun page => served_mount a.client a.network a.config page (.ofPage page)
  | settle now _ ih => exact ih.settle now
  | advance now target _ ih => exact ih.advance now target

/-- Keys are drawn for the first nine links, each in front of its entry. -/
theorem marks_drawn {clock : Time.Instant} {place : Nat} {text : Option String} :
    Frame.Marks (a.mounted.frame a.input clock).facetText.flatten n place text ↔
      ∃ e, a.entries[place]? = some e ∧ text = some (Frame.entryText e.view) ∧ e.drillDown = some e.filter ∧ n ≤ 9 ∧
        n = ((a.entries.take place).filterMap FacetEntry.drillDown).length + 1 := by
  have drawn : (a.mounted.frame a.input clock).facets.flatMap FacetView.entries = a.entries.map FacetEntry.view :=
    flatMap_entries a
  have linked (e : FacetEntry) : e.view.link.isSome ↔ e.drillDown = some e.filter := by
    refine ⟨fun some => ?_, fun some => by rw [FacetEntry.view, some]; rfl⟩
    obtain ⟨filter, some⟩ := Option.isSome_iff_exists.mp some
    have some : e.drillDown = Option.some filter := some
    obtain ⟨_, _, rfl⟩ := FacetEntry.drillDown_eq_some.mp some
    exact some
  have counted : ((a.entries.map FacetEntry.view).take place).filterMap EntryView.link =
      (a.entries.take place).filterMap FacetEntry.drillDown := by
    rw [← List.map_take, List.filterMap_map]
    rfl
  rw [Frame.facetText, Frame.marks_facetLines, drawn, Frame.Numbered, counted, List.getElem?_map]
  constructor
  · rintro ⟨_, shown, rfl, some, few, number⟩
    obtain ⟨e, at_place, rfl⟩ := Option.map_eq_some_iff.mp shown
    exact ⟨e, at_place, rfl, (linked e).mp some, few, by omega⟩
  · rintro ⟨e, at_place, rfl, some, few, number⟩
    exact ⟨e.view, by rw [at_place]; rfl, rfl, (linked e).mpr some, few, by omega⟩

/-- The key that is drawn for a link is the key that follows it. Of the entries that are shown, those with the first nine
links, and no others, have a key in front of them: its number is the number of the link among all that are shown. The
function key of a number up to nine, or its digit with Alt, makes the filter of the one entry with that number the filter
on the screen, and the view shows it as soon as it runs; where there are fewer links no entry has the number, and the key
does nothing. No view on the screen stops. -/
theorem drawn_key_follows_link (a : App) (clock : Time.Instant) :
    let drawn := (a.mounted.frame a.input clock).facetText.flatten
    let links := a.entries.filterMap FacetEntry.drillDown
    (∀ n place text, Frame.Marks drawn n place text ↔
      ∃ e, a.entries[place]? = some e ∧ text = some (Frame.entryText e.view) ∧ e.drillDown = some e.filter ∧ n ≤ 9 ∧
        n = ((a.entries.take place).filterMap FacetEntry.drillDown).length + 1) ∧
    (∀ n k, 1 ≤ n → n ≤ 9 → Key.Picks k n → n ≤ links.length →
      ∃ place e, a.entries[place]? = some e ∧ (∀ other, (∃ text, Frame.Marks drawn n other text) ↔ other = place) ∧
        (a.press k).value.input = e.filter ∧
        (a.mounted.session.isStopped = false → ∀ now,
          ((a.press k).value.settle now).value.mounted.session.Rests e.filter)) ∧
    (∀ n k, 1 ≤ n → n ≤ 9 → Key.Picks k n → links.length < n →
      (∀ place text, ¬ Frame.Marks drawn n place text) ∧ a.press k = pure a) ∧
    ∀ client network config page location,
      (App.start client network config page location).value.Operated a → a.mounted.session.isStopped = false := by
  intro drawn links
  refine ⟨fun n place text => marks_drawn, fun n k first last picks some => ?_, fun n k first last picks few => ?_,
    fun _ _ _ _ _ operated => operated.served.alive⟩
  · obtain ⟨filter, nth⟩ : ∃ filter, links[n - 1]? = Option.some filter :=
      ⟨_, List.getElem?_eq_getElem (show n - 1 < links.length by omega)⟩
    obtain ⟨place, e, at_place, linked, count⟩ := exists_place nth
    obtain ⟨_, _, rfl⟩ := FacetEntry.drillDown_eq_some.mp linked
    have pressed : a.press k = a.edit e.filter := by
      rw [press_of_picks picks first last, followLink, links_eq, nth]
    refine ⟨place, e, at_place, fun other => ⟨?_, ?_⟩, by rw [pressed]; rfl, fun alive now => ?_⟩
    · rintro ⟨_, marked⟩
      obtain ⟨e', at_other, _, linked', _, number⟩ := marks_drawn.mp marked
      exact place_unique at_other linked' at_place linked (by omega)
    · rintro rfl
      exact ⟨_, marks_drawn.mpr ⟨e, at_place, rfl, linked, last, by omega⟩⟩
    · rw [pressed]
      exact edit_settle alive e.filter now
  · have none : links[n - 1]? = none := List.getElem?_eq_none (by omega)
    refine ⟨fun place text marked => ?_, ?_⟩
    · obtain ⟨e, at_place, _, linked, _, number⟩ := marks_drawn.mp marked
      have nth := getElem?_filterMap_take at_place linked
      rw [show ((a.entries.take place).filterMap FacetEntry.drillDown).length = n - 1 by omega, none] at nth
      cases nth
    · rw [press_of_picks picks first last, followLink, links_eq, none]

end App

namespace Faceted

/-- An entry for empty values, a facet that says nothing, a filter that is blank, and links in two facets. -/
def facets : List Facet :=
  [⟨"Country", [⟨"n/a", "2", "x"⟩, ⟨"DE", "9", "Country:DE"⟩]⟩, ⟨"Port", [⟨"80", "3", "Port:80"⟩]⟩,
    ⟨"Proxy", [⟨"a", "2", "Proxy:a"⟩, ⟨"b", "1", " "⟩]⟩]

def body : List UInt8 :=
  Utf8.encode (Answer.encode PoolRecord.encode ⟨3, [], some facets⟩).compact

def first : App :=
  (App.start ⟨"http://localhost", 30000⟩ (fun _ _ => .answers ⟨200⟩ body true) {} .pool ⟨"/pool", []⟩).value

/-- The first result is there. -/
def shown : App :=
  ((first.settle 0).value.settle 500).value

theorem entries : shown.entries = [⟨"n/a", "2", "x"⟩, ⟨"DE", "9", "Country:DE"⟩, ⟨"a", "2", "Proxy:a"⟩, ⟨"b", "1", " "⟩] := by
  decide +kernel

end Faceted

/-- The second link is the third entry. There is no ninth one. -/
theorem drawn_key_follows_link_faceted :
    let second : Key := { code := .char '2', alt := true }
    let ninth : Key := { code := .function 9 }
    let drawn := (Faceted.shown.mounted.frame "" ⟨0, 0⟩).facetText.flatten
    Faceted.first.Operated Faceted.shown ∧ second.Picks 2 ∧ ninth.Picks 9 ∧
      (∀ place, (∃ text, Frame.Marks drawn 2 place text) ↔ place = 2) ∧
      (Faceted.shown.press second).value.input = "Proxy:a" ∧
      ((Faceted.shown.press second).value.settle 600).value.mounted.session.shown.filter = "Proxy:a" ∧
      Faceted.shown.press ninth = pure Faceted.shown := by
  intro second ninth drawn
  have operated : Faceted.first.Operated Faceted.shown := (App.Operated.start.settle 0).settle 500
  have input : Faceted.shown.input = "" := rfl
  have picks : second.Picks 2 := .inr ⟨rfl, '2', rfl, rfl⟩
  have picks' : ninth.Picks 9 := .inl rfl
  have links : Faceted.shown.entries.filterMap FacetEntry.drillDown = ["Country:DE", "Proxy:a"] := by
    rw [Faceted.entries]
    decide
  obtain ⟨marks, follow, none, alive⟩ := App.drawn_key_follows_link Faceted.shown ⟨0, 0⟩
  rw [input] at marks follow none
  obtain ⟨place, e, at_place, only, typed, rests⟩ := follow 2 second (by decide) (by decide) picks (by rw [links]; decide)
  have marked : ∃ text, Frame.Marks drawn 2 2 text :=
    ⟨_, (marks 2 2 _).mpr ⟨⟨"a", "2", "Proxy:a"⟩, by rw [Faceted.entries]; rfl, rfl, by decide, by decide, by
      rw [Faceted.entries]; decide⟩⟩
  obtain rfl : 2 = place := (only 2).mp marked
  obtain rfl : ⟨"a", "2", "Proxy:a"⟩ = e := by
    rw [Faceted.entries] at at_place
    exact Option.some.inj at_place
  exact ⟨operated, picks, picks', only, typed, (rests (alive _ _ _ _ _ operated) 600).shown,
    (none 9 ninth (by decide) (by decide) picks' (by rw [links]; decide)).2⟩

end ProxyMonitor.Screen
