import ProxyMonitor.Live.View
import ProxyMonitor.Record.Listing
import ProxyMonitor.Screen.Layout
import ProxyMonitor.Screen.Panel
/-! The whole screen: the pages and the state of the one that is shown, its filter, its failure, its facets
and its records, and the keys. -/
namespace ProxyMonitor.Screen
open ProxyMonitor.Record ProxyMonitor.Time

/-- What a page shows: its last result, and how its polling goes. -/
structure Shown (α : Type) where
  location : String
  state : Poll.PollState
  failure : Option String
  sink : Live.Sink α

def Shown.ofView (v : Live.View α) : Shown α where
  location := v.location.text
  state := v.scheduler.state
  failure := v.failure
  sink := v.sink

/-- A page as it is drawn. -/
structure Frame (α : Type) where
  page : Page
  input : String
  shown : Shown α
  listing : Listing α
  now : Instant

namespace Frame

variable {α : Type} (f : Frame α)

def facets : List FacetView :=
  Facet.views f.shown.sink.facets

/-- The total and a summary, where there is a result, and the state. -/
def status : Except Overflow (List String) := do
  let counted ← match f.shown.sink.label with
    | none => pure []
    | some label => do
      match ← f.listing.summary f.shown.sink.records with
      | none => pure [label, "  "]
      | some summary => pure [label, s!" · {summary}", "  "]
  return counted ++ [f.shown.state.label]

def statusWidth : Nat := 56

def tabs : String :=
  " " ++ " │ ".intercalate (Page.all.map Page.title) ++ " "

def header (size : Size) : Except Crash Picture := do
  let status ← f.status.mapError Crash.ofOverflow
  match Layout.arrange size.width 0 [.stretched, .fixed statusWidth] with
  | [left, right] =>
    return Picture.beside
      (.underlined ⟨left.length, size.height⟩ fun inner => [Row.ofText inner.width tabs])
      (.underlined ⟨right.length, size.height⟩ fun inner => [Row.ofPieces inner.width .right status])
  | _ => return []

private def filter (size : Size) : Picture :=
  .framed size (some " Filter ") (some s!" {f.shown.location} ") fun inner =>
    [Row.ofPieces inner.width .left
      (if f.input.isEmpty then ["type to filter"] else Wrap.textLines f.input)]

private def failure (size : Size) (message : String) : Picture :=
  .framed size (some " Failed ") none fun inner =>
    [Row.ofPieces inner.width .left [message, "  (edit the filter or Ctrl+R to retry)"]]

def numberedLinks : Nat := 9

/-- What says which key follows a link. -/
def linkMark (number : Nat) : String :=
  s!"F{number} "

/-- What stands behind an entry. -/
def gap : String := "  "

def entryText (e : EntryView) : String :=
  s!"{e.label} ({e.value})"

/-- The pieces of an entry, after some links. The first links have keys. -/
def entryPieces (links : Nat) (e : EntryView) : List String :=
  if e.link.isSome && links < numberedLinks then [linkMark (links + 1), entryText e, gap] else [entryText e, gap]

def facetPieces (links : Nat) : List EntryView → List String
  | [] => []
  | e :: rest => entryPieces links e ++ facetPieces (links + e.link.toList.length) rest

/-- What stands in front of the entries of a facet. -/
def facetTitle (v : FacetView) : String :=
  s!"{v.name}: "

/-- A line for each facet. The links are counted over all of them. -/
def facetLines (links : Nat) : List FacetView → List (List String)
  | [] => []
  | v :: rest => (facetTitle v :: facetPieces links v.entries) :: facetLines (links + v.links.length) rest

/-- The lines of the facet panel, each in the pieces that it is put together from. -/
def facetText : List (List String) :=
  facetLines 0 f.facets

private def facetPanel (size : Size) : Picture :=
  .framed size (some " Facets ") none fun inner =>
    f.facetText.map (Row.ofPieces inner.width .left)

/-- The first line of a cell. -/
private def cell (width : Nat) (text : String) : Row :=
  Row.fitted width (Row.ofLabel width ((Wrap.textLines text).headD ""))

/-- Cells at the places of their columns. -/
private def tableRow (size : Size) (columns : List Extent) (cells : List String) : Row :=
  (columns.zip cells).foldl (fun row (column, text) => row.painted column.start (cell column.length text))
    (Row.blank size.width)

private def table (size : Size) : Picture :=
  let rows := f.shown.sink.records.map (f.listing.cells f.now)
  let columns := Layout.arrange size.width 1 ((columnWidths f.listing.headers rows).map .fixed)
  (f.listing.headers :: rows).map (tableRow size columns)

private def records (size : Size) : Picture :=
  .framed size none none fun inner =>
    if !f.shown.sink.records.isEmpty then f.table inner
    else if f.shown.sink.hasResult then [Row.ofText inner.width "no matching records"]
    else [Row.ofText inner.width "loading..."]

def keys : String :=
  " [Tab] Page  [type] Filter  [F1-F9] Drill down  [Ctrl+P] Pause  [Ctrl+R] Retry  [Ctrl+U] Clear  [Esc] Quit "

def maxFacetRows : Nat := 8

/-- The rows of the facet panel. Facets are counted in 16 bits, so that there is room for none of 65536. -/
def facetRows : Nat :=
  if f.facets.isEmpty then 0 else min f.facets.length.toUInt16.toNat maxFacetRows + 2

/-- The heights of the panels, from top to bottom. -/
def parts : List Part :=
  [.fixed 3, .fixed 3, .fixed (if f.shown.failure.isSome then 3 else 0), .fixed f.facetRows, .stretched, .fixed 1]

/-- The panels from top to bottom. There is none for a failure or for facets where there are none. -/
def panels : List Size → List Panel
  | [top, middle, banner, facets, rest, bottom] =>
    [⟨"header", top, f.header top⟩, ⟨"filter", middle, .ok (f.filter middle)⟩] ++
      (f.shown.failure.map fun message => ⟨"failure", banner, .ok (failure banner message)⟩).toList ++
      (if f.facets.isEmpty then [] else [⟨"facets", facets, .ok (f.facetPanel facets)⟩]) ++
      [⟨"records", rest, .ok (f.records rest)⟩, ⟨"keys", bottom, .ok [Row.ofText bottom.width keys]⟩]
  | _ => []

def draw (size : Size) : Logged Picture := do
  let heights := (Layout.arrange size.height 0 f.parts).map Extent.length
  let picture ← Panel.drawAll (f.panels (heights.map fun height => ⟨size.width, height⟩))
  return picture.fitted size

end Frame
end ProxyMonitor.Screen
