import ProxyMonitor.Json.Decode
/-! Facets: the most common values of one field of a filtered collection, and how they are shown as links
that narrow the filter. -/
namespace ProxyMonitor
open ProxyMonitor.Json ProxyMonitor.Text

/-- One value: its name, how often it occurs, and the filter that selects it. -/
structure FacetEntry where
  name : String
  value : String
  filter : String := ""
deriving DecidableEq, Repr, Inhabited

structure Facet where
  name : String
  top : List FacetEntry := []
deriving DecidableEq, Repr, Inhabited

/-- An entry as it is shown. Without a link it is plain text. -/
structure EntryView where
  label : String
  value : String
  link : Option String
deriving DecidableEq, Repr

structure FacetView where
  name : String
  entries : List EntryView
deriving DecidableEq, Repr

namespace FacetEntry

/-- The name of an entry for empty values. -/
def noLinkName : String := "n/a"

/-- The filter that the entry leads to, unless it stands for empty values or has a blank one. -/
def drillDown (e : FacetEntry) : Option String :=
  if e.name = noLinkName ∨ e.filter.toList.all isBlank then none else some e.filter

/-- A count may be a number or a text. -/
def decodeValue : Decoder String
  | depth, .text s => Decoder.text depth (.text s)
  | depth, d => (Decoder.number depth d).map fun
    | .natural n =>
      String.ofList (if (n : Int) ≤ maxInteger then digits n else (Binary64.ofNat n).plain)
    | .integer i => String.ofList (Value.integerText i)
    | .double x => String.ofList x.plain

def decode : Decoder FacetEntry := fun depth d => do
  let parts ← Decoder.fields ["Name", "Value", "Filter"] depth d
  return {
    name := ← Decoder.required parts "Name" Decoder.text
    value := ← Decoder.required parts "Value" decodeValue
    filter := ← Decoder.optional parts "Filter" "" Decoder.text }

def encode (e : FacetEntry) : Value :=
  .object [("Name", .text e.name), ("Value", .text e.value), ("Filter", .text e.filter)]

def labelLimit : Nat := 32

/-- A name of at most 32 characters, or its first 32 and three dots. -/
def label (e : FacetEntry) : String :=
  let chars := e.name.toList
  if chars.length ≤ labelLimit then e.name else String.ofList (chars.take labelLimit) ++ "..."

def view (e : FacetEntry) : EntryView :=
  ⟨e.label, e.value, e.drillDown⟩

end FacetEntry

namespace Facet

def decode : Decoder Facet := fun depth d => do
  let parts ← Decoder.fields ["Name", "Top"] depth d
  return {
    name := ← Decoder.required parts "Name" Decoder.text
    top := ← Decoder.optional parts "Top" [] (Decoder.listOrNull FacetEntry.decode) }

def encode (f : Facet) : Value :=
  .object [("Name", .text f.name), ("Top", .list FacetEntry.encode f.top)]

/-- Whether two entries have different names. -/
def isInformative (f : Facet) : Bool :=
  match f.top with
  | [] => false
  | first :: rest => rest.any (·.name != first.name)

def view (f : Facet) : FacetView :=
  ⟨f.name, f.top.map FacetEntry.view⟩

/-- The facets that say something, in order. -/
def views (facets : List Facet) : List FacetView :=
  (facets.filter isInformative).map view

end Facet

namespace FacetView

def links (v : FacetView) : List String :=
  v.entries.filterMap EntryView.link

private def entryText (e : EntryView) : String :=
  match e.link with
  | some filter => s!"{e.label} ({e.value}) [{filter}]"
  | none => s!"{e.label} ({e.value})"

/-- The facet on one line. -/
def line (v : FacetView) : String :=
  s!"{v.name}: " ++ ", ".intercalate (v.entries.map entryText)

end FacetView
end ProxyMonitor
