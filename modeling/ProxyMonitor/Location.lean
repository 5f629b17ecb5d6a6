import ProxyMonitor.Page
import ProxyMonitor.Url.Resolve
/-! Page locations: a path and ordered query pairs. The filter expression is the pair named `filter`, and is
kept nowhere else. -/
namespace ProxyMonitor

structure Location where
  path : String
  pairs : Url.Form.Pairs := []
deriving DecidableEq, Repr, Inhabited

namespace Location

/-- The location of a path without a query. -/
def ofPath (path : String) : Location :=
  { path := if path.startsWith "/" then path else "/" ++ path }

def ofPage (p : Page) : Location :=
  ofPath p.name

/-- What a relative location is read against. -/
def base : Url where
  scheme := "http".toList
  host := some (.name "localhost".toList)
  path := .segments [[]]

/-- Reads a location, relative or absolute. Only path and query count. -/
def read (text : String) : Except Url.Problem Location :=
  (base.join (Text.trim text.toList)).map fun url =>
    { path := String.ofList url.path.write, pairs := url.queryPairs }

/-- What is said of a text that is no location. -/
def invalidMessage (text : String) (problem : Url.Problem) : String :=
  s!"invalid location '{text}': {problem.message}"

def get? (l : Location) (key : String) : Option String :=
  l.pairs.lookup key

def remove (l : Location) (key : String) : Location :=
  { l with pairs := l.pairs.filter (·.1 != key) }

/-- Gives the first pair of the key the value and drops the others; a new key goes to the end. -/
def set (l : Location) (key value : String) : Location :=
  match l.pairs.dropWhile (·.1 != key) with
  | [] => { l with pairs := l.pairs ++ [(key, value)] }
  | _ :: rest =>
    { l with pairs := l.pairs.takeWhile (·.1 != key) ++ (key, value) :: rest.filter (·.1 != key) }

/-- The encoded pairs. -/
def query (l : Location) : String :=
  String.ofList (Url.Form.write l.pairs)

def text (l : Location) : String :=
  if l.pairs.isEmpty then l.path else s!"{l.path}?{l.query}"

def page? (l : Location) : Option Page :=
  Page.ofPath? l.path

def filterKey : String := "filter"

/-- The filter expression; a location without one is unfiltered, as with an empty one. -/
def filter (l : Location) : String :=
  (l.get? filterKey).getD ""

/-- An empty filter is left out of the location. -/
def setFilter (l : Location) (value : String) : Location :=
  if value.isEmpty then l.remove filterKey else l.set filterKey value

/-- Replaces the filter: whether it has changed. -/
def replaceFilter (l : Location) (value : String) : Bool × Location :=
  (l.filter != value, l.setFilter value)

end Location
end ProxyMonitor
