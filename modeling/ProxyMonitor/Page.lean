import ProxyMonitor.Json.Decode
/-! The four pages of the dashboard: where each is served, what it is called, and how it is named in
commands and locations. -/
namespace ProxyMonitor
open ProxyMonitor.Text

/-- History lists requests made through the pool; the pool holds working proxies, the blacklist rejected
ones, and reverify those that wait for another check. -/
inductive Page where
  | history | pool | blacklist | reverify
deriving DecidableEq, Repr, Inhabited

namespace Page

def all : List Page := [.history, .pool, .blacklist, .reverify]

def name : Page → String
  | .history => "history"
  | .pool => "pool"
  | .blacklist => "blacklist"
  | .reverify => "reverify"

/-- The collection's path below the API root. -/
def endpoint (p : Page) : String :=
  "/" ++ p.name

/-- The path below the API root under which one record is deleted. History cannot be deleted; the probe
service owns the pool and the blacklist service the other two. -/
def removalEndpoint : Page → Option String
  | .history => none
  | .pool => some "/probe"
  | .blacklist | .reverify => some "/blacklist"

def title : Page → String
  | .history => "History"
  | .pool => "Proxies"
  | .blacklist => "Blacklist"
  | .reverify => "Reverify"

def defaultCadence : Page → Nat
  | .history | .pool => 2000
  | .blacklist | .reverify => 10000

def next : Page → Page
  | .history => .pool
  | .pool => .blacklist
  | .blacklist => .reverify
  | .reverify => .history

def prev : Page → Page
  | .history => .reverify
  | .pool => .history
  | .blacklist => .pool
  | .reverify => .blacklist

def ofName? (name : String) : Option Page :=
  all.find? (·.name == name)

/-- The page that a path leads to, whatever slashes stand around it. The pool is also known by its
title. -/
def ofPath? (path : String) : Option Page :=
  let bare := String.ofList (trim path.toList (· == '/'))
  (ofName? bare).or (if bare = "proxies" then some .pool else none)

/-- The page that a word names: its path in any letter case, with blanks around it. -/
def ofWord? (word : String) : Option Page :=
  ofPath? (String.ofList ((trim word.toList).map Char.toLower))

/-- A page in a document is its name. -/
def decode : Json.Decoder Page := fun depth d =>
  (Json.Decoder.choice depth d).bind ofName?

/-- What is said of a word that names no page. -/
def unknownMessage (word : String) : String :=
  s!"unknown page '{word}' (expected one of: history, pool, blacklist, reverify)"

end Page
end ProxyMonitor
