import ProxyMonitor.Url.Form
import ProxyMonitor.Url.Host
/-! URLs and their text. -/
namespace ProxyMonitor

namespace Url

/-- A path is text without structure, or the segments between its slashes. -/
inductive Path where
  | bare (text : List Char)
  | segments (parts : List (List Char))
deriving DecidableEq, Repr

def Path.write : Path → List Char
  | .bare text => text
  | .segments parts => parts.flatMap ('/' :: ·)

end Url

/-- All parts are kept in their escaped form. -/
structure Url where
  scheme : List Char
  username : List Char := []
  password : List Char := []
  host : Option Url.Host := none
  port : Option Nat := none
  path : Url.Path
  query : Option (List Char) := none
  fragment : Option (List Char) := none
deriving DecidableEq, Repr

namespace Url

def isFile (scheme : List Char) : Bool :=
  scheme == "file".toList

/-- Schemes whose hosts are names and whose paths have segments; a backslash is a slash in them. -/
def isSpecial (scheme : List Char) : Bool :=
  isFile scheme || ["http", "https", "ws", "wss", "ftp"].any (·.toList == scheme)

def defaultPort (scheme : List Char) : Option Nat :=
  if scheme == "http".toList || scheme == "ws".toList then some 80
  else if scheme == "https".toList || scheme == "wss".toList then some 443
  else if scheme == "ftp".toList then some 21
  else none

private def credentials (u : Url) : List Char :=
  if u.username.isEmpty && u.password.isEmpty then []
  else u.username ++ (if u.password.isEmpty then [] else ':' :: u.password) ++ ['@']

private def authority (u : Url) : List Char :=
  match u.host with
  | some host =>
    '/' :: '/' :: credentials u ++ host.write ++ ((u.port.map fun p => ':' :: Text.digits p).getD [])
  | none =>
    if isFile u.scheme then ['/', '/']
    else if "//".toList.isPrefixOf u.path.write then ['/', '.'] else []

def part (mark : Char) : Option (List Char) → List Char
  | some text => mark :: text
  | none => []

def write (u : Url) : List Char :=
  u.scheme ++ ':' :: authority u ++ u.path.write ++ part '?' u.query ++ part '#' u.fragment

/-- Path and query, as a request names them. -/
def target (u : Url) : List Char :=
  u.path.write ++ part '?' u.query

/-- The pairs that the query lists. -/
def queryPairs (u : Url) : Form.Pairs :=
  Form.read (u.query.getD [])

/-- Adds pairs to the query. An empty query is none. -/
def addPairs (u : Url) (pairs : Form.Pairs) : Url :=
  let given := u.query.getD []
  let added := Form.write pairs
  let query := if given.isEmpty || pairs.isEmpty then given ++ added else given ++ '&' :: added
  { u with query := if query.isEmpty then none else some query }

end Url
end ProxyMonitor
