import ProxyMonitor.Url.Basic
/-! Reading URLs, alone and against another one. -/
namespace ProxyMonitor.Url
open ProxyMonitor.Text

def isSlash (special : Bool) (c : Char) : Bool :=
  c == '/' || (special && c == '\\')

def endsPath (c : Char) : Bool :=
  c == '?' || c == '#'

def isDot (segment : List Char) : Bool :=
  segment.map Char.toLower ∈ [".".toList, "%2e".toList]

def isDoubleDot (segment : List Char) : Bool :=
  segment.map Char.toLower ∈ ["..".toList, "%2e.".toList, ".%2e".toList, "%2e%2e".toList]

def isDrive : List Char → Bool
  | [c, d] => c.isAlpha && (d == ':' || d == '|')
  | _ => false

/-- A file path's first segment can be a drive, which is written with a colon. -/
def driveNormal : List Char → List Char
  | [c, '|'] => [c, ':']
  | segment => segment

/-- The segments before the last one; a file path keeps its drive. -/
def shortened (file : Bool) : List (List Char) → List (List Char)
  | [first] => if file && isDrive first then [first] else []
  | done => done.drop 1

/-- Appends raw segments to those read before, last first. Dots move within the path. -/
def walk (file : Bool) (done : List (List Char)) : List (List Char) → List (List Char)
  | [] => done.reverse
  | [last] =>
    if isDoubleDot last then (([] : List Char) :: shortened file done).reverse
    else if isDot last then (([] : List Char) :: done).reverse
    else (escaped last :: done).reverse
  | segment :: rest =>
    if isDoubleDot segment then walk file (shortened file done) rest
    else if isDot segment then walk file done rest
    else walk file (escaped segment :: done) rest
where
  escaped (segment : List Char) : List Char :=
    if file && done.isEmpty && isDrive segment then driveNormal segment
    else Percent.encode Percent.path segment

def slashNormal (special : Bool) (text : List Char) : List Char :=
  text.map fun c => if isSlash special c then '/' else c

/-- A file path has no empty segments at its start. -/
def trimmedFront : List (List Char) → List (List Char)
  | [] :: second :: rest => trimmedFront (second :: rest)
  | parts => parts

/-- The path that a text without its first slash writes after the segments `done`, last first. -/
def readPath (scheme : List Char) (done : List (List Char)) (text : List Char) : Path :=
  let parts := walk (isFile scheme) done ((slashNormal (isSpecial scheme) text).splitOn '/')
  .segments (if isFile scheme then trimmedFront parts else parts)

/-- Query and fragment, from the character that ends the path. -/
def finish (u : Url) (text : List Char) : Url :=
  let set := if isSpecial u.scheme then Percent.specialQuery else Percent.query
  let fragmentOf := fun (text : List Char) =>
    match text with
    | '#' :: rest => some (Percent.encode Percent.fragment rest)
    | _ => none
  match text with
  | '?' :: rest =>
    { u with
      query := some (Percent.encode set (rest.takeWhile (· != '#')))
      fragment := fragmentOf (rest.dropWhile (· != '#')) }
  | text => { u with fragment := fragmentOf text }

def beforePathEnd (text : List Char) : List Char :=
  text.takeWhile (! endsPath ·)

def fromPathEnd (text : List Char) : List Char :=
  text.dropWhile (! endsPath ·)

def afterSlash (special : Bool) : List Char → List Char
  | c :: rest => if isSlash special c then rest else c :: rest
  | [] => []

/-- Path, query and fragment after an authority. -/
def finishPath (u : Url) (text : List Char) : Url :=
  let special := isSpecial u.scheme
  let path := beforePathEnd text
  let segments := if !special && path.isEmpty then .segments [] else readPath u.scheme [] (afterSlash special path)
  finish { u with path := segments } (fromPathEnd text)

/-- The text up to the colon of a port; a colon in brackets belongs to the host. -/
def hostText (special : Bool) : (inBrackets : Bool) → List Char → List Char × List Char
  | _, [] => ([], [])
  | inBrackets, c :: rest =>
    if (c == ':' && !inBrackets) || isSlash special c || endsPath c then ([], c :: rest)
    else
      let inBrackets := if c == '[' then true else if c == ']' then false else inBrackets
      let (host, rest) := hostText special inBrackets rest
      (c :: host, rest)

def readPort (scheme text : List Char) : Except Problem (Option Nat × List Char) := do
  let run := text.takeWhile isDigit
  let rest := text.drop run.length
  unless rest.head?.all (fun c => c == '/' || c == '\\' || endsPath c) do throw .invalidPort
  let port := natOfDigits run
  if 65535 < port then throw .invalidPort
  return (if run.isEmpty || defaultPort scheme = some port then none else some port, rest)

/-- Credentials before the last at sign of an authority. -/
def readCredentials (special : Bool) (text : List Char) :
    Except Problem (List Char × List Char × List Char) :=
  let area := text.takeWhile fun c => !(isSlash special c || endsPath c)
  if '@' ∈ area then
    let after := (area.reverse.takeWhile (· != '@')).length
    let given := area.take (area.length - after - 1)
    let rest := text.drop (given.length + 1)
    if given.isEmpty then
      if rest.head?.any (fun c => isSlash special c || endsPath c) then .error .emptyHost else .ok ([], [], rest)
    else
      .ok (Percent.encode Percent.userinfo (given.takeWhile (· != ':')),
        Percent.encode Percent.userinfo ((given.dropWhile (· != ':')).drop 1), rest)
  else .ok ([], [], text)

/-- A URL from its authority on. -/
def readAuthority (scheme text : List Char) : Except Problem Url := do
  let special := isSpecial scheme
  let (username, password, text) ← readCredentials special text
  let (host, rest) := hostText special false text
  if host.isEmpty && (special || rest.head? == some ':') then throw .emptyHost
  let host ← if special then Host.readName host else Host.readText host
  let (port, rest) ← match rest with
    | ':' :: rest => readPort scheme rest
    | rest => pure (none, rest)
  return finishPath { scheme, username, password, host := some host, port, path := .segments [] } rest

def readFile (text : List Char) : Except Problem Url := do
  let file : Url := { scheme := "file".toList, path := .segments [] }
  match slashNormal true (beforePathEnd text) ++ fromPathEnd text with
  | '/' :: '/' :: rest =>
    let host := rest.takeWhile fun c => !(c == '/' || endsPath c)
    if host.isEmpty || isDrive host then return finishPath file rest
    else
      let parsed ← Host.readName host
      let named := if parsed = .name "localhost".toList then none else some parsed
      return finishPath { file with host := named } (rest.drop host.length)
  | text => return finishPath file text

/-- The scheme of a text and what follows its colon. -/
def splitScheme (text : List Char) : Option (List Char × List Char) :=
  let isPart := fun (c : Char) => c.isAlphanum || c == '+' || c == '-' || c == '.'
  match text.dropWhile isPart with
  | ':' :: rest => if text.head?.any Char.isAlpha then some ((text.takeWhile isPart).map Char.toLower, rest) else none
  | _ => none

def readOther (scheme text : List Char) : Except Problem Url :=
  match text with
  | '/' :: '/' :: rest => readAuthority scheme rest
  | '/' :: rest =>
    .ok (finish { scheme, path := readPath scheme [] (beforePathEnd rest) } (fromPathEnd rest))
  | text =>
    .ok (finish { scheme, path := .bare (Percent.encode Percent.controls (beforePathEnd text)) } (fromPathEnd text))

/-- Control characters and blanks around a URL do not count, nor do tabs and line ends within it. -/
def prepared (text : List Char) : List Char :=
  (trim text fun c => c.toNat ≤ 0x20).filter fun c => !(c == '\t' || c == '\n' || c == '\r')

def readAbsolute (scheme rest : List Char) : Except Problem Url :=
  if isFile scheme then readFile rest
  else if isSpecial scheme then readAuthority scheme (rest.dropWhile (isSlash true))
  else readOther scheme rest

/-- Reads a text against a base whose scheme is special. -/
def readRelative (base : Url) (text : List Char) : Except Problem Url :=
  let whole := { base with fragment := none }
  match text with
  | [] => .ok whole
  | '?' :: _ => .ok (finish { whole with query := none } text)
  | '#' :: _ => .ok (finish whole text)
  | c :: rest =>
    let bare := { whole with query := none }
    if isSlash true c then
      if rest.head?.any (isSlash true) then
        match c, rest with
        | '/', '/' :: rest => readAuthority base.scheme rest
        | _, rest => readAuthority base.scheme (rest.dropWhile (isSlash true))
      else .ok (finish { bare with path := readPath base.scheme [] (beforePathEnd rest) } (fromPathEnd rest))
    else
      let before := match base.path with
        | .segments parts => parts.dropLast
        | .bare _ => []
      .ok (finish { bare with path := readPath base.scheme before.reverse (beforePathEnd text) } (fromPathEnd text))

/-- Reads an absolute URL. -/
def read (text : List Char) : Except Problem Url :=
  match splitScheme (prepared text) with
  | some (scheme, rest) => readAbsolute scheme rest
  | none => .error .noBase

/-- Reads a URL against a base whose scheme is special and names no file. -/
def join (base : Url) (text : List Char) : Except Problem Url :=
  let text := prepared text
  match splitScheme text with
  | some (scheme, rest) =>
    let slashes := (rest.takeWhile (isSlash true)).length
    if scheme == base.scheme && slashes < 2 then readRelative base rest else readAbsolute scheme rest
  | none => readRelative base text

/-- Appends one segment to the path, unless it is a dot or two; nothing can be appended to a path without
segments. Tabs and line ends are dropped first, so that dots between them still move within the path. -/
def pushSegment? (u : Url) (segment : List Char) : Option Url :=
  match u.path with
  | .bare _ => none
  | .segments parts =>
    if segment = ['.'] ∨ segment = ['.', '.'] then some u else
    let set := if isSpecial u.scheme then Percent.specialPathSegment else Percent.pathSegment
    let added := Percent.encode set (segment.filter fun c => !(c == '\t' || c == '\n' || c == '\r'))
    let before := if parts = [[]] then [] else parts
    let after :=
      if isDoubleDot added then before.dropLast ++ [[]]
      else if isDot added then before ++ [[]]
      else before ++ [added]
    some { u with path := .segments after }

end ProxyMonitor.Url
