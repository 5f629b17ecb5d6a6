import ProxyMonitor.Toml.Table
/-! TOML files. -/
namespace ProxyMonitor.Toml
open ProxyMonitor.Text

/-- Keys may have fewer parts than this, and values fewer levels. -/
def depthLimit : Nat := 80

def skipSpace (text : List Char) : List Char :=
  text.dropWhile isSpace

/-- What follows a comment or line end, and the blanks after them. -/
private def skipLines : (inComment : Bool) → List Char → List Char
  | _, '\n' :: rest | _, '\r' :: '\n' :: rest => skipLines false rest
  | true, c :: rest => if isPrintable c then skipLines true rest else c :: rest
  | false, c :: rest =>
    if isSpace c then skipLines false rest else if c == '#' then skipLines true rest else c :: rest
  | _, [] => []

/-- The end of a line, after blanks and a comment. -/
def lineEnd (text : List Char) : Option (List Char) :=
  let rest := match skipSpace text with
    | '#' :: rest => rest.dropWhile isPrintable
    | rest => rest
  match rest with
  | '\n' :: rest | '\r' :: '\n' :: rest => some rest
  | [] => some []
  | _ => none

def isBareKeyChar (c : Char) : Bool :=
  c.isAlphanum || c == '-' || c == '_'

def readKeyPart (text : List Char) : Option (String × List Char) :=
  let single := fun (read : Reader (List Char)) rest =>
    (read rest).map fun (part, rest) => (String.ofList part, rest)
  match text with
  | '"' :: rest => single readBasic rest
  | '\'' :: rest => single readLiteral rest
  | text =>
    let part := text.takeWhile isBareKeyChar
    if part.isEmpty then none else some (String.ofList part, text.drop part.length)

/-- Parts between dots, with blanks around them. -/
def readKeyParts : (fuel : Nat) → Reader (List String)
  | 0, _ => none
  | fuel + 1, text => do
    let (part, rest) ← readKeyPart (skipSpace text)
    match skipSpace rest with
    | '.' :: rest => (readKeyParts fuel rest).map fun (parts, rest) => (part :: parts, rest)
    | rest => some ([part], rest)

/-- A key: the path before its last part, and that part. -/
def readKey (text : List Char) : Option ((List String × String) × List Char) := do
  let (parts, rest) ← readKeyParts text.length text
  guard (parts.length < depthLimit)
  return ((parts.dropLast, ← parts.getLast?), rest)

private def readItems (value : Reader Node) : (fuel : Nat) → Reader (List Node)
  | 0, _ => none
  | fuel + 1, text =>
    match skipLines false text with
    | ']' :: rest => some ([], rest)
    | text => do
      let (item, rest) ← value text
      match skipLines false rest with
      | ',' :: rest => (readItems value fuel rest).map fun (items, rest) => (item :: items, rest)
      | ']' :: rest => some ([item], rest)
      | _ => none

/-- Pairs up to the closing brace, after none or a comma. -/
private def readPairs (value : Reader Node) : (fuel : Nat) → Members → Reader Members
  | 0, _, _ => none
  | fuel + 1, members, text => do
    let ((path, key), rest) ← readKey text
    let (n, rest) ← match rest with
      | '=' :: rest => value (skipSpace rest)
      | _ => none
    let members ← members.addPair path key n .inline
    match skipSpace rest with
    | ',' :: rest => readPairs value fuel members rest
    | '}' :: rest => some (members, rest)
    | _ => none

/-- A value with at most `depth` levels. -/
def readValue : (depth : Nat) → Reader Node
  | 0, text => (readScalar text).map fun (s, rest) => (.scalar s, rest)
  | depth + 1, text =>
    match text with
    | '[' :: rest => (readItems (readValue depth) rest.length rest).map fun (items, rest) => (.array items, rest)
    | '{' :: rest =>
      match skipSpace rest with
      | '}' :: rest => some (.table .inline [], rest)
      | rest =>
        (readPairs (readValue depth) rest.length [] rest).map fun (members, rest) => (.table .inline members, rest)
    | text => (readScalar text).map fun (s, rest) => (.scalar s, rest)

/-- What was read so far, and the table that pairs go to. -/
structure Progress where
  root : Members := []
  current : List String := []

def addPair (p : Progress) (path : List String) (key : String) (n : Node) : Option Progress := do
  let root ← p.root.within false (fun _ members => members.addPair path key n .header) p.current .header
  return { p with root }

def readHeader (p : Progress) (closing : List Char)
    (add : List String → String → Members → Option Members) (text : List Char) :
    Option (Progress × List Char) := do
  let ((path, key), rest) ← readKey text
  guard (closing.isPrefixOf rest)
  let rest ← lineEnd (rest.drop closing.length)
  return (⟨← add path key p.root, path ++ [key]⟩, rest)

/-- A comment, a header or a pair, up to the end of its line. -/
def readLine (p : Progress) (text : List Char) : Option (Progress × List Char) :=
  match text with
  | '#' :: _ | '\n' :: _ | '\r' :: _ => (lineEnd text).map (p, ·)
  | '[' :: '[' :: rest => readHeader p [']', ']'] Members.addToArray rest
  | '[' :: rest => readHeader p [']'] Members.addTable rest
  | text => do
    let ((path, key), rest) ← readKey text
    match rest with
    | '=' :: rest =>
      let (n, rest) ← readValue (depthLimit - 1) (skipSpace rest)
      return (← addPair p path key n, ← lineEnd rest)
    | _ => none

def readFrom : (fuel : Nat) → Progress → List Char → Option Members
  | 0, _, _ => none
  | fuel + 1, p, text =>
    match skipSpace text with
    | [] => some p.root
    | text => do
      let (p, rest) ← readLine p text
      readFrom fuel p rest

/-- The members of the file's outermost table. A byte order mark may come first. -/
def read (text : List Char) : Option Members :=
  let text := match text with
    | '\uFEFF' :: rest => rest
    | text => text
  readFrom (text.length + 1) {} text

end ProxyMonitor.Toml
