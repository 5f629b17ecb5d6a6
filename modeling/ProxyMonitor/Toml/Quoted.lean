import ProxyMonitor.Text.Blank
/-! Quoted text of a TOML file: basic strings with escapes and literal strings without, each on one line or
on several. -/
namespace ProxyMonitor.Toml
open ProxyMonitor.Text

/-- What is read, and the text after it. -/
abbrev Reader (α : Type) := List Char → Option (α × List Char)

def isSpace (c : Char) : Bool :=
  c == ' ' || c == '\t'

/-- Characters that may stand in a comment or a quoted text. -/
def isPrintable (c : Char) : Bool :=
  c == '\t' || (0x20 ≤ c.toNat && c.toNat != 0x7F)

/-- The character with this code in hexadecimal. -/
def scalar (code : List Char) : Option Char := do
  let n := (← code.mapM hexValue?).foldl (fun n d => n * 16 + d) 0
  if n.isValidChar then some (Char.ofNat n) else none

def escapes : List (Char × Char) :=
  [('b', '\x08'), ('t', '\t'), ('n', '\n'), ('f', '\x0c'), ('r', '\r'), ('"', '"'), ('\\', '\\')]

def prepend (c : Char) (found : Option (List Char × List Char)) : Option (List Char × List Char) :=
  found.map fun (text, rest) => (c :: text, rest)

/-- After the opening quote of a basic string. -/
def readBasic : Reader (List Char)
  | '"' :: rest => some ([], rest)
  | '\\' :: 'u' :: a :: b :: c :: d :: rest => do prepend (← scalar [a, b, c, d]) (readBasic rest)
  | '\\' :: 'U' :: a :: b :: c :: d :: e :: f :: g :: h :: rest => do
    prepend (← scalar [a, b, c, d, e, f, g, h]) (readBasic rest)
  | '\\' :: mark :: rest => do prepend (← escapes.lookup mark) (readBasic rest)
  | c :: rest => if isPrintable c && c != '\\' then prepend c (readBasic rest) else none
  | [] => none

/-- Whether a backslash at the end of a line is being followed up: to that end, or to the next text. -/
inductive Joining where
  | no | toLineEnd | toText
deriving DecidableEq, Repr

/-- After the opening quotes of a basic string of several lines. Up to two quotes may stand before the
closing ones, and a backslash joins its line with the next text. -/
def readLines : Joining → Reader (List Char)
  | .toLineEnd, '\n' :: rest | .toLineEnd, '\r' :: '\n' :: rest => readLines .toText rest
  | .toLineEnd, c :: rest => if isSpace c then readLines .toLineEnd rest else none
  | .toText, '\r' :: '\n' :: rest => readLines .toText rest
  | _, '"' :: '"' :: '"' :: '"' :: '"' :: rest => some (['"', '"'], rest)
  | _, '"' :: '"' :: '"' :: '"' :: rest => some (['"'], rest)
  | _, '"' :: '"' :: '"' :: rest => some ([], rest)
  | _, '\r' :: '\n' :: rest => prepend '\n' (readLines .no rest)
  | _, '\\' :: 'u' :: a :: b :: c :: d :: rest => do prepend (← scalar [a, b, c, d]) (readLines .no rest)
  | _, '\\' :: 'U' :: a :: b :: c :: d :: e :: f :: g :: h :: rest => do
    prepend (← scalar [a, b, c, d, e, f, g, h]) (readLines .no rest)
  | _, '\\' :: '\r' :: '\n' :: rest => readLines .toText rest
  | _, '\\' :: mark :: rest =>
    if mark == '\n' then readLines .toText rest
    else if isSpace mark then readLines .toLineEnd rest
    else do prepend (← escapes.lookup mark) (readLines .no rest)
  | joining, c :: rest =>
    if joining = .toText && (isSpace c || c == '\n') then readLines .toText rest
    else if c == '\n' || (isPrintable c && c != '\\') then prepend c (readLines .no rest)
    else none
  | _, [] => none

/-- After the opening quote of a literal string. -/
def readLiteral : Reader (List Char)
  | '\'' :: rest => some ([], rest)
  | c :: rest => if isPrintable c then prepend c (readLiteral rest) else none
  | [] => none

/-- After the opening quotes of a literal string of several lines. -/
def readLiteralLines : Reader (List Char)
  | '\'' :: '\'' :: '\'' :: '\'' :: '\'' :: rest => some (['\'', '\''], rest)
  | '\'' :: '\'' :: '\'' :: '\'' :: rest => some (['\''], rest)
  | '\'' :: '\'' :: '\'' :: rest => some ([], rest)
  | '\r' :: '\n' :: rest => prepend '\n' (readLiteralLines rest)
  | c :: rest => if c == '\n' || isPrintable c then prepend c (readLiteralLines rest) else none
  | [] => none

/-- A line end right after opening quotes does not count. -/
def withoutLineEnd : List Char → List Char
  | '\n' :: rest | '\r' :: '\n' :: rest => rest
  | text => text

/-- A quoted text of any of the four kinds. -/
def readQuoted : Reader (List Char)
  | '"' :: '"' :: '"' :: rest => readLines .no (withoutLineEnd rest)
  | '\'' :: '\'' :: '\'' :: rest => readLiteralLines (withoutLineEnd rest)
  | '"' :: rest => readBasic rest
  | '\'' :: rest => readLiteral rest
  | _ => none

/-- The longest run so far and the one at the end, with one more character. -/
def lengthen (mark : Char) (runs : Nat × Nat) (c : Char) : Nat × Nat :=
  let run := if c == mark then runs.2 + 1 else 0
  (max runs.1 run, run)

def longestRun (mark : Char) (text : List Char) : Nat :=
  (text.foldl (lengthen mark) (0, 0)).1

/-- A character as it stands between quotes, where line ends may be left as they are. -/
def escape (lines : Bool) (c : Char) : List Char :=
  if lines && c == '\n' then [c]
  else
    match escapes.find? (·.2 == c) with
    | some (mark, _) => ['\\', mark]
    | none =>
      if isPrintable c then [c]
      else ['\\', 'u', '0', '0', hexDigit 'A' (c.toNat / 16), hexDigit 'A' (c.toNat % 16)]

/-- Escapes all but plain characters; `quotes` is the longest run of quotes that stands as it is. -/
def escaped (lines : Bool) (quotes : Nat) : (run : Nat) → List Char → List Char
  | _, [] => []
  | run, '"' :: rest =>
    if run < quotes then '"' :: escaped lines quotes (run + 1) rest
    else '\\' :: '"' :: escaped lines quotes 0 rest
  | _, c :: rest => escape lines c ++ escaped lines quotes 0 rest

/-- Writes a text in the first of these forms that needs no escape: between quotes, between apostrophes,
between three quotes, between three apostrophes; or with escapes. Tabs alone do not call for another form. -/
def writeQuoted (text : List Char) : List Char :=
  let lines := '\n' ∈ text
  let opening := if lines then ['\n'] else []
  let hasControls := text.any fun c => !(isPrintable c || c == '\n')
  let hasBackslash := '\\' ∈ text
  let quotes := longestRun '"' text
  let apostrophes := longestRun '\'' text
  let three := fun (c : Char) => [c, c, c]
  if !hasControls && !hasBackslash && quotes = 0 && !lines then '"' :: escaped false 0 0 text ++ ['"']
  else if !hasControls && apostrophes = 0 && !lines then '\'' :: text ++ ['\'']
  else if !hasControls && !hasBackslash && quotes ≤ 2 then
    three '"' ++ opening ++ escaped true 2 0 text ++ three '"'
  else if !hasControls && apostrophes ≤ 2 then three '\'' ++ opening ++ text ++ three '\''
  else if lines then three '"' ++ opening ++ escaped true 2 0 text ++ three '"'
  else '"' :: escaped false 0 0 text ++ ['"']

end ProxyMonitor.Toml
