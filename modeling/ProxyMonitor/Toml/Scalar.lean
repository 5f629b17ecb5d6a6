import ProxyMonitor.Number.Decimal
import ProxyMonitor.Time.Calendar
import ProxyMonitor.Toml.Quoted
/-! Numbers, times and other plain values of a TOML file. -/
namespace ProxyMonitor.Toml
open ProxyMonitor.Text

/-- Texts, whole numbers of 64 bits, and times are told apart; `time` is a date, a time of day or both, and
booleans and floats are `other`. -/
inductive Scalar where
  | text (s : String)
  | integer (i : Int)
  | time
  | other
deriving DecidableEq, Repr

/-- Digits of a base after the first one, with an underscore between two where it is wanted. -/
def moreDigits (isDigit : Char → Bool) : Reader (List Char)
  | '_' :: c :: rest =>
    if isDigit c then (moreDigits isDigit rest).map fun (run, rest) => (c :: run, rest) else none
  | ['_'] => none
  | c :: rest =>
    if isDigit c then (moreDigits isDigit rest).map fun (run, rest) => (c :: run, rest)
    else some ([], c :: rest)
  | [] => some ([], [])

/-- Digits of a base without their underscores. -/
def readDigits (isDigit : Char → Bool) : Reader (List Char)
  | c :: rest => if isDigit c then (moreDigits isDigit rest).map fun (run, rest) => (c :: run, rest) else none
  | [] => none

/-- A whole number without leading zeros. -/
def readWhole : Reader (List Char)
  | '0' :: rest => some (['0'], rest)
  | text => readDigits isDigit text

def splitSign : List Char → List Char × List Char
  | '+' :: rest => (['+'], rest)
  | '-' :: rest => (['-'], rest)
  | rest => ([], rest)

def readExponent : Reader (List Char)
  | c :: rest =>
    if c == 'e' || c == 'E' then do
      let (sign, rest) := splitSign rest
      let (run, rest) ← readDigits isDigit rest
      some ('e' :: sign ++ run, rest)
    else some ([], c :: rest)
  | [] => some ([], [])

def readPart : Reader (List Char)
  | '.' :: rest => (readDigits isDigit rest).map fun (run, rest) => ('.' :: run, rest)
  | rest => some ([], rest)

def inRange (i : Int) : Option Int :=
  if -0x8000000000000000 ≤ i ∧ i ≤ 0x7FFFFFFFFFFFFFFF then some i else none

/-- A decimal number. A float may be too large only downward. -/
def readDecimal (text : List Char) : Option (Scalar × List Char) := do
  let (sign, rest) := splitSign text
  let (whole, rest) ← readWhole rest
  let (part, rest) ← readPart rest
  let (exponent, rest) ← readExponent rest
  if part.isEmpty && exponent.isEmpty then
    let n : Int := natOfDigits whole
    return (.integer (← inRange (if sign = ['-'] then -n else n)), rest)
  else
    guard ((← Binary64.read (sign ++ whole ++ part ++ exponent)) ≠ .infinite false)
    return (.other, rest)

private def readBased (base : Nat) (text : List Char) : Option (Scalar × List Char) := do
  let (run, rest) ← readDigits (fun c => (hexValue? c).any (· < base)) text
  let n := run.foldl (fun n c => n * base + (hexValue? c).getD 0) 0
  return (.integer (← inRange n), rest)

/-- A number of exactly `count` digits within the bounds. -/
def readField (count low high : Nat) (text : List Char) : Option (Nat × List Char) := do
  let run := text.take count
  guard (run.length = count ∧ run.all isDigit)
  let n := natOfDigits run
  guard (low ≤ n ∧ n ≤ high)
  return (n, text.drop count)

def readMark (c : Char) : List Char → Option (List Char)
  | d :: rest => if c = d then some rest else none
  | [] => none

def readHour (text : List Char) : Option (List Char) := do
  readMark ':' (← readField 2 0 23 text).2

/-- What follows the hour of a time. -/
private def readMinutes (text : List Char) : Option (List Char) := do
  let rest ← readMark ':' (← readField 2 0 59 text).2
  let (_, rest) ← readField 2 0 60 rest
  match rest with
  | '.' :: part => if part.head?.any isDigit then some (part.dropWhile isDigit) else some rest
  | rest => some rest

private def readOffset : List Char → Option (List Char)
  | 'Z' :: rest | 'z' :: rest => some rest
  | '+' :: rest | '-' :: rest => do return (← readField 2 0 59 (← readHour rest)).2
  | rest => some rest

/-- A date from its month on, with or without a time. -/
private def readDate (year : Nat) (text : List Char) : Option (List Char) := do
  let (month, rest) ← readField 2 1 12 text
  let (_, rest) ← readField 2 1 (Time.Date.daysInMonth year month) (← readMark '-' rest)
  match rest with
  | mark :: time =>
    match if mark ∈ ['T', 't', ' '] then readHour time else none with
    | some minutes => readOffset (← readMinutes minutes)
    | none => some rest
  | [] => some []

def readWord (word : String) (text : List Char) : Option (Scalar × List Char) :=
  if word.toList.isPrefixOf text then some (.other, text.drop word.length) else none

/-- A number or a time. -/
def readNumber (text : List Char) : Option (Scalar × List Char) :=
  match (readField 4 0 9999 text).bind fun (year, rest) => (readMark '-' rest).map (year, ·) with
  | some (year, rest) => (readDate year rest).map (.time, ·)
  | none =>
    match readHour text with
    | some rest => (readMinutes rest).map (.time, ·)
    | none =>
      match text with
      | '0' :: 'x' :: rest => readBased 16 rest
      | '0' :: 'o' :: rest => readBased 8 rest
      | '0' :: 'b' :: rest => readBased 2 rest
      | text =>
        let unsigned := (splitSign text).2
        (readWord "inf" unsigned).or ((readWord "nan" unsigned).or (readDecimal text))

/-- Any value but an array or a table. -/
def readScalar (text : List Char) : Option (Scalar × List Char) :=
  match text with
  | '"' :: _ | '\'' :: _ => (readQuoted text).map fun (s, rest) => (.text (String.ofList s), rest)
  | 't' :: _ => readWord "true" text
  | 'f' :: _ => readWord "false" text
  | text => readNumber text

end ProxyMonitor.Toml
