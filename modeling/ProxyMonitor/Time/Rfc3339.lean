import ProxyMonitor.Text.Blank
import ProxyMonitor.Time.Instant
/-! The text form of instants: RFC 3339 as it is written, and with blanks, short fields, signed years and
zone spellings beside it as it is read. -/
namespace ProxyMonitor.Time.Rfc3339
open ProxyMonitor.Text

abbrev Rest := List Char

/-- A number of one to `most` digits. -/
def number (most : Nat) (text : Rest) : Option (Nat × Rest) :=
  let run := (text.take most).takeWhile isDigit
  if run.isEmpty then none else some (natOfDigits run, text.drop run.length)

/-- A number after blanks, no larger than a signed word holds. -/
def field (most : Nat) (text : Rest) : Option (Nat × Rest) :=
  number most (trimStart text)

/-- A year: four digits at most, or any number after a sign. -/
def year (text : Rest) : Option (Int × Rest) := do
  let text := trimStart text
  let (value, rest) ← match text with
    | '-' :: rest => (number rest.length rest).map fun (n, rest) => (-(n : Int), rest)
    | '+' :: rest => (number rest.length rest).map fun (n, rest) => ((n : Int), rest)
    | text => (number 4 text).map fun (n, rest) => ((n : Int), rest)
  return (value, rest)

/-- The character `c` after blanks. -/
def mark (c : Char) (text : Rest) : Option Rest :=
  match trimStart text with
  | d :: rest => if c = d then some rest else none
  | [] => none

/-- Nanoseconds after a point: nine digits count and further ones are skipped. -/
def nanoseconds : Rest → Option (Nat × Rest)
  | '.' :: rest =>
    let run := rest.takeWhile isDigit
    let kept := run.take 9
    if run.isEmpty then none
    else some (natOfDigits kept * Nat.pow 10 (9 - kept.length), rest.drop run.length)
  | text => some (0, text)

def digitPair (text : Rest) : Option (Nat × Rest) :=
  match text with
  | a :: b :: rest => if isDigit a && isDigit b then some (digitValue a * 10 + digitValue b, rest) else none
  | _ => none

/-- Minutes east of the zero meridian. -/
def offset (text : Rest) : Option (Int × Rest) :=
  match trimStart text with
  | u :: t :: c :: rest =>
    if u.toUpper = 'U' ∧ t.toUpper = 'T' ∧ c.toUpper = 'C' then some (0, rest) else zone (u :: t :: c :: rest)
  | text => zone text
where
  zone : Rest → Option (Int × Rest)
    | 'Z' :: rest | 'z' :: rest => some (0, rest)
    | '+' :: rest => distance rest
    | '-' :: rest | '−' :: rest => (distance rest).map fun (minutes, rest) => (-minutes, rest)
    | _ => none
  distance (text : Rest) : Option (Int × Rest) := do
    let (hours, rest) ← digitPair text
    let (minutes, rest) ← digitPair (trimStart rest fun c => c == ':' || isBlank c)
    if minutes < 60 && hours < 24 then some (hours * 60 + minutes, rest) else none

/-- The instant that a text names. -/
def read (text : List Char) : Option Instant := do
  let (year, rest) ← year text
  let rest ← mark '-' rest
  let (month, rest) ← field 2 rest
  let rest ← mark '-' rest
  let (day, rest) ← field 2 rest
  let rest ← match rest with
    | c :: rest => if c == 't' || c == 'T' || c == ' ' then some rest else none
    | [] => none
  let (hour, rest) ← field 2 rest
  let rest ← mark ':' rest
  let (minute, rest) ← field 2 rest
  let rest ← mark ':' rest
  let (second, rest) ← field 2 rest
  let (nanos, rest) ← nanoseconds rest
  let (minutes, rest) ← offset rest
  guard ((trimStart rest).isEmpty)
  let date : Date := ⟨year, month, day⟩
  guard (date.isValid && hour < 24 && minute < 60 && second ≤ 60)
  let leap : Nat := if second = 60 then 1 else 0
  let t : Instant :=
    ⟨date.toDays * Instant.secondsPerDay + hour * 3600 + minute * 60 + second - leap - minutes * 60,
      nanos + leap * Instant.billion⟩
  guard t.inRange
  return t

def yearText (year : Int) : List Char :=
  if 0 ≤ year ∧ year ≤ 9999 then padded 4 year.toNat
  else (if year < 0 then '-' else '+') :: padded 4 year.natAbs

def fractionText (nanos : Nat) : List Char :=
  if nanos = 0 then []
  else if nanos % 1000000 = 0 then '.' :: padded 3 (nanos / 1000000)
  else if nanos % 1000 = 0 then '.' :: padded 6 (nanos / 1000)
  else '.' :: padded 9 nanos

/-- The text of an instant, with as few of three, six or nine places as it needs. -/
def write (t : Instant) : List Char :=
  let date := Date.ofDays (t.seconds.fdiv Instant.secondsPerDay)
  let second := t.secondOfDay.toNat
  let leap := if Instant.billion ≤ t.nanos then 1 else 0
  yearText date.year ++ '-' :: padded 2 date.month ++ '-' :: padded 2 date.day ++ 'T' ::
    padded 2 (second / 3600) ++ ':' :: padded 2 (second / 60 % 60) ++ ':' ::
    padded 2 (second % 60 + leap) ++ fractionText (t.nanos - leap * Instant.billion) ++ ['Z']

end ProxyMonitor.Time.Rfc3339
