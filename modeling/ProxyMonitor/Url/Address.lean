import ProxyMonitor.Text.Blank
/-! Numeric hosts: the number forms of IPv4 addresses, and IPv6 addresses with their shortest text. -/
namespace ProxyMonitor.Url
open ProxyMonitor.Text

namespace Ipv4

private def value (radix : Nat) (text : List Char) : Option Nat :=
  text.foldlM (fun n c => do
    let d ← hexValue? c
    if d < radix then some (n * radix + d) else none) 0

/-- A part of an address: hexadecimal after `0x`, octal after `0`, else decimal. -/
def part? : List Char → Option Nat
  | [] => none
  | '0' :: 'x' :: rest | '0' :: 'X' :: rest => value 16 rest
  | '0' :: c :: rest => value 8 (c :: rest)
  | text => value 10 text

/-- Whether the last part of a host is a number, so that the host can only be an address. -/
def endsInNumber (host : List Char) : Bool :=
  let last := match (host.splitOn '.').reverse with
    | [] :: rest => rest.head?
    | parts => parts.head?
  match last with
  | none => false
  | some text => (!text.isEmpty && text.all isDigit) || (part? text).isSome

/-- The address that up to four parts name; the last part fills the bytes that are left. -/
def read (host : List Char) : Option Nat := do
  let parts := host.splitOn '.'
  let parts := if parts.getLast? = some [] then parts.dropLast else parts
  guard (parts.length ≤ 4)
  let numbers ← parts.mapM part?
  let last ← numbers.getLast?
  let leading := numbers.dropLast
  guard (last < 1 <<< (8 * (4 - leading.length)) && leading.all (· < 256))
  return (leading.zipIdx.map fun (n, i) => n <<< (8 * (3 - i))).foldl (· + ·) last

def write (address : Nat) : List Char :=
  digits (address >>> 24) ++ '.' :: digits ((address >>> 16) % 256) ++ '.' ::
    digits ((address >>> 8) % 256) ++ '.' :: digits (address % 256)

end Ipv4

namespace Ipv6

/-- The numbers of an address read so far, last first, and how many of them stand before a gap. -/
structure Progress where
  pieces : List Nat := []
  gap : Option Nat := none

/-- The pieces that are spoken for: a gap stands for at least one. -/
def Progress.count (p : Progress) : Nat :=
  p.pieces.length + if p.gap.isSome then 1 else 0

private def hexRun (text : List Char) : List Char :=
  (text.take 4).takeWhile fun c => (hexValue? c).isSome

private def hexNumber (run : List Char) : Nat :=
  run.foldl (fun n c => n * 16 + (hexValue? c).getD 0) 0

/-- A number from 0 to 255 without a leading zero. -/
private def byte? (text : List Char) : Option Nat := do
  guard (!text.isEmpty && text.all isDigit && text.length ≤ 3 && (text.length == 1 || text.head? != some '0'))
  let n := natOfDigits text
  if n < 256 then some n else none

/-- The two pieces that a trailing IPv4 address fills. -/
private def embedded? (text : List Char) : Option (Nat × Nat) := do
  match ← (text.splitOn '.').mapM byte? with
  | [a, b, c, d] => some (a * 256 + b, c * 256 + d)
  | _ => none

private def pieces (p : Progress) : (fuel : Nat) → List Char → Option Progress
  | 0, _ => none
  | _ + 1, [] => some p
  | fuel + 1, text =>
    if p.count = 8 then none else
    match text with
    | ':' :: rest =>
      if p.gap.isSome then none else pieces { p with gap := some p.pieces.length } fuel rest
    | text =>
      let run := hexRun text
      match text.drop run.length with
      | '.' :: _ =>
        if run.isEmpty || 6 < p.count then none else
        (embedded? text).map fun (a, b) => { p with pieces := b :: a :: p.pieces }
      | [] => some { p with pieces := hexNumber run :: p.pieces }
      | [':'] => none
      | ':' :: rest =>
        if run.isEmpty then none else pieces { p with pieces := hexNumber run :: p.pieces } fuel rest
      | _ => none

/-- The eight pieces of an address; `::` stands for the zeros that are left out. -/
def read (text : List Char) : Option (List Nat) := do
  let start ← match text with
    | ':' :: ':' :: rest => some (({ gap := some 0 } : Progress), rest)
    | ':' :: _ => none
    | text => some ({}, text)
  let p ← pieces start.1 (start.2.length + 1) start.2
  let given := p.pieces.reverse
  match p.gap with
  | some gap => some (given.take gap ++ List.replicate (8 - given.length) 0 ++ given.drop gap)
  | none => if given.length = 8 then some given else none

/-- The start and length of the longest run of at least two zeros, the first of several. -/
private def longestZeros (pieces : List Nat) : Option (Nat × Nat) :=
  let runs := (List.range pieces.length).map fun i => (i, ((pieces.drop i).takeWhile (· == 0)).length)
  let best := runs.foldl (fun best run => if best.2 < run.2 then run else best) (0, 1)
  if 2 ≤ best.2 then some best else none

private def joined (pieces : List Nat) : List Char :=
  [':'].intercalate (pieces.map (Nat.toDigits 16))

def write (pieces : List Nat) : List Char :=
  match longestZeros pieces with
  | none => joined pieces
  | some (start, length) =>
    joined (pieces.take start) ++ ':' :: ':' :: joined (pieces.drop (start + length))

end Ipv6
end ProxyMonitor.Url
