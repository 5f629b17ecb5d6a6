import ProxyMonitor.Number.Binary64
import ProxyMonitor.Text.Blank
/-! Decimal text of doubles: the fewest digits that read back, or a fixed number of places of the exact
value with a half going to the even neighbour. -/
namespace ProxyMonitor.Binary64
open ProxyMonitor.Text

/-- `⌊log10 (n / d)⌋ + 1` for a ratio of at least `10 ^ -400`. -/
private def magnitude (n d : Nat) : Int :=
  (digits (n * Nat.pow 10 400 / d)).length - 400

/-- The reals that round to `m * 2 ^ e`: the ends in quarters of a unit, with the exponent of a quarter. -/
private def interval (m : Nat) (e : Int) : Nat × Nat × Int :=
  if m = 1 <<< 52 ∧ minExponent < e then (4 * m - 1, 4 * m + 2, e - 2) else (4 * m - 2, 4 * m + 2, e - 2)

private structure Candidate where
  digits : Nat
  exponent : Int

/-- The point of the grid with `count` digits that is nearest to `m * 2 ^ e` among those that read back. -/
private def onGrid (m : Nat) (e : Int) (count : Nat) : Option Candidate :=
  let (n, d) := ratio m e
  let power := magnitude n d - count
  let (gn, gd) := if 0 ≤ power then (Nat.pow 10 power.toNat, 1) else (1, Nat.pow 10 (-power).toNat)
  let below := n * gd / (d * gn)
  let (low, high, q) := interval m e
  let (ln, ld) := ratio low q
  let (hn, hd) := ratio high q
  let closed := m % 2 == 0
  -- `k` grid units against the ends
  let aboveLow := fun k => if closed then ln * gd ≤ k * gn * ld else ln * gd < k * gn * ld
  let belowHigh := fun k => if closed then k * gn * hd ≤ hn * gd else k * gn * hd < hn * gd
  -- the distances to the two neighbours
  let down := n * gd - below * (d * gn)
  let up := (below + 1) * (d * gn) - n * gd
  let lowHit := aboveLow below && below != 0
  let highHit := belowHigh (below + 1)
  if lowHit && highHit then
    some ⟨if down < up || (down == up && below % 2 == 0) then below else below + 1, power⟩
  else if lowHit then some ⟨below, power⟩
  else if highHit then some ⟨below + 1, power⟩
  else none

private def firstOnGrid (m : Nat) (e : Int) : (fuel count : Nat) → Candidate
  | 0, _ => ⟨m, e⟩
  | fuel + 1, count => (onGrid m e count).getD (firstOnGrid m e fuel (count + 1))

/-- The fewest decimal digits that read back as `m * 2 ^ e`, without trailing zeros, and their power of
ten. -/
def shortest (m : Nat) (e : Int) : List Char × Int :=
  if m = 0 then (['0'], 0) else
  let hit := firstOnGrid m e 17 1
  let text := digits hit.digits
  let kept := trimEnd text (· == '0')
  (kept, hit.exponent + (text.length - kept.length : Nat))

private def zeros (n : Int) : List Char :=
  List.replicate n.toNat '0'

/-- Digits times a power of ten without an exponent. -/
private def positional (text : List Char) (power : Int) : List Char × List Char :=
  let point : Int := text.length + power
  if 0 ≤ power then (text ++ zeros power, [])
  else if 0 < point then (text.take point.toNat, text.drop point.toNat)
  else (['0'], zeros (-point) ++ text)

private def signed (negative : Bool) (text : List Char) : List Char :=
  if negative then '-' :: text else text

/-- Plain decimal text, never with an exponent; whole numbers have no point. -/
def plain : Binary64 → List Char
  | .nan => "NaN".toList
  | .infinite s => signed s "inf".toList
  | .finite s m e =>
    let (text, power) := shortest m e
    match positional text power with
    | (whole, []) => signed s whole
    | (whole, part) => signed s (whole ++ '.' :: part)

/-- The text of a number in a document: plain with at least one place from `1e-5` up to below `1e16`, else
with an exponent. What is not finite is `null`. -/
def scientific : Binary64 → List Char
  | .nan | .infinite _ => "null".toList
  | .finite s m e =>
    let (text, power) := shortest m e
    let point : Int := text.length + power
    if m = 0 || (-4 ≤ point && point ≤ 16) then
      match positional text power with
      | (whole, []) => signed s (whole ++ ".0".toList)
      | (whole, part) => signed s (whole ++ '.' :: part)
    else
      let mark := if 0 < point then "e+".toList else "e-".toList
      let body := match text with
        | [d] => [d]
        | d :: rest => d :: '.' :: rest
        | [] => []
      signed s (body ++ mark ++ digits (point - 1).natAbs)

/-- The exact value to `places` decimal places, a half to the even neighbour. -/
def fixed (places : Nat) : Binary64 → List Char
  | .nan => "NaN".toList
  | .infinite s => signed s "inf".toList
  | .finite s m e =>
    let (n, d) := ratio m e
    let text := padded (places + 1) (roundDiv (n * Nat.pow 10 places) d)
    let whole := text.take (text.length - places)
    signed s (if places = 0 then whole else whole ++ '.' :: text.drop (text.length - places))

/-- Digits with an optional point and exponent: the digits as a number, and its power of ten. -/
private def readDecimal (text : List Char) : Option (Nat × Int) := do
  let whole := text.takeWhile isDigit
  let rest := text.drop whole.length
  let part := match rest with
    | '.' :: rest => rest.takeWhile isDigit
    | _ => []
  let rest := match rest with
    | '.' :: rest => rest.drop part.length
    | rest => rest
  guard (!(whole.isEmpty && part.isEmpty))
  let power ← match rest with
    | [] => some 0
    | mark :: rest =>
      guard (mark == 'e' || mark == 'E')
      let (downward, run) := match rest with
        | '-' :: run => (true, run)
        | '+' :: run => (false, run)
        | run => (false, run)
      guard (!run.isEmpty && run.all isDigit)
      -- beyond this every number is zero or infinite
      let e := min (natOfDigits run) (text.length + 10000)
      some (if downward then -(e : Int) else e)
  return (natOfDigits (whole ++ part), power - part.length)

/-- Reads decimal text, and the names of what is not finite in any letter case. -/
def read (text : List Char) : Option Binary64 :=
  let (negative, text) := match text with
    | '-' :: rest => (true, rest)
    | '+' :: rest => (false, rest)
    | text => (false, text)
  match String.ofList (text.map Char.toLower) with
  | "inf" | "infinity" => some (.infinite negative)
  | "nan" => some .nan
  | _ => (readDecimal text).map fun (n, e) => ofDecimal negative n e

end ProxyMonitor.Binary64
