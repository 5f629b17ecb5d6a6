import ProxyMonitor.Json.Token
import ProxyMonitor.Number.Binary64
/-! The values of numbers in a document. Whole numbers of 64 bits are exact. Any other number is read as a
double: at most the first digits that fit into 64 bits count, and their power of ten is applied in double
arithmetic, so that the last bit may differ from the nearest double. -/
namespace ProxyMonitor.Json
open ProxyMonitor.Text

def maxNatural : Nat := 0xFFFFFFFFFFFFFFFF

def maxInteger : Int := 0x7FFFFFFFFFFFFFFF

def minInteger : Int := -0x8000000000000000

inductive Number where
  | natural (n : Nat)
  | integer (i : Int)
  | double (d : Binary64)
deriving DecidableEq, Repr

namespace Number

/-- Takes digits as long as the number stays within 64 bits: the number, and the digits left over. -/
def takeDigits : (acc : Nat) → List Char → Nat × List Char
  | acc, [] => (acc, [])
  | acc, c :: rest =>
    let next := acc * 10 + digitValue c
    if maxNatural < next then (acc, c :: rest) else takeDigits next rest

/-- The double power of ten that a number is scaled by; the table ends at the largest finite power. -/
private def powerOfTen (e : Nat) : Binary64 :=
  Binary64.ofNat (Nat.pow 10 e)

/-- Divides by powers of ten, by the largest one as long as more is left; three steps reach zero from any
64 bit number. -/
private def scaleDown (x : Binary64) : (steps e : Nat) → Binary64
  | 0, _ => x
  | steps + 1, e =>
    if e ≤ 308 then x.div (powerOfTen e)
    else if x.isZero then x
    else scaleDown (x.div (powerOfTen 308)) steps (e - 308)

/-- `significand * 10 ^ e`, unless it is too large. -/
private def scale (significand : Nat) (e : Int) : Option Binary64 :=
  let x := Binary64.ofNat significand
  if e < 0 then some (scaleDown x 3 e.natAbs)
  else if x.isZero then some x
  else if 308 < e then none
  else
    let y := x.mul (powerOfTen e.toNat)
    if y.isInfinite then none else some y

private def maxExponent : Nat := 0x7FFFFFFF

private def toDouble (n : Literal) : Option Binary64 := do
  let (whole, unread) := takeDigits 0 n.whole
  let (significand, unreadPart) := takeDigits whole n.part
  let shift : Int := (unread.length : Int) - (n.part.length - unreadPart.length : Nat)
  let x ← match n.exponent with
    | none => scale significand shift
    | some (downward, run) =>
      let e := natOfDigits run
      if maxExponent < e then
        if significand ≠ 0 ∧ !downward then none else some (Binary64.zero)
      else scale significand (shift + if downward then -(e : Int) else e)
  return if n.negative then x.neg else x

/-- The value of a number, unless it is too large for a double. -/
def ofLiteral (n : Literal) : Option Number :=
  let whole := natOfDigits n.whole
  if n.part = [] ∧ n.exponent = none ∧ whole ≤ maxNatural then
    if !n.negative then some (.natural whole)
    else if whole = 0 ∨ 0x8000000000000000 < whole then some (.double (Binary64.ofNat whole).neg)
    else some (.integer (-whole))
  else (toDouble n).map .double

def asDouble : Number → Binary64
  | .natural n => Binary64.ofNat n
  | .integer i => Binary64.ofInt i
  | .double d => d

end Number
end ProxyMonitor.Json
