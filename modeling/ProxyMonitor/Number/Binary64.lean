/-! Double precision numbers as exact values. A finite number is `m * 2 ^ e` with a sign, kept in the one
form with `m < 2 ^ 53` and, above the least exponent, `2 ^ 52 ≤ m`; every operation rounds its exact
result to the nearest such value, ties to even. -/
namespace ProxyMonitor

inductive Binary64 where
  | finite (negative : Bool) (m : Nat) (e : Int)
  | infinite (negative : Bool)
  | nan
deriving DecidableEq, Repr, Inhabited

namespace Binary64

def minExponent : Int := -1074

def maxExponent : Int := 971

def zero (negative : Bool := false) : Binary64 :=
  .finite negative 0 minExponent

/-- `n / d * 2 ^ -e` as a numerator and a denominator. -/
private def scaled (n d : Nat) (e : Int) : Nat × Nat :=
  if 0 ≤ e then (n, d <<< e.toNat) else (n <<< (-e).toNat, d)

/-- `n / d` to the nearest whole number, a half to the even one. -/
def roundDiv (n d : Nat) : Nat :=
  let q := n / d
  let twice := 2 * (n % d)
  if twice < d || (twice == d && q % 2 == 0) then q else q + 1

/-- The exponent that leaves the quotient of `n` and `d` with 53 binary digits, or the least one. -/
private def fittingExponent (n d : Nat) : Int :=
  let e : Int := (n.log2 : Int) - d.log2 - 53
  let (a, b) := scaled n d e
  max minExponent (if a / b < 1 <<< 53 then e else e + 1)

/-- The double nearest to `n / d`. -/
def ofRatio (negative : Bool) (n d : Nat) : Binary64 :=
  if n = 0 then zero negative else
  let e := fittingExponent n d
  let (a, b) := scaled n d e
  let m := roundDiv a b
  let (m, e) := if m = 1 <<< 53 then (1 <<< 52, e + 1) else (m, e)
  if e > maxExponent then .infinite negative else .finite negative m e

def ofNat (n : Nat) : Binary64 :=
  ofRatio false n 1

def ofInt (i : Int) : Binary64 :=
  ofRatio (i < 0) i.natAbs 1

/-- The double nearest to `n * 10 ^ e`. -/
def ofDecimal (negative : Bool) (n : Nat) (e : Int) : Binary64 :=
  if 0 ≤ e then ofRatio negative (n * Nat.pow 10 e.toNat) 1 else ofRatio negative n (Nat.pow 10 (-e).toNat)

/-- The magnitude of `m * 2 ^ e` as a numerator and a denominator. -/
def ratio (m : Nat) (e : Int) : Nat × Nat :=
  if 0 ≤ e then (m <<< e.toNat, 1) else (m, 1 <<< (-e).toNat)

def neg : Binary64 → Binary64
  | .finite s m e => .finite (!s) m e
  | .infinite s => .infinite (!s)
  | .nan => .nan

def mul : Binary64 → Binary64 → Binary64
  | .finite s m e, .finite t n f =>
    let (a, b) := ratio m e
    let (c, d) := ratio n f
    ofRatio (s != t) (a * c) (b * d)
  | .infinite s, .finite t n _ => if n = 0 then .nan else .infinite (s != t)
  | .finite s m _, .infinite t => if m = 0 then .nan else .infinite (s != t)
  | .infinite s, .infinite t => .infinite (s != t)
  | .nan, _ | _, .nan => .nan

def div : Binary64 → Binary64 → Binary64
  | .finite s m e, .finite t n f =>
    if n = 0 then if m = 0 then .nan else .infinite (s != t) else
    let (a, b) := ratio m e
    let (c, d) := ratio n f
    ofRatio (s != t) (a * d) (b * c)
  | .infinite s, .finite t _ _ => .infinite (s != t)
  | .finite s _ _, .infinite t => zero (s != t)
  | .infinite _, .infinite _ => .nan
  | .nan, _ | _, .nan => .nan

def isZero : Binary64 → Bool
  | .finite _ m _ => m == 0
  | _ => false

def isInfinite : Binary64 → Bool
  | .infinite _ => true
  | _ => false

/-- Whether a number is at least the whole number `n`. -/
def atLeast (n : Nat) : Binary64 → Bool
  | .finite s m e =>
    let (a, b) := ratio m e
    if s then a == 0 && n == 0 else n * b ≤ a
  | .infinite s => !s
  | .nan => false

end Binary64
end ProxyMonitor
