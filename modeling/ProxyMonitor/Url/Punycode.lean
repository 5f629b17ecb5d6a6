/-! Punycode: the letters of a label outside ASCII as a suffix of ASCII ones. -/
namespace ProxyMonitor.Url.Punycode

private def base : Nat := 36
private def tMin : Nat := 1
private def tMax : Nat := 26

private def shrink : (fuel delta k : Nat) → Nat × Nat
  | 0, delta, k => (delta, k)
  | fuel + 1, delta, k =>
    if (base - tMin) * tMax / 2 < delta then shrink fuel (delta / (base - tMin)) (k + base) else (delta, k)

private def adapt (delta points : Nat) (first : Bool) : Nat :=
  let delta := if first then delta / 700 else delta / 2
  let (delta, k) := shrink 64 (delta + delta / points) 0
  k + (base - tMin + 1) * delta / (delta + 38)

private def threshold (k bias : Nat) : Nat :=
  if k ≤ bias then tMin else if bias + tMax ≤ k then tMax else k - bias

private def digit (n : Nat) : Char :=
  if n < 26 then Char.ofNat (97 + n) else Char.ofNat (22 + n)

private def digitValue? (c : Char) : Option Nat :=
  if 'a' ≤ c ∧ c ≤ 'z' then some (c.toNat - 97)
  else if 'A' ≤ c ∧ c ≤ 'Z' then some (c.toNat - 65)
  else if '0' ≤ c ∧ c ≤ '9' then some (c.toNat - 22)
  else none

/-- A number in digits of varying weight. -/
private def weighted : (fuel q k bias : Nat) → List Char
  | 0, _, _, _ => []
  | fuel + 1, q, k, bias =>
    let t := threshold k bias
    if q < t then [digit q]
    else digit (t + (q - t) % (base - t)) :: weighted fuel ((q - t) / (base - t)) (k + base) bias

private structure Encoder where
  delta : Nat
  bias : Nat
  handled : Nat
  out : List Char

/-- Passes over the label once for the code point `n`. -/
private def encodePoint (basic n : Nat) (label : List Char) (e : Encoder) : Encoder :=
  let e := label.foldl (fun e c =>
    if c.toNat < n then { e with delta := e.delta + 1 }
    else if c.toNat = n then
      { delta := 0, bias := adapt e.delta (e.handled + 1) (e.handled == basic), handled := e.handled + 1,
        out := e.out ++ weighted 64 e.delta base e.bias }
    else e) e
  { e with delta := e.delta + 1 }

private def encodeFrom (basic : Nat) (label : List Char) : (fuel n : Nat) → Encoder → List Char
  | 0, _, e => e.out
  | fuel + 1, n, e =>
    match (label.filter (n ≤ ·.toNat)).map Char.toNat |>.min? with
    | none => e.out
    | some m =>
      encodeFrom basic label fuel (m + 1)
        (encodePoint basic m label { e with delta := e.delta + (m - n) * (e.handled + 1) })

/-- The suffix and the ASCII letters before it. -/
def encode (label : List Char) : List Char :=
  let basic := label.filter (·.toNat < 128)
  let start := if basic.isEmpty then [] else basic ++ ['-']
  encodeFrom basic.length label label.length 128 ⟨0, 72, basic.length, start⟩

private def decodeNumber (bias : Nat) : (input : List Char) → (k weight i : Nat) → Option (Nat × List Char)
  | [], _, _, _ => none
  | c :: rest, k, weight, i => do
    let d ← digitValue? c
    let i := i + d * weight
    let t := threshold k bias
    if 0x100000000 ≤ i then none
    else if d < t then some (i, rest)
    else decodeNumber bias rest (k + base) (weight * (base - t)) i

private def decodeFrom : (fuel : Nat) → (input : List Char) → (n i bias : Nat) → List Char → Option (List Char)
  | 0, _, _, _, _, _ => none
  | _ + 1, [], _, _, _, out => some out
  | fuel + 1, input, n, i, bias, out => do
    let (j, rest) ← decodeNumber bias input base 1 i
    let count := out.length + 1
    let n := n + j / count
    guard (n.isValidChar)
    let place := j % count
    decodeFrom fuel rest n (place + 1) (adapt (j - i) count (i == 0))
      (out.take place ++ Char.ofNat n :: out.drop place)

/-- The label that a text encodes. -/
def decode? (text : List Char) : Option (List Char) :=
  let suffix := (text.reverse.takeWhile (· != '-')).reverse
  let basic := (text.take (text.length - suffix.length)).dropLast
  if basic.all (·.toNat < 128) then decodeFrom (suffix.length + 1) suffix 128 0 72 basic else none

end ProxyMonitor.Url.Punycode
