import ProxyMonitor.Text.Utf8
import ProxyMonitor.Url.Punycode
/-! Names of hosts in ASCII: letters are lowered, letters outside ASCII are encoded label by label, and
characters that no name may hold are refused. -/
namespace ProxyMonitor.Url.Domain

/-- Characters that no name holds. -/
def isForbidden (c : Char) : Bool :=
  c.toNat ≤ 0x20 || c.toNat == 0x7F ||
    c ∈ ['%', '#', '/', ':', '<', '>', '?', '@', '[', '\\', ']', '^', '|']

private def isEven (n : Nat) : Bool :=
  n % 2 == 0

/-- The lower-case form of a letter of the Latin, Greek and Cyrillic blocks. -/
private def lowerCode (n : Nat) : Nat :=
  if (0x41 ≤ n && n ≤ 0x5A) || (0xC0 ≤ n && n ≤ 0xDE && n != 0xD7) ||
    (0x391 ≤ n && n ≤ 0x3AB && n != 0x3A2) || (0x410 ≤ n && n ≤ 0x42F) then n + 32
  else if 0x400 ≤ n && n ≤ 0x40F then n + 80
  else if n == 0x178 then 0xFF
  else if (0x100 ≤ n && n ≤ 0x137 && isEven n) || (0x139 ≤ n && n ≤ 0x148 && !isEven n) ||
    (0x14A ≤ n && n ≤ 0x177 && isEven n) || n == 0x179 || n == 0x17B || n == 0x17D ||
    (0x460 ≤ n && n ≤ 0x481 && isEven n) || (0x48A ≤ n && n ≤ 0x4BF && isEven n) ||
    (0x1E00 ≤ n && n ≤ 0x1E95 && isEven n) || (0x1EA0 ≤ n && n ≤ 0x1EFF && isEven n) then n + 1
  else n

private def isIgnored (n : Nat) : Bool :=
  n == 0xAD || n == 0x200B || n == 0x2060 || n == 0xFEFF || (0xFE00 ≤ n && n ≤ 0xFE0F)

/-- Control characters, private and unassigned code points, and separators. -/
private def isDisallowed (n : Nat) : Bool :=
  (0x80 ≤ n && n ≤ 0xA0) || n == 0x1680 || (0x2000 ≤ n && n ≤ 0x200A) || (0x200E ≤ n && n ≤ 0x200F) ||
    (0x2028 ≤ n && n ≤ 0x202F) || (0x205F ≤ n && n ≤ 0x206F && n != 0x2060) || n == 0x3000 ||
    (0xE000 ≤ n && n ≤ 0xF8FF) || (0xFFF9 ≤ n && n ≤ 0xFFFF) || 0xE0000 ≤ n

/-- What a character of a name stands for. -/
private def mapped (c : Char) : Option (List Char) :=
  let n := c.toNat
  if n < 128 then some [c.toLower]
  else if n == 0x3002 || n == 0xFF0E || n == 0xFF61 then some ['.']
  else if isIgnored n then some []
  else if isDisallowed n then none
  else if 0xFF01 ≤ n && n ≤ 0xFF5E then some [(Char.ofNat (n - 0xFEE0)).toLower]
  else some [Char.ofNat (lowerCode n)]

private def label? (label : List Char) : Option (List Char) :=
  if "xn--".toList.isPrefixOf label then
    match Punycode.decode? (label.drop 4) with
    | some decoded => if decoded.any (128 ≤ ·.toNat) then some label else none
    | none => none
  else if label.all (·.toNat < 128) then some label
  else some ("xn--".toList ++ Punycode.encode label)

/-- The name in ASCII. -/
def toAscii? (name : List Char) : Option (List Char) := do
  let letters := (← name.mapM mapped).flatten
  if letters.any isForbidden then none else return ['.'].intercalate (← (letters.splitOn '.').mapM label?)

end ProxyMonitor.Url.Domain
