/-! White space and letter case. `isBlank` is the White_Space property; the case maps touch ASCII only. -/
namespace ProxyMonitor.Text

/-- Unicode's White_Space. -/
def isBlank (c : Char) : Bool :=
  let n := c.toNat
  (9 ≤ n && n ≤ 13) || n == 0x20 || n == 0x85 || n == 0xA0 || n == 0x1680 ||
    (0x2000 ≤ n && n ≤ 0x200A) || n == 0x2028 || n == 0x2029 || n == 0x202F || n == 0x205F || n == 0x3000

def trimStart (text : List Char) (drop : Char → Bool := isBlank) : List Char :=
  text.dropWhile drop

def trimEnd (text : List Char) (drop : Char → Bool := isBlank) : List Char :=
  (text.reverse.dropWhile drop).reverse

/-- Both ends without the characters that `drop` names. -/
def trim (text : List Char) (drop : Char → Bool := isBlank) : List Char :=
  trimEnd (trimStart text drop) drop

def trimmed (text : String) : String :=
  String.ofList (trim text.toList)

def isDigit (c : Char) : Bool :=
  '0' ≤ c && c ≤ '9'

def digitValue (c : Char) : Nat :=
  c.toNat - 48

/-- The value of a hexadecimal digit of either case. -/
def hexValue? (c : Char) : Option Nat :=
  if isDigit c then some (c.toNat - 48)
  else if 'a' ≤ c && c ≤ 'f' then some (c.toNat - 87)
  else if 'A' ≤ c && c ≤ 'F' then some (c.toNat - 55)
  else none

/-- The hexadecimal digit of a number below sixteen. Those from ten on are letters, the first of them `ten`. -/
def hexDigit (ten : Char) (n : Nat) : Char :=
  if n < 10 then Char.ofNat (48 + n) else Char.ofNat (ten.toNat + (n - 10))

theorem hexValue?_hexDigit :
    ∀ n < 16, hexValue? (hexDigit 'a' n) = some n ∧ hexValue? (hexDigit 'A' n) = some n := by
  decide

/-- A number's digits in base ten. -/
def digits (n : Nat) : List Char :=
  Nat.toDigits 10 n

/-- The number that a run of decimal digits writes. -/
def natOfDigits (text : List Char) : Nat :=
  text.foldl (fun n c => n * 10 + digitValue c) 0

/-- A number written with at least `width` digits. -/
def padded (width n : Nat) : List Char :=
  let text := digits n
  List.replicate (width - text.length) '0' ++ text

end ProxyMonitor.Text
