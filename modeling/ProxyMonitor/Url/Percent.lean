import ProxyMonitor.Text.Blank
import ProxyMonitor.Text.Utf8
/-! Percent escapes: every byte of a character outside ASCII or in the given set becomes `%` and two
upper-case hexadecimal digits. The sets are those of the URL standard. -/
namespace ProxyMonitor.Url.Percent
open ProxyMonitor.Text

def escape (b : UInt8) : List Char :=
  ['%', hexDigit 'A' (b.toNat / 16), hexDigit 'A' (b.toNat % 16)]

def encodeChar (set : Char → Bool) (c : Char) : List Char :=
  if 0x80 ≤ c.toNat || set c then (String.utf8EncodeChar c).flatMap escape else [c]

def encode (set : Char → Bool) (text : List Char) : List Char :=
  text.flatMap (encodeChar set)

/-- The bytes of a text in which a complete escape stands for its byte. -/
def decode : List Char → List UInt8
  | '%' :: a :: b :: rest =>
    match hexValue? a, hexValue? b with
    | some high, some low => UInt8.ofNat (high * 16 + low) :: decode rest
    | _, _ => 0x25 :: decode (a :: b :: rest)
  | c :: rest => String.utf8EncodeChar c ++ decode rest
  | [] => []

def controls (c : Char) : Bool :=
  c.toNat < 0x20 || c.toNat == 0x7F

def fragment (c : Char) : Bool :=
  controls c || c ∈ [' ', '"', '<', '>', '\x60']

def path (c : Char) : Bool :=
  fragment c || c ∈ ['#', '?', '\x7b', '\x7d']

def pathSegment (c : Char) : Bool :=
  path c || c ∈ ['/', '%']

def specialPathSegment (c : Char) : Bool :=
  pathSegment c || c == '\\'

def query (c : Char) : Bool :=
  controls c || c ∈ [' ', '"', '#', '<', '>']

def specialQuery (c : Char) : Bool :=
  query c || c == '\''

def userinfo (c : Char) : Bool :=
  path c || c ∈ ['/', ':', ';', '=', '@', '[', '\\', ']', '^', '|']

end ProxyMonitor.Url.Percent
