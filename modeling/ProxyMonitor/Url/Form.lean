import ProxyMonitor.Url.Percent
/-! Form encoding of ordered pairs: a blank is written `+`, and only letters, digits and `*-._` stand for
themselves. -/
namespace ProxyMonitor.Url.Form
open ProxyMonitor.Text

abbrev Pairs := List (String × String)

def isPlain (c : Char) : Bool :=
  c.isAlphanum || c ∈ ['*', '-', '.', '_']

def encodeChar (c : Char) : List Char :=
  if c == ' ' then ['+'] else Percent.encodeChar (fun c => !isPlain c) c

def encode (text : List Char) : List Char :=
  text.flatMap encodeChar

def encodePair (pair : String × String) : List Char :=
  encode pair.1.toList ++ '=' :: encode pair.2.toList

/-- The text of a list of pairs. -/
def write (pairs : Pairs) : List Char :=
  ['&'].intercalate (pairs.map encodePair)

def decodePart (text : List Char) : String :=
  String.ofList (Utf8.decodeLossy (Percent.decode (text.map fun c => if c == '+' then ' ' else c)))

def decodePair (text : List Char) : String × String :=
  (decodePart (text.takeWhile (· != '=')), decodePart ((text.dropWhile (· != '=')).drop 1))

/-- The pairs that a text lists; empty parts between ampersands are skipped, and a part without `=` has an
empty value. -/
def read (text : List Char) : Pairs :=
  ((text.splitOn '&').filter (! ·.isEmpty)).map decodePair

end ProxyMonitor.Url.Form
