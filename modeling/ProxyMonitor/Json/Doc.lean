import ProxyMonitor.Json.Token
import ProxyMonitor.Text.Utf8
/-! Documents as they are written: member order, repeated members and undecoded strings and numbers are
kept. `read` accepts exactly the grammar; limits and values are checked by whoever decodes a part. -/
namespace ProxyMonitor.Json

inductive Doc where
  | null
  | bool (b : Bool)
  | number (n : Literal)
  | text (s : List StringUnit)
  | array (items : List Doc)
  | object (members : List (List StringUnit × Doc))
deriving Repr, Inhabited

namespace Doc

/-- A container that is still open: what it holds so far, last first. A member waits for the value of its
key. -/
inductive Frame where
  | array (items : List Doc)
  | object (members : List (List StringUnit × Doc))
  | member (members : List (List StringUnit × Doc)) (key : List StringUnit)

/-- What may come next. -/
inductive Expecting where
  | value | itemOrClose | itemEnd | keyOrClose | key | colon | memberEnd
  | done (d : Doc)

structure Progress where
  expecting : Expecting
  stack : List Frame

/-- A value is complete: it goes into the innermost open container. -/
def Progress.complete (d : Doc) : List Frame → Progress
  | .array items :: stack => ⟨.itemEnd, .array (d :: items) :: stack⟩
  | .member members key :: stack => ⟨.memberEnd, .object ((key, d) :: members) :: stack⟩
  | stack => ⟨.done d, stack⟩

/-- A value begins with this token. -/
def Progress.begin (stack : List Frame) : Token → Option Progress
  | .null => some (complete .null stack)
  | .bool b => some (complete (.bool b) stack)
  | .number n => some (complete (.number n) stack)
  | .text s => some (complete (.text s) stack)
  | .openBracket => some ⟨.itemOrClose, .array [] :: stack⟩
  | .openBrace => some ⟨.keyOrClose, .object [] :: stack⟩
  | _ => none

def Progress.step (p : Progress) (token : Token) : Option Progress :=
  match p.expecting, token, p.stack with
  | .value, token, stack => begin stack token
  | .itemOrClose, .closeBracket, .array items :: stack => some (complete (.array items.reverse) stack)
  | .itemOrClose, token, stack => begin stack token
  | .itemEnd, .comma, stack => some ⟨.value, stack⟩
  | .itemEnd, .closeBracket, .array items :: stack => some (complete (.array items.reverse) stack)
  | .keyOrClose, .closeBrace, .object members :: stack => some (complete (.object members.reverse) stack)
  | .keyOrClose, .text key, .object members :: stack => some ⟨.colon, .member members key :: stack⟩
  | .key, .text key, .object members :: stack => some ⟨.colon, .member members key :: stack⟩
  | .colon, .colon, stack => some ⟨.value, stack⟩
  | .memberEnd, .comma, stack => some ⟨.key, stack⟩
  | .memberEnd, .closeBrace, .object members :: stack => some (complete (.object members.reverse) stack)
  | _, _, _ => none

def ofTokens? (tokens : List Token) : Option Doc :=
  match tokens.foldlM Progress.step ⟨.value, []⟩ with
  | some ⟨.done d, []⟩ => some d
  | _ => none

/-- The document that a body of bytes writes. -/
def read (body : List UInt8) : Option Doc :=
  (Token.scan (Text.Utf8.scan body)).bind ofTokens?

end Doc

/-- Decodes the characters of a string: surrogate codes must come in pairs. -/
def StringUnit.decode : List StringUnit → Option (List Char)
  | [] => some []
  | .plain c :: rest => do return (← c) :: (← decode rest)
  | .escaped c :: rest => do return c :: (← decode rest)
  | .code high :: .code low :: rest =>
    if 0xD800 ≤ high && high ≤ 0xDBFF then
      if 0xDC00 ≤ low && low ≤ 0xDFFF then do
        return Char.ofNat (0x10000 + (high - 0xD800) * 0x400 + (low - 0xDC00)) :: (← decode rest)
      else none
    else if 0xDC00 ≤ high && high ≤ 0xDFFF then none
    else do return Char.ofNat high :: (← decode (.code low :: rest))
  | .code n :: rest => if 0xD800 ≤ n && n ≤ 0xDFFF then none else do return Char.ofNat n :: (← decode rest)

end ProxyMonitor.Json
