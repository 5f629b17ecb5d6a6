import ProxyMonitor.Number.Decimal
/-! Values to be written, and their text: compact, or with a line for each member and item. -/
namespace ProxyMonitor.Json

inductive Value where
  | null
  | bool (b : Bool)
  | int (i : Int)
  | double (d : Binary64)
  | text (s : String)
  | array (items : List Value)
  | object (members : List (String × Value))
deriving Repr, Inhabited

namespace Value

/-- Quotes, backslashes and control characters are escaped; everything else is written as it is. -/
def escapeChar (c : Char) : List Char :=
  match c with
  | '"' => ['\\', '"']
  | '\\' => ['\\', '\\']
  | '\x08' => ['\\', 'b']
  | '\x0c' => ['\\', 'f']
  | '\n' => ['\\', 'n']
  | '\r' => ['\\', 'r']
  | '\t' => ['\\', 't']
  | c =>
    if c.toNat < 0x20 then
      ['\\', 'u', '0', '0', Text.hexDigit 'a' (c.toNat / 16), Text.hexDigit 'a' (c.toNat % 16)]
    else [c]

def quoted (s : String) : List Char :=
  '"' :: s.toList.flatMap escapeChar ++ ['"']

def integerText : Int → List Char
  | .ofNat n => Text.digits n
  | .negSucc n => '-' :: Text.digits (n + 1)

mutual
def compact : Value → List Char
  | .null => "null".toList
  | .bool true => "true".toList
  | .bool false => "false".toList
  | .int i => integerText i
  | .double d => d.scientific
  | .text s => quoted s
  | .array items => '[' :: [','].intercalate (compactItems items) ++ [']']
  | .object members => '{' :: [','].intercalate (compactMembers members) ++ ['}']
def compactItems : List Value → List (List Char)
  | [] => []
  | v :: rest => compact v :: compactItems rest
def compactMembers : List (String × Value) → List (List Char)
  | [] => []
  | (key, v) :: rest => (quoted key ++ ':' :: compact v) :: compactMembers rest
end

def newline (level : Nat) : List Char :=
  '\n' :: List.replicate (2 * level) ' '

def block (level : Nat) (opening closing : Char) : List (List Char) → List Char
  | [] => [opening, closing]
  | parts =>
    opening :: newline (level + 1) ++ (',' :: newline (level + 1)).intercalate parts ++ newline level ++ [closing]

mutual
def indented (level : Nat) : Value → List Char
  | .array items => block level '[' ']' (indentedItems level items)
  | .object members => block level '{' '}' (indentedMembers level members)
  | v => compact v
def indentedItems (level : Nat) : List Value → List (List Char)
  | [] => []
  | v :: rest => indented (level + 1) v :: indentedItems level rest
def indentedMembers (level : Nat) : List (String × Value) → List (List Char)
  | [] => []
  | (key, v) :: rest => (quoted key ++ ':' :: ' ' :: indented (level + 1) v) :: indentedMembers level rest
end

/-- The text on one line, without spaces. -/
def toText (v : Value) : String :=
  String.ofList v.compact

/-- The text over several lines, indented by two spaces. -/
def toPrettyText (v : Value) : String :=
  String.ofList (v.indented 0)

def nat (n : Nat) : Value :=
  .int n

def optional (f : α → Value) : Option α → Value
  | none => .null
  | some a => f a

def list (f : α → Value) (items : List α) : Value :=
  .array (items.map f)

end Value
end ProxyMonitor.Json
