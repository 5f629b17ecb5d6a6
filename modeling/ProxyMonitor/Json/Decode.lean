import ProxyMonitor.Json.Doc
import ProxyMonitor.Json.Number
import ProxyMonitor.Json.Value
/-! Decoding of documents into typed values. A decoder sees the part of the document that it is for and
the depth that is left for containers; what it does not ask for is never decoded. -/
namespace ProxyMonitor.Json

/-- Containers may be nested less deep than this. -/
def depthLimit : Nat := 128

abbrev Decoder (α : Type) := (depth : Nat) → Doc → Option α

namespace Decoder

/-- The depth inside a container, if there may be one. -/
def enter (depth : Nat) : Option Nat :=
  if 2 ≤ depth then some (depth - 1) else none

def number : Decoder Number
  | _, .number n => Number.ofLiteral n
  | _, _ => none

/-- A whole number below `bound`. -/
def natural (bound : Nat) : Decoder Nat := fun depth d => do
  match ← number depth d with
  | .natural n => if n < bound then some n else none
  | _ => none

/-- A signed whole number of 64 bits. -/
def integer : Decoder Int := fun depth d => do
  match ← number depth d with
  | .natural n => if (n : Int) ≤ maxInteger then some n else none
  | .integer i => some i
  | .double _ => none

def double : Decoder Binary64 := fun depth d =>
  (number depth d).map Number.asDouble

def bool : Decoder Bool
  | _, .bool b => some b
  | _, _ => none

def text : Decoder String
  | _, .text s => (StringUnit.decode s).map String.ofList
  | _, _ => none

def list (item : Decoder α) : Decoder (List α)
  | depth, .array items => do
    let depth ← enter depth
    items.mapM (item depth)
  | _, _ => none

/-- What may be `null`. -/
def nullable (inner : Decoder α) : Decoder (Option α)
  | _, .null => some none
  | depth, d => (inner depth d).map some

/-- A list that may be written `null`. -/
def listOrNull (item : Decoder α) : Decoder (List α) := fun depth d =>
  (nullable (list item) depth d).map (·.getD [])

/-- The members of an object under their decoded names. -/
def members (fields : List (List StringUnit × Doc)) : Option (List (String × Doc)) :=
  fields.mapM fun (key, d) => (StringUnit.decode key).map fun name => (String.ofList name, d)

/-- The parts of a record by field name. A record is an object in which no known name is repeated and
unknown names are skipped, or an array of the first fields in order. -/
def fields (names : List String) : Decoder (Nat × (String → Option Doc))
  | depth, .object written => do
    let inner ← enter depth
    let given ← members written
    guard (names.all fun name => given.countP (·.1 == name) ≤ 1)
    return (inner, fun name => if name ∈ names then given.lookup name else none)
  | depth, .array items => do
    let inner ← enter depth
    guard (items.length ≤ names.length)
    return (inner, fun name => if name ∈ names then items[names.idxOf name]? else none)
  | _, _ => none

/-- A field that has to be given. -/
def required (parts : Nat × (String → Option Doc)) (name : String) (d : Decoder α) : Option α :=
  (parts.2 name).bind (d parts.1)

/-- A field with a value for when it is left out. -/
def optional (parts : Nat × (String → Option Doc)) (name : String) (default : α) (d : Decoder α) :
    Option α :=
  match parts.2 name with
  | none => some default
  | some part => d parts.1 part

/-- The name of one of several cases: a text, or an object that has `null` under the name. -/
def choice : Decoder String
  | depth, .object [(key, .null)] => do
    let _ ← enter depth
    return String.ofList (← StringUnit.decode key)
  | depth, d => text depth d

/-- Sets a member of an object whose names are kept in order; a repeated name keeps its last value. -/
def insertMember (name : String) (v : Value) : List (String × Value) → List (String × Value)
  | [] => [(name, v)]
  | (other, w) :: rest =>
    if name < other then (name, v) :: (other, w) :: rest
    else if name = other then (name, v) :: rest
    else (other, w) :: insertMember name v rest

def scalar : Number → Value
  | .natural n => .int n
  | .integer i => .int i
  | .double d => .double d

mutual
/-- Any value, its objects sorted by name. -/
def any : Decoder Value
  | _, .null => some .null
  | _, .bool b => some (.bool b)
  | _, .number n => (Number.ofLiteral n).map scalar
  | _, .text s => (StringUnit.decode s).map (.text <| String.ofList ·)
  | depth, .array items => do
    let inner ← enter depth
    return .array (← anyItems inner items)
  | depth, .object members => do
    let inner ← enter depth
    return .object ((← anyMembers inner members).foldl (fun sorted (name, v) => insertMember name v sorted) [])
def anyItems (depth : Nat) : List Doc → Option (List Value)
  | [] => some []
  | d :: rest => do return (← any depth d) :: (← anyItems depth rest)
def anyMembers (depth : Nat) : List (List StringUnit × Doc) → Option (List (String × Value))
  | [] => some []
  | (key, d) :: rest => do
    let name ← StringUnit.decode key
    return (String.ofList name, ← any depth d) :: (← anyMembers depth rest)
end

/-- The value that a body of bytes writes. -/
def run (d : Decoder α) (body : List UInt8) : Option α :=
  (Doc.read body).bind (d depthLimit)

end Decoder
end ProxyMonitor.Json
