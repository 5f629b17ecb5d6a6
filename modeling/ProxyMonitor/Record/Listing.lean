import ProxyMonitor.Json.Decode
import ProxyMonitor.Time.Rfc3339
/-! What every record type offers: decoding, encoding, and a row of a table. -/
namespace ProxyMonitor.Record
open ProxyMonitor.Json ProxyMonitor.Time

/-- A column of words can be too large to be summed in a word. -/
inductive Overflow where
  | sum
deriving DecidableEq, Repr

def Overflow.message : Overflow → String
  | .sum => "attempt to add with overflow"

/-- How records of one type are shown: a header and a cell for each column, the name under which a record
is removed, and one line about all of them. -/
structure Listing (α : Type) where
  headers : List String
  cells : Instant → α → List String
  removalId : α → Option String
  summary : List α → Except Overflow (Option String)

def maxColumnWidth : Nat := 48

/-- Each column is as wide as its widest cell, up to a limit. -/
def columnWidths (headers : List String) (rows : List (List String)) : List Nat :=
  headers.mapIdx fun column header =>
    min maxColumnWidth (((rows.filterMap (·[column]?)).map String.length).foldl max header.length)

/-- The sum of a column. -/
def total (column : List UInt64) : Except Overflow UInt64 :=
  let sum := (column.map UInt64.toNat).foldl (· + ·) 0
  if sum < UInt64.size then .ok sum.toUInt64 else .error .sum

/-- The name of a proxy in a removal: its address without the first `//`. -/
def removalName (proxy : String) : String :=
  String.ofList (cut proxy.toList)
where
  cut : List Char → List Char
    | '/' :: '/' :: rest => rest
    | c :: rest => c :: cut rest
    | [] => []

def orDash (text : String) : String :=
  if text.isEmpty then "-" else text

def word64 : Decoder UInt64 := fun depth d => (Decoder.natural UInt64.size depth d).map (·.toUInt64)

def word32 : Decoder UInt32 := fun depth d => (Decoder.natural UInt32.size depth d).map (·.toUInt32)

def word16 : Decoder UInt16 := fun depth d => (Decoder.natural UInt16.size depth d).map (·.toUInt16)

def int64 : Decoder Int64 := fun depth d => (Decoder.integer depth d).map Int64.ofInt

def instant : Decoder Instant := fun depth d =>
  (Decoder.text depth d).bind fun text => Rfc3339.read text.toList

def ofInstant (t : Instant) : Value :=
  .text (String.ofList (Rfc3339.write t))

end ProxyMonitor.Record
