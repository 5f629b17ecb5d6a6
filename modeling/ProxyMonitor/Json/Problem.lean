import ProxyMonitor.Json.Doc
/-! What is wrong with a body that cannot be decoded. One that stops too early is told by what it was in
the middle of and by where it ends. -/
namespace ProxyMonitor.Json

/-- What a document was in the middle of when it ended. -/
inductive Unfinished where
  | value | string | list | object
deriving DecidableEq, Repr

namespace Unfinished

def name : Unfinished → String
  | .value => "a value"
  | .string => "a string"
  | .list => "a list"
  | .object => "an object"

/-- What is missing at the end of whole tokens. -/
private def ofExpecting? : Doc.Expecting → Option Unfinished
  | .value | .key => some .value
  | .itemOrClose | .itemEnd => some .list
  | .keyOrClose | .colon | .memberEnd => some .object
  | .done _ => none

/-- No quote ends the string. -/
private def isOpenString : Token.Input → Bool
  | [] => true
  | some '"' :: _ => false
  | some '\\' :: _ :: rest => isOpenString rest
  | _ :: rest => isOpenString rest

/-- Some more text would make a word or a number of this. -/
private def isOpenValue (input : Token.Input) : Bool :=
  ["null", "true", "false"].any (fun word => input.isPrefixOf (word.toList.map some)) ||
    match Token.leading (input ++ [some '0']) with
    | ([.number _], []) => true
    | _ => false

/-- What a document that follows the grammar up to its end lacks there. -/
def ofBody? (body : List UInt8) : Option Unfinished := do
  let (tokens, rest) := Token.leading (Text.Utf8.scan body)
  let reached ← tokens.foldlM Doc.Progress.step ⟨.value, []⟩
  match rest with
  | [] => ofExpecting? reached.expecting
  | some '"' :: rest => do
    let _ ← reached.step (.text [])
    if isOpenString rest then some .string else none
  | rest => do
    let _ ← reached.step .null
    if isOpenValue rest then some .value else none

end Unfinished

/-- Says what is wrong with a body from which nothing could be decoded. -/
def problemOf (body : List UInt8) : String :=
  match Unfinished.ofBody? body with
  | some u =>
    let newline : UInt8 := 10
    let line := body.count newline + 1
    let column := (body.reverse.takeWhile (· != newline)).length
    s!"EOF while parsing {u.name} at line {line} column {column}"
  | none => "not the expected document"

end ProxyMonitor.Json
