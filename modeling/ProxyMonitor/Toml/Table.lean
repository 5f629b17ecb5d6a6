import ProxyMonitor.Toml.Scalar
/-! Tables of a TOML file, and where a key or a header may add to them. -/
namespace ProxyMonitor.Toml

/-- How a table came to be: by its own header, as the parent of another header's table, by a dotted key, or
in braces. -/
inductive Origin where
  | header | parent | dotted | inline
deriving DecidableEq, Repr

inductive Node where
  | scalar (s : Scalar)
  | array (items : List Node)
  | table (origin : Origin) (members : List (String × Node))
  | tables (items : List (List (String × Node)))

abbrev Members := List (String × Node)

namespace Members

/-- Gives the member of this name a new value; a new one goes to the end. -/
def put (key : String) (n : Node) : Members → Members
  | [] => [(key, n)]
  | (other, m) :: rest => if other = key then (key, n) :: rest else (other, m) :: put key n rest

/-- Changes the table that a path leads to. Tables on the way are made where they are missing; in an array
of tables the way goes through the last one. A dotted key does not enter a table with a header, and nothing
enters a table in braces. -/
def within (dotted : Bool) (change : Origin → Members → Option Members) :
    (path : List String) → Origin → Members → Option Members
  | [], origin, members => change origin members
  | key :: path, _, members => do
    match members.lookup key with
    | none =>
      let origin := if dotted then .dotted else .parent
      return put key (.table origin (← within dotted change path origin [])) members
    | some (.table origin inner) =>
      guard (origin ≠ .inline ∧ !(dotted ∧ origin = .header))
      return put key (.table origin (← within dotted change path origin inner)) members
    | some (.tables items) =>
      let inner ← within dotted change path .header (← items.getLast?)
      return put key (.tables (items.dropLast ++ [inner])) members
    | some _ => none

/-- Adds a value under a key that may be dotted. A dotted key adds to tables of dotted keys only, and no key
is given twice. -/
def addPair (path : List String) (key : String) (n : Node) (origin : Origin) (members : Members) :
    Option Members :=
  within true (fun origin members => do
    guard ((origin == .dotted) != path.isEmpty)
    guard (members.lookup key).isNone
    return members ++ [(key, n)]) path origin members

/-- Adds the table of a header. It may have been the parent of others before. -/
def addTable (path : List String) (key : String) : Members → Option Members :=
  within false (fun _ members => match members.lookup key with
    | none => some (put key (.table .header []) members)
    | some (.table .parent inner) => some (put key (.table .header inner) members)
    | some _ => none) path .header

/-- Adds a table to an array of tables. -/
def addToArray (path : List String) (key : String) : Members → Option Members :=
  within false (fun _ members => match members.lookup key with
    | none => some (put key (.tables [[]]) members)
    | some (.tables items) => some (put key (.tables (items ++ [[]])) members)
    | some _ => none) path .header

end Members
end ProxyMonitor.Toml
