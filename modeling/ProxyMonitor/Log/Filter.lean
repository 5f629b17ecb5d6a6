import ProxyMonitor.Log
import ProxyMonitor.Text.Blank
/-! Which log entries are kept. A filter is a list of directives, `target=level` or one of both, between
commas; of the directives for an entry's target the longest one counts. -/
namespace ProxyMonitor.Log

/-- The least urgent level that is kept of a target, or of all; without a level nothing is kept. -/
structure Directive where
  target : Option (List Char) := none
  level : Option Level
deriving DecidableEq, Repr

abbrev Filter := List Directive

private def levelNames : List (String × Option Level) :=
  [("off", none), ("0", none), ("error", some .error), ("1", some .error), ("warn", some .warn),
    ("2", some .warn), ("info", some .info), ("3", some .info), ("debug", some .debug), ("4", some .debug),
    ("trace", some .trace), ("5", some .trace)]

/-- The level that a word names, in either case. -/
def Level.ofWord? (word : List Char) : Option (Option Level) :=
  levelNames.lookup (String.ofList word).toLower

namespace Directive

private def isTargetChar (c : Char) : Bool :=
  c.isAlphanum || c == '_' || c == ':' || c == '-' || 0x80 ≤ c.toNat

def ofText? (text : List Char) : Option Directive :=
  match Level.ofWord? text with
  | some level => some { level }
  | none =>
    let target := text.takeWhile isTargetChar
    let named := if (Level.ofWord? target).isSome then none else some target
    match target, text.drop target.length with
    | [], _ => none
    | _, [] | _, ['='] => some ⟨named, some .trace⟩
    | _, '=' :: level => (Level.ofWord? level).map fun level => ⟨named, level⟩
    | _, _ => none

def covers (d : Directive) (target : String) : Bool :=
  d.target.all (·.isPrefixOf target.toList)

/-- How narrow a directive is. -/
def rank (d : Directive) : Nat :=
  d.target.elim 0 (·.length + 1)

end Directive

namespace Filter

/-- Only errors are kept where nothing is said. -/
def ofText? (text : String) : Option Filter := do
  match ← ((text.toList.splitOn ',').filter (!·.isEmpty)).mapM Directive.ofText? with
  | [] => some [{ level := some .error }]
  | directives => some directives

/-- The directive that counts for a target. Of several equally long ones it is the last one. -/
def directive? (f : Filter) (target : String) : Option Directive :=
  (f.filter (·.covers target)).foldl (fun best d =>
    match best with
    | some b => if b.rank ≤ d.rank then some d else best
    | none => some d) none

def keeps (f : Filter) (e : Entry) : Bool :=
  match f.directive? e.target with
  | some { level := some level, .. } => e.level.rank ≤ level.rank
  | _ => false

def usual : Filter :=
  [⟨some "proxywatch".toList, some .info⟩, ⟨some "proxywatch_live".toList, some .info⟩]

def warnings : Filter :=
  [{ level := some .warn }]

/-- The filter that the user asks for, if it can be read. -/
def ofRequest (request : Option String) : Filter :=
  (request.bind ofText?).getD usual

end Filter
end ProxyMonitor.Log
