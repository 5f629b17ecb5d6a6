import ProxyMonitor.Page
/-! The command line: commands, their flags and their values. -/
namespace ProxyMonitor.Command

inductive Verb where
  | tui | query | remove | config
deriving DecidableEq, Repr

def Verb.all : List Verb := [.tui, .query, .remove, .config]

def Verb.name : Verb → String
  | .tui => "tui"
  | .query => "query"
  | .remove => "remove"
  | .config => "config"

/-- Why a command line asks for nothing that can be done. -/
inductive UsageProblem where
  | helpWanted | versionWanted
  /-- Nothing is asked for, so that help is shown. -/
  | nothingWanted
  | missingCommand | unknownCommand | unknownArgument | missingArgument | missingValue | invalidValue
  | unexpectedValue | conflict
deriving DecidableEq, Repr

inductive Flag where
  | verbose | help | version | json | writeDefault | filter | page | location
deriving DecidableEq, Repr

namespace Flag

def name : Flag → String
  | .verbose => "verbose"
  | .help => "help"
  | .version => "version"
  | .json => "json"
  | .writeDefault => "write-default"
  | .filter => "filter"
  | .page => "page"
  | .location => "location"

def letter? : Flag → Option Char
  | .verbose => some 'v'
  | .help => some 'h'
  | .version => some 'V'
  | .filter => some 'f'
  | _ => none

def takesValue : Flag → Bool
  | .filter | .page | .location => true
  | _ => false

/-- The flags of a command, or of the program before its command. -/
def ofVerb : Option Verb → List Flag
  | none => [.verbose, .help, .version]
  | some .tui => [.page, .location, .verbose, .help]
  | some .query => [.filter, .json, .verbose, .help]
  | some .remove => [.verbose, .help]
  | some .config => [.json, .writeDefault, .verbose, .help]

end Flag

/-- How many values stand in a command for themselves. -/
def Verb.places : Option Verb → Nat
  | some .query => 1
  | some .remove => 2
  | _ => 0

/-- What a value is for. -/
inductive Slot where
  | flag (f : Flag)
  | place (n : Nat)
deriving DecidableEq, Repr

/-- Whether a slot takes a page. -/
def Slot.isPage : Slot → Bool
  | .flag .page | .place 0 => true
  | _ => false

/-- The values read so far. The last one is checked only when it is known to be complete. -/
structure Given where
  values : List (Slot × String) := []
  pending : Option (Slot × Option String) := none
  places : Nat := 0
deriving Repr

namespace Given

def has (g : Given) (s : Slot) : Bool :=
  (g.values.lookup s).isSome

private def add (g : Given) (s : Slot) (value : String) : Except UsageProblem Given :=
  if g.has s then .error .conflict
  else if s.isPage && (Page.ofWord? value).isNone then .error .invalidValue
  else .ok { g with values := (s, value) :: g.values }

/-- With the last value checked. -/
def settled (g : Given) : Except UsageProblem Given :=
  match g.pending with
  | none => .ok g
  | some (_, none) => .error .missingValue
  | some (slot, some value) => add { g with pending := none } slot value

/-- A flag without a value, or one whose value comes with it or after it. -/
private def flag (g : Given) (f : Flag) (value : Option String) : Except UsageProblem Given := do
  let g ← g.settled
  match f with
  | .help => throw .helpWanted
  | .version => throw .versionWanted
  | f =>
    if !f.takesValue then g.add (.flag f) ""
    else match value with
      | some value => g.add (.flag f) value
      | none => return { g with pending := some (.flag f, none) }

/-- A flag written with its name. -/
private def long (g : Given) (flags : List Flag) (name : String) (value : Option String) :
    Except UsageProblem Given :=
  match flags.find? (·.name = name) with
  | none => .error .unknownArgument
  | some f => if value.isSome && !f.takesValue then .error .unexpectedValue else g.flag f value

/-- Flags written with their letters. What follows the letter of a flag with a value is the value. -/
private def letters (flags : List Flag) : Given → List Char → Except UsageProblem Given
  | g, [] => .ok g
  | g, c :: rest =>
    match flags.find? (·.letter? = some c) with
    | none => .error .unknownArgument
    | some f =>
      if !f.takesValue then do letters flags (← g.flag f none) rest
      else match rest with
        | [] => g.flag f none
        | '=' :: value | value => g.flag f (some (String.ofList value))

/-- The next value that stands for itself. -/
private def place (g : Given) (places : Nat) (value : String) : Except UsageProblem Given := do
  if g.places < places then
    let g ← g.settled
    return { g with pending := some (.place g.places, some value), places := g.places + 1 }
  else throw .unknownArgument

/-- The rest of a help command names a command, if anything. -/
private def helpProblem : List String → UsageProblem
  | [] => .helpWanted
  | [name] => if name = "help" || Verb.all.any (·.name = name) then .helpWanted else .unknownCommand
  | _ => .unknownCommand

/-- A word before the command: the command itself, if it is known. -/
private def verb (word : String) (rest : List String) : Except UsageProblem Verb :=
  if word = "help" then .error (helpProblem rest)
  else match Verb.all.find? (·.name = word) with
    | some verb => .ok verb
    | none => .error .unknownCommand

/-- A word after `--`, before any command. -/
private def strayWord (word : String) : UsageProblem :=
  if word = "help" || Verb.all.any (·.name = word) then .unknownArgument else .unknownCommand

/-- Reads the words of a command, or those up to the command and the ones after it. -/
def read (scope : Option Verb) : (isLiteral : Bool) → Given → List String →
    Except UsageProblem (Given × Option (Verb × List String))
  | _, g, [] => do return (← g.settled, none)
  | isLiteral, g, word :: rest =>
    let value := fun () =>
      if scope.isNone then .error (strayWord word) else g.place (Verb.places scope) word
    if isLiteral then do read scope true (← value ()) rest
    else match word.toList with
      | ['-', '-'] => read scope true g rest
      | '-' :: '-' :: text => do
        let name := text.takeWhile (· ≠ '=')
        let attached := (text.drop name.length).tail?.map String.ofList
        read scope false (← g.long (Flag.ofVerb scope) (String.ofList name) attached) rest
      | '-' :: c :: text => do read scope false (← letters (Flag.ofVerb scope) g (c :: text)) rest
      | _ =>
        match g.pending, scope with
        | some (slot, none), _ => read scope false { g with pending := some (slot, some word) } rest
        | _, none => do
          let verb ← verb word rest
          return (← g.settled, some (verb, rest))
        | _, some _ => do read scope false (← value ()) rest

def value? (g : Given) (s : Slot) : Option String :=
  g.values.lookup s

/-- The value of a slot for a page, which was checked. -/
private def page (g : Given) (s : Slot) : Page :=
  ((g.value? s).bind Page.ofWord?).getD .history

end Given

/-- What the user wants done. -/
inductive Action where
  | tui (page : Page) (location : Option String)
  | query (page : Page) (filter : String) (json : Bool)
  | remove (page : Page) (proxy : String)
  | config (json writeDefault : Bool)
deriving DecidableEq, Repr

def Action.isJson : Action → Bool
  | .query _ _ json | .config json _ => json
  | _ => false

structure Invocation where
  verbose : Bool
  action : Action
deriving DecidableEq, Repr

private def Given.action (g : Given) : Verb → Except UsageProblem Action
  | .tui =>
    if g.has (.flag .page) && g.has (.flag .location) then .error .conflict
    else .ok (.tui (g.page (.flag .page)) (g.value? (.flag .location)))
  | .query =>
    if g.places < 1 then .error .missingArgument
    else .ok (.query (g.page (.place 0)) ((g.value? (.flag .filter)).getD "") (g.has (.flag .json)))
  | .remove =>
    if g.places < 2 then .error .missingArgument
    else .ok (.remove (g.page (.place 0)) ((g.value? (.place 1)).getD ""))
  | .config => .ok (.config (g.has (.flag .json)) (g.has (.flag .writeDefault)))

/-- What the words of a command line ask for. -/
def Invocation.ofWords (words : List String) : Except UsageProblem Invocation := do
  match ← Given.read none false {} words with
  | (before, none) => throw (if before.values.isEmpty then .nothingWanted else .missingCommand)
  | (before, some (verb, rest)) =>
    let (given, _) ← Given.read (some verb) false {} rest
    return {
      action := ← given.action verb
      verbose := before.has (.flag .verbose) || given.has (.flag .verbose) }

end ProxyMonitor.Command
