import ProxyMonitor.Text.Utf8
/-! Files and directories below a working directory, and what can go wrong with them. Paths are texts with
slashes. -/
namespace ProxyMonitor

inductive FileProblem where
  | notFound | notADirectory | isADirectory | alreadyExists | nameTooLong | notText | notOpen
deriving DecidableEq, Repr

def FileProblem.message : FileProblem → String
  | .notFound => "No such file or directory (os error 2)"
  | .notADirectory => "Not a directory (os error 20)"
  | .isADirectory => "Is a directory (os error 21)"
  | .alreadyExists => "File exists (os error 17)"
  | .nameTooLong => "File name too long (os error 36)"
  | .notText => "stream did not contain valid UTF-8"
  | .notOpen => "log file unavailable"

inductive FileEntry where
  | directory
  | file (content : List UInt8)
deriving DecidableEq, Repr

/-- Entries by the names that lead to them. The working directory has no name. -/
structure Files where
  entries : List (List String × FileEntry) := []
deriving DecidableEq, Repr

namespace Files

/-- A path below another one, which may be empty or absolute. -/
def join (base path : String) : String :=
  if base.isEmpty || path.startsWith "/" then path
  else if base.endsWith "/" then base ++ path
  else base ++ "/" ++ path

/-- The names in a path. -/
def names (path : String) : List String :=
  ((path.toList.splitOn '/').map String.ofList).filter fun name => name != "" && name != "."

/-- A name has 255 bytes at most. -/
def hasLongName (path : String) : Bool :=
  (names path).any fun name => 255 < (Text.Utf8.ofString name).length

def entry? (f : Files) (place : List String) : Option FileEntry :=
  if place.isEmpty then some .directory else f.entries.lookup place

/-- Where names lead from a place. All but the last have to be directories that exist. -/
def locateFrom (f : Files) (place : List String) : List String → Except FileProblem (List String)
  | [] => .ok place
  | name :: rest =>
    match f.entry? place with
    | some .directory => locateFrom f (if name = ".." then place.dropLast else place ++ [name]) rest
    | some (.file _) => .error .notADirectory
    | none => .error .notFound

/-- Where a path leads. -/
def locate (f : Files) (path : String) : Except FileProblem (List String) :=
  if path.isEmpty then .error .notFound else f.locateFrom [] (names path)

/-- What is found at a path. -/
def find (f : Files) (path : String) : Except FileProblem FileEntry := do
  match f.entry? (← f.locate path) with
  | some .directory => return .directory
  | some (.file content) => if path.endsWith "/" then throw .notADirectory else return .file content
  | none => throw .notFound

def hasPath (f : Files) (path : String) : Bool :=
  (f.find path).toBool

def isDirectory (f : Files) (path : String) : Bool :=
  match f.find path with
  | .ok .directory => true
  | _ => false

def read (f : Files) (path : String) : Except FileProblem (List UInt8) := do
  match ← f.find path with
  | .directory => throw .isADirectory
  | .file content => return content

def readText (f : Files) (path : String) : Except FileProblem String := do
  match Text.Utf8.toString? (← f.read path) with
  | some text => return text
  | none => throw .notText

def put (f : Files) (place : List String) (e : FileEntry) : Files :=
  if (f.entries.lookup place).isSome then
    ⟨f.entries.map fun (other, old) => if other = place then (other, e) else (other, old)⟩
  else ⟨f.entries ++ [(place, e)]⟩

/-- Creates the directories that names lead through, as far as they do not exist. -/
def createFrom (f : Files) (place : List String) : List String → Except FileProblem Files
  | [] => .ok f
  | name :: rest =>
    let next := if name = ".." then place.dropLast else place ++ [name]
    match f.entry? next with
    | some .directory => createFrom f next rest
    | some (.file _) => .error (if rest.isEmpty then .alreadyExists else .notADirectory)
    | none => createFrom (f.put next .directory) next rest

def createDirectories (f : Files) (path : String) : Except FileProblem Files :=
  f.createFrom [] (names path)

/-- Creates the directories above a path. -/
def createParents (f : Files) (path : String) : Except FileProblem Files :=
  f.createFrom [] (names path).dropLast

/-- Writes a file in a directory that exists. -/
def write (f : Files) (path : String) (content : List UInt8) : Except FileProblem Files := do
  let place ← f.locate path
  match f.entry? place.dropLast, f.entry? place with
  | some .directory, some .directory => throw .isADirectory
  | some .directory, some (.file _) =>
    if path.endsWith "/" then throw .notADirectory else return f.put place (.file content)
  | some .directory, none =>
    if path.endsWith "/" then throw .isADirectory else return f.put place (.file content)
  | some (.file _), _ => throw .notADirectory
  | none, _ => throw .notFound

/-- Opens a file to write at its end. It is empty if it was not there. -/
def openFile (f : Files) (path : String) : Except FileProblem Files :=
  match f.read path with
  | .ok _ => .ok f
  | .error .notFound => f.write path []
  | .error problem => .error problem

def remove (f : Files) (path : String) : Except FileProblem Files := do
  let place ← f.locate path
  match ← f.find path with
  | .directory => throw .isADirectory
  | .file _ => return ⟨f.entries.filter fun (other, _) => other != place⟩

/-- Everything in a directory, and the directory itself, is in another place. -/
def moveTree (f : Files) (place target : List String) : Files :=
  ⟨f.entries.map fun (other, e) =>
    (if place.isPrefixOf other then target ++ other.drop place.length else other, e)⟩

/-- Moves a file, in the place of one that is there already, or a directory to where nothing is. -/
def rename (f : Files) (path target : String) : Except FileProblem Files := do
  match ← f.find path with
  | .file content => (← f.remove path).write target content
  | .directory =>
    let place ← f.locate path
    let goal ← f.locate target
    match f.entry? goal with
    | none => if place.isPrefixOf goal then throw .alreadyExists else return f.moveTree place goal
    | some .directory => throw .alreadyExists
    | some (.file _) => throw .notADirectory

/-- The names in a directory with what they stand for. -/
def entriesIn (f : Files) (path : String) : List (String × FileEntry) :=
  match f.locate path with
  | .error _ => []
  | .ok place => f.entries.filterMap fun (other, e) =>
    match other.getLast? with
    | some name => if other.dropLast = place then some (name, e) else none
    | none => none

end Files
end ProxyMonitor
