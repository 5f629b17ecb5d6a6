import ProxyMonitor.Files
/-! Log files that are moved aside when they grow too large. The file in use has a name that ends in `.log`;
the archives have numbers after it, the latest one first. -/
namespace ProxyMonitor.Log

/-- The name of a log's files. Letters, digits, hyphens and underscores of the given name are kept. -/
def fileStem (name : String) : String :=
  let kept := name.map fun c => if c.isAlphanum || c == '-' || c == '_' then c else '_'
  if kept.isEmpty then "proxywatch" else kept

/-- Where what is written goes: into the file in use, into one that was removed since, or nowhere. -/
inductive Handle where
  | closed | inUse | removed
deriving DecidableEq, Repr

/-- What is asked of the file system while a log is opened and its files are moved aside. -/
inductive Request where
  | create (directory : String)
  | remove (path : String)
  | move (path target : String)
  | openFile (path : String)
  | measure (path : String)
deriving DecidableEq, Repr

namespace Request

def paths : Request → List String
  | .create path | .remove path | .openFile path | .measure path => [path]
  | .move path target => [path, target]

/-- The file system refuses names that are too long. -/
def nameProblem (q : Request) : Option FileProblem :=
  if q.paths.any Files.hasLongName then some .nameTooLong else none

end Request

structure Rotation where
  directory : String
  stem : String
  /-- How many archives are kept. -/
  archives : Nat
  /-- How many bytes a file holds; a single write may be larger. -/
  limit : Nat
  files : Files
  handle : Handle := .closed
  written : Nat := 0
  /-- What the file system does not do, whatever files there are. -/
  refuses : Request → Option FileProblem := fun _ => none

namespace Rotation

def currentPath (r : Rotation) : String :=
  Files.join r.directory s!"{r.stem}.log"

def archivePath (r : Rotation) (generation : Nat) : String :=
  Files.join r.directory s!"{r.stem}.log.{generation}"

/-- Steps that change a log and its files, also where they fail in the end. -/
abbrev Task := ExceptT FileProblem (StateM Rotation)

/-- The answer of the file system, unless it refuses the request. -/
def ask (q : Request) (answer : Files → Except FileProblem α) : Task α := do
  let r ← get
  match (r.refuses q).elim (answer r.files) .error with
  | .ok a => return a
  | .error problem => throw problem

def changeFiles (q : Request) (change : Files → Except FileProblem Files) : Task Unit := do
  let files ← ask q change
  modify ({ · with files })

def moveIfThere (path target : String) : Task Unit := do
  if (← get).files.hasPath path then changeFiles (.move path target) (·.rename path target)

def removeIfThere (path : String) : Task Unit := do
  if (← get).files.hasPath path then changeFiles (.remove path) (·.remove path)

/-- Gives every archive the next number, and the file in use the first one. The oldest archive is lost. -/
def shift : Task Unit := do
  let r ← get
  match r.archives with
  | 0 => removeIfThere r.currentPath
  | oldest + 1 =>
    removeIfThere (r.archivePath (oldest + 1))
    for generation in (List.range oldest).reverse do
      moveIfThere (r.archivePath (generation + 1)) (r.archivePath (generation + 2))
    moveIfThere r.currentPath (r.archivePath 1)

/-- Opens the file in use, which is empty if it was not there. -/
def reopen : Task Unit := do
  let path := (← get).currentPath
  changeFiles (.openFile path) (·.openFile path)
  let content ← ask (.measure path) (·.read path)
  modify ({ · with handle := .inUse, written := content.length })

def roll : Task Unit := do
  modify ({ · with handle := .closed })
  shift
  reopen

/-- Opens a log. -/
def start : Task Unit := do
  let directory := (← get).directory
  changeFiles (.create directory) (·.createDirectories directory)
  reopen
  let r ← get
  if r.limit < r.written then roll

def append (bytes : List UInt8) (r : Rotation) : Except FileProblem Rotation :=
  let grown := { r with written := r.written + bytes.length }
  match r.handle with
  | .closed => .error .notOpen
  | .removed => .ok grown
  | .inUse => do
    let content ← r.files.read r.currentPath
    return { grown with files := ← r.files.write r.currentPath (content ++ bytes) }

/-- Writes all of the bytes into one file: the number of them. -/
def write (bytes : List UInt8) : Task Nat := do
  let r ← get
  if 0 < r.written && r.limit < r.written + bytes.length then roll
  match append bytes (← get) with
  | .ok r => set r; return bytes.length
  | .error problem => throw problem

/-- Someone else removes a file of the directory. -/
def removed (name : String) : Task Unit := do
  let r ← get
  let path := Files.join r.directory name
  changeFiles (.remove path) (·.remove path)
  if path = r.currentPath && r.handle = .inUse then modify ({ · with handle := .removed })

end Rotation
end ProxyMonitor.Log
