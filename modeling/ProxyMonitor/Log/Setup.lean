import ProxyMonitor.Environment
import ProxyMonitor.Log.Filter
import ProxyMonitor.Log.Rotation
/-! How logging starts: the directory, the file, and what goes into it and to the terminal. -/
namespace ProxyMonitor.Log

/-- Why nothing is logged. -/
inductive SetupProblem where
  | noDirectory (path : String) (problem : FileProblem)
  | noFile (name : String) (problem : FileProblem)
  | alreadyStarted
deriving DecidableEq, Repr

/-- What went wrong, and why, and why that. -/
def SetupProblem.chain : SetupProblem → List String
  | .noDirectory path problem => [s!"Failed to create logs directory: {path}", problem.message]
  | .noFile name problem =>
    ["Failed to initialize rotating log file", s!"Failed to open log file for {name}", problem.message]
  | .alreadyStarted =>
    ["A global tracing subscriber is already installed", "a global default trace dispatcher has already been set"]

/-- What is said when the program goes on without a log. -/
def SetupProblem.warning (p : SetupProblem) : String :=
  "Warning: logging disabled: " ++ ": ".intercalate p.chain

def keptArchives : Nat := 4

def maxFileBytes : Nat := 10 * 1024 * 1024

/-- What is said when the program's own directory cannot be created. -/
def homeWarning (home : String) (problem : FileProblem) : String :=
  s!"Warning: failed to create proxywatch home directory {home}: {problem.message}. " ++
    s!"Set {Environment.homeVariable} to a writable path."

/-- A directory for logs, and the files after an attempt to start logging. -/
structure Setup where
  directory : String
  files : Files
  warnings : List String := []
  log : Except SetupProblem Rotation

namespace Setup

/-- Creates a directory as far as possible. -/
private def withDirectory (files : Files) (path : String) : Except FileProblem Unit × Files :=
  match if Files.hasLongName path then .error .nameTooLong else files.createDirectories path with
  | .ok files => (.ok (), files)
  | .error problem => (.error problem, files)

/-- Starts a log in a directory, which is created. -/
def inDirectory (files : Files) (name directory : String) : Setup :=
  match withDirectory files directory with
  | (.error problem, files) => { directory, files, log := .error (.noDirectory directory problem) }
  | (.ok (), files) =>
    let log : Rotation :=
      { directory, stem := fileStem name, archives := keptArchives, limit := maxFileBytes, files,
        refuses := Request.nameProblem }
    let (opened, log) := Rotation.start.run.run log
    { directory, files := log.files, log := (opened.mapError (.noFile name)).map fun _ => log }

/-- Starts a log in the usual place. -/
def inHome (environment : Environment) (files : Files) (name : String) : Setup :=
  let home := environment.homeDirectory
  let (created, files) := withDirectory files home
  let warnings := match created with
    | .ok () => []
    | .error problem => [homeWarning home problem]
  { inDirectory files name environment.logDirectory with warnings }

end Setup

/-- What goes to the terminal. A program that draws on it writes warnings only, unless asked for more. -/
def terminalFilter (request : Option String) (isDrawing verbose : Bool) : Filter :=
  if isDrawing && !verbose then Filter.warnings else Filter.ofRequest request

end ProxyMonitor.Log
