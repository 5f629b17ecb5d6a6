import ProxyMonitor.Command.Run
import ProxyMonitor.Log.Setup
import ProxyMonitor.Time.Rfc3339
/-! The program from its arguments to its end: the log is started, and then the command runs. -/
namespace ProxyMonitor.Command

/-- What a finished program leaves. Entries go to the terminal and, if there is a log, into it. -/
structure Ending where
  code : Nat
  stdout : String := ""
  /-- The lines written to the terminal beside the entries. -/
  stderr : List String := []
  console : List Log.Entry := []
  logged : Option (List Log.Entry) := none
  files : Files
  sent : List (Http.Method × Url) := []

namespace Ending

def version : String := "proxywatch 0.1.0\n"

/-- The forms that a command line may have. -/
def usage : List String :=
  ["Usage: proxywatch [--verbose] <command>",
    "  tui [--page <page>] [--location <location>]",
    "  query <page> [--filter <filter>] [--json]",
    "  remove <page> <proxy>",
    "  config [--json] [--write-default]"]

/-- Arguments that name no command end the program before anything is touched. -/
def ofProblem (files : Files) : UsageProblem → Ending
  | .helpWanted => { code := 0, stdout := "\n".intercalate usage ++ "\n", files }
  | .versionWanted => { code := 0, stdout := version, files }
  | _ => { code := 2, stderr := usage, files }

private def linesOf (text : String) : List String :=
  if text.isEmpty then [] else (text.toList.splitOn '\n').map String.ofList

/-- Writes entries into a log; one that cannot be written is lost. -/
private def record (log : Log.Rotation) (now : Time.Instant) (entries : List Log.Entry) : Files :=
  let line (e : Log.Entry) := s!"{String.ofList (Time.Rfc3339.write now)} {e.text}\n"
  (entries.foldl (fun log e => ((Log.Rotation.write (line e).toUTF8.toList).run.run log).2) log).files

/-- Runs the program on its arguments. -/
def ofArguments (c : Context) (files : Files) (arguments : List String) : Ending :=
  match Invocation.ofWords arguments with
  | .error problem => ofProblem files problem
  | .ok ⟨verbose, action⟩ =>
    let setup := Log.Setup.inHome c.environment files "proxywatch"
    let ⟨outcome, entries⟩ := action.outcome c setup.files
    let stopped := match outcome.stop with
      | some (.overflow o) => [o.message]
      | _ => linesOf outcome.stderr
    let ending : Ending :=
      { code := outcome.code, stdout := outcome.stdout, stderr := setup.warnings ++ stopped,
        files := outcome.files, sent := outcome.sent }
    match setup.log with
    | .error problem =>
      { ending with stderr := setup.warnings ++ problem.warning :: stopped }
    | .ok log =>
      let request := c.environment.logFilter
      let kept := entries.filter (Log.Filter.ofRequest request).keeps
      { ending with
        console := entries.filter (Log.terminalFilter request (action matches .tui ..) verbose).keeps
        logged := some kept
        files := record { log with files := outcome.files } c.now kept }

end Ending
end ProxyMonitor.Command
