import ProxyMonitor.Command.Program
import ProxyMonitor.Screen.Terminal
import Std.Time.DateTime.Timestamp
/-! The command line. The environment and the files that the program may touch are read, the program runs
on them, and what it leaves is written back. Every connection is refused, and views are drawn once. -/
namespace ProxyMonitor.CommandLine
open ProxyMonitor.Command ProxyMonitor.Time

private def environment : IO Environment := do
  return {
    home := ← IO.getEnv Environment.homeVariable
    userHome := ← IO.getEnv "HOME"
    userProfile := ← IO.getEnv "USERPROFILE"
    api := ← IO.getEnv Environment.apiVariable
    logFilter := ← IO.getEnv "RUST_LOG" }

private def clock : IO Instant := do
  let nanos := (← Std.Time.Timestamp.now).toNanosecondsSinceUnixEpoch.val
  return ⟨nanos / Instant.billion, (nanos % Instant.billion).toNat⟩

/-- The settings, the log and its archives. -/
private def places (e : Environment) : List String :=
  let log : Log.Rotation :=
    { directory := e.logDirectory, stem := "proxywatch", archives := Log.keptArchives,
      limit := Log.maxFileBytes, files := {} }
  e.configPath :: log.currentPath :: (List.range log.archives).map fun n => log.archivePath (n + 1)

private def addFile (files : Files) (path : String) : IO Files := do
  try
    let content ← IO.FS.readBinFile path
    return (((files.createParents path).toOption.getD files).write path content.toList).toOption.getD files
  catch _ => return files

/-- Makes the file at a path what it is after the program. -/
private def store (before after : Files) (path : String) : IO Unit := do
  let old := (before.read path).toOption
  let new := (after.read path).toOption
  if old != new then
    match new with
    | some content =>
      let parents := (path.toList.reverse.dropWhile (· != '/')).reverse
      unless parents.isEmpty do IO.FS.createDirAll (String.ofList parents)
      IO.FS.writeBinFile path ⟨content.toArray⟩
    | none => IO.FS.removeFile path

/-- The first screen of the views. -/
private def firstScreen (c : Context) (files : Files) (page : Page) (raw : Option String) : List String :=
  match opening page raw, Config.loadOrDefault files c.environment.configPath c.environment.api with
  | .ok (page, location), .ok config =>
    let client := Http.Client.ofBase config.baseUrl config.timeoutMillis
    let app := Screen.App.start client c.network config page location
    (app.value.draw c.now ⟨160, 30⟩).value.lines
  | _, _ => []

def run (arguments : List String) : IO UInt32 := do
  let environment ← environment
  let context : Context := ⟨environment, fun _ _ => .refuses, ← clock⟩
  let before ← (places environment).foldlM addFile {}
  let ending := Ending.ofArguments context before arguments
  (places environment).forM (store before ending.files)
  ending.console.forM fun e => IO.eprintln e.text
  IO.print ending.stdout
  ending.stderr.forM IO.eprintln
  match Invocation.ofWords arguments with
  | .ok ⟨_, .tui page raw⟩ => if ending.code = 0 then (firstScreen context ending.files page raw).forM IO.println
  | _ => pure ()
  return ending.code.toUInt32

end ProxyMonitor.CommandLine

def main (arguments : List String) : IO UInt32 :=
  ProxyMonitor.CommandLine.run arguments
