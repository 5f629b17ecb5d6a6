import ProxyMonitor.Files
/-! What the program is told by environment variables, and the places that follow from it. -/
namespace ProxyMonitor

/-- `home` is the program's own directory, `api` the root of the API, `logFilter` what is logged. -/
structure Environment where
  home : Option String := none
  userHome : Option String := none
  userProfile : Option String := none
  api : Option String := none
  logFilter : Option String := none
deriving DecidableEq, Repr

namespace Environment

def apiVariable : String := "PROXYWATCH_API"

def homeVariable : String := "PROXYWATCH_HOME"

/-- The program's directory: the one it is told, or one in the user's home, or else one here. -/
def homeDirectory (e : Environment) : String :=
  match e.home with
  | some home => home
  | none => Files.join ((e.userHome.or e.userProfile).getD ".") ".proxywatch"

def configPath (e : Environment) : String :=
  Files.join e.homeDirectory "config.toml"

def logDirectory (e : Environment) : String :=
  Files.join e.homeDirectory "logs"

end Environment
end ProxyMonitor
