import ProxyMonitor.Log
import ProxyMonitor.Record.Listing
import ProxyMonitor.Screen.Wrap
/-! Panels whose drawing can crash. What was drawn before the crash is replaced by its reason; the rest of
the screen is drawn as usual. -/
namespace ProxyMonitor.Screen

/-- A crash, with or without words. -/
inductive Crash where
  | saying (reason : String)
  | silent
deriving DecidableEq, Repr

def Crash.reason : Crash → String
  | .saying reason => reason
  | .silent => "panel could not be rendered"

def Crash.ofOverflow (o : Record.Overflow) : Crash :=
  .saying o.message

/-- A part of the screen: how large it is, and what is drawn there. -/
structure Panel where
  name : String
  size : Size
  drawn : Except Crash Picture

namespace Panel

def failed (size : Size) (reason : String) : Picture :=
  .framed size (some " Failed ") none fun inner => Wrap.picture inner reason

def crashed (name reason : String) : Log.Entry :=
  ⟨.error, "proxywatch::cli::tui::ui", "panel rendering failed",
    [("panel", s!"\"{name}\""), ("reason", reason)]⟩

/-- The picture of a panel, or of its crash. -/
def draw (p : Panel) : Logged Picture :=
  match p.drawn with
  | .ok picture => pure (picture.fitted p.size)
  | .error crash => do
    .write (crashed p.name crash.reason)
    return failed p.size crash.reason

/-- Panels one below another. -/
def drawAll (panels : List Panel) : Logged Picture := do
  return (← panels.mapM draw).flatten

end Panel
end ProxyMonitor.Screen
