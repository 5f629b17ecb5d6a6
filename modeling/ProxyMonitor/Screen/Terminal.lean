import ProxyMonitor.Screen.App
/-! The program on a terminal: it draws after every event and handles what is typed until it is left. -/
namespace ProxyMonitor.Screen

namespace Picture

/-- The cells of a row that are written. The cell that a wide symbol covers keeps what was in it. -/
private def refreshRow : (isCovered : Bool) → Row → Row → Row
  | isCovered, old :: olds, new :: news =>
    (if isCovered then old else new) ::
      refreshRow (!isCovered && 1 < Text.columns new.toList) olds news
  | _, _, news => news

/-- What the terminal shows after a new picture was drawn over an old one. -/
def refresh (old new : Picture) : Picture :=
  List.zipWith (refreshRow false) old new

end Picture

/-- `taken` is how many events were handled, and `drawn` are the pictures so far, first one first. -/
structure Terminal where
  size : Size
  clock : Time.Instant
  app : App
  now : Nat := 0
  taken : Nat := 0
  drawn : List Picture := []

namespace Terminal

/-- How long the input stays open after the last event, in milliseconds. -/
def closingDelay : Nat := 2500

variable (t : Terminal)

/-- What the terminal shows: the pictures one over the other. -/
def screen : Picture :=
  t.drawn.foldl Picture.refresh (.blank t.size)

def draw : Logged Terminal := do
  return { t with drawn := t.drawn ++ [← t.app.draw t.clock t.size] }

/-- A terminal that shows the program for the first time, before its view runs. -/
def start (size : Size) (clock : Time.Instant) (app : App) : Logged Terminal := do
  let t ← { size, clock, app : Terminal }.draw
  return { t with app := ← t.app.settle t.now }

/-- Lets the view run, and shows what changes. -/
def wait (ms : Nat) : Logged Terminal := do
  let t ← { t with app := ← t.app.settle t.now }.draw
  let target := t.now + ms
  { t with app := ← t.app.advance t.now target, now := target }.draw

def handle (input : Input) : Logged Terminal := do
  let t := { t with taken := t.taken + 1 }
  match input with
  | .key k => do
    let t := { t with app := ← t.app.press k }
    if t.app.isRunning then t.draw else return t
  | .resize .. => t.draw

/-- Handles events, each some milliseconds after the one before it; then the input closes. -/
def run (t : Terminal) : List (Nat × TerminalEvent) → Logged Terminal
  | [] => do
    let t ← t.wait closingDelay
    .write ⟨.warn, "proxywatch::cli::tui", "terminal input closed; leaving tui", []⟩
    return { t with app := { t.app with isRunning := false } }
  | (after, event) :: rest => do
    let t ← if after = 0 then pure t else t.wait after
    match event.input? with
    | none => run t rest
    | some input => do
      let t ← t.handle input
      if t.app.isRunning then run t rest else return t

end Terminal

/-- Who hears of a crash: whoever did before, or only the log. -/
inductive CrashHandler where
  | usual | log
deriving DecidableEq, Repr

/-- What has to be undone when the program leaves the terminal. -/
structure TerminalGuard where
  handler : CrashHandler
  isRaw : Bool := false
  isAlternate : Bool := false
deriving DecidableEq, Repr

namespace TerminalGuard

/-- The guard that remembers a handler, and the handler in its place. -/
def install (handler : CrashHandler) : TerminalGuard × CrashHandler :=
  ({ handler }, .log)

/-- Leaves the alternate screen and shows the cursor. -/
def farewell (g : TerminalGuard) : String :=
  if g.isAlternate then "\x1b[?1049l\x1b[?25h" else ""

end TerminalGuard
end ProxyMonitor.Screen
