import ProxyMonitor.Config
import ProxyMonitor.Http.Client
import ProxyMonitor.Live.Session
import ProxyMonitor.Record.Collection
import ProxyMonitor.Screen.Frame
import ProxyMonitor.Screen.Input
/-! The program on the screen: one page at a time, its filter as it is typed, and what keys do. -/
namespace ProxyMonitor.Screen
open ProxyMonitor.Http ProxyMonitor.Live ProxyMonitor.Record

/-- A page with its running view. -/
structure Mounted where
  page : Page
  session : Session (Collection.ofPage page).Item

structure App where
  isRunning : Bool := true
  input : String
  mounted : Mounted
  config : Config
  client : Client
  network : Network

namespace Mounted

/-- Every request is answered at once. -/
def service (client : Client) (network : Network) (page : Page) :
    Service (Collection.ofPage page).Item where
  rest := {
    latency := 0
    outcome := fun request => do
      let e ← client.fetch network (Collection.ofPage page).decode request
      return some e.result }

def mount (client : Client) (network : Network) (config : Config) (page : Page) (location : Location) :
    Logged Mounted := do
  let schedule : Poll.Schedule := ⟨config.debounce.toNat, (config.cadence.of page).toNat⟩
  let session ← Session.mount page.endpoint location schedule (service client network page)
  return ⟨page, session⟩

variable (m : Mounted)

def change (f : Session (Collection.ofPage m.page).Item →
    Logged (Session (Collection.ofPage m.page).Item)) : Logged Mounted := do
  return { m with session := ← f m.session }

def send (c : Command) : Logged Mounted :=
  m.change (·.send c)

def settle (now : Nat) : Logged Mounted :=
  m.change (·.settle now)

def advance (now target : Nat) : Logged Mounted :=
  m.change (·.advance now target)

/-- The filters of the links that are shown. -/
def links : List String :=
  m.session.shown.links

/-- The requests since the page was mounted. -/
def calls : List Call :=
  m.session.calls

/-- What there is to draw: the page as its view was published last. -/
def frame (input : String) (now : Time.Instant) : Frame (Collection.ofPage m.page).Item where
  page := m.page
  input
  shown := .ofView m.session.shown
  listing := (Collection.ofPage m.page).listing
  now

def draw (input : String) (now : Time.Instant) (size : Size) : Logged Picture :=
  (m.frame input now).draw size

end Mounted

namespace App

/-- Opens a page at a location. -/
def start (client : Client) (network : Network) (config : Config) (page : Page) (location : Location) :
    Logged App := do
  let mounted ← Mounted.mount client network config page location
  return { input := location.filter, mounted, config, client, network }

variable (a : App)

def send (c : Command) : Logged App := do
  return { a with mounted := ← a.mounted.send c }

/-- Edits the filter, which the view follows. -/
def edit (input : String) : Logged App :=
  { a with input }.send (.setFilter input)

/-- Leaves the page for another one, whose filter is empty. -/
def switchPage (page : Page) : Logged App := do
  .write ⟨.debug, "proxywatch::cli::tui::app", "switching page",
    [("from", a.mounted.page.name), ("to", page.name)]⟩
  let mounted ← Mounted.mount a.client a.network a.config page (.ofPage page)
  return { a with input := "", mounted }

/-- Follows a link, counted from zero, if there is one. -/
def followLink (index : Nat) : Logged App :=
  match a.mounted.links[index]? with
  | some filter => a.edit filter
  | none => pure a

def quit : App :=
  { a with isRunning := false }

/-- What a character does. With Control it is a command, with Alt the number of a link. -/
def typeChar (c : Char) (control alt : Bool) : Logged App :=
  match control, alt, c with
  | true, _, 'c' => pure a.quit
  | true, _, 'p' => a.send .togglePause
  | true, _, 'r' => a.send .refresh
  | true, _, 'u' => a.edit ""
  | _, true, c => if '1' ≤ c && c ≤ '9' then a.followLink (c.toNat - '1'.toNat) else pure a
  | true, false, _ => pure a
  | false, false, c => a.edit (a.input.push c)

def press (k : Key) : Logged App :=
  match k.code with
  | .escape => pure a.quit
  | .tab => a.switchPage a.mounted.page.next
  | .backTab => a.switchPage a.mounted.page.prev
  | .function n => if 1 ≤ n && n ≤ 9 then a.followLink (n - 1) else pure a
  | .backspace => if a.input.isEmpty then pure a else a.edit (String.ofList a.input.toList.dropLast)
  | .char c => a.typeChar c k.control k.alt
  | .enter | .other => pure a

def settle (now : Nat) : Logged App := do
  return { a with mounted := ← a.mounted.settle now }

def advance (now target : Nat) : Logged App := do
  return { a with mounted := ← a.mounted.advance now target }

def draw (now : Time.Instant) (size : Size) : Logged Picture :=
  a.mounted.draw a.input now size

end App
end ProxyMonitor.Screen
