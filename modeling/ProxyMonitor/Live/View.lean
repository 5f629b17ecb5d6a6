import ProxyMonitor.Answer
import ProxyMonitor.Location
import ProxyMonitor.Poll.Scheduler
/-! One mounted page: its location, its polling and the last result, and how they react to commands, to the
timer and to responses. -/
namespace ProxyMonitor.Live
open ProxyMonitor.Poll

/-- The last result of a view, and how many there were. There is no bound on how many: a counter of 64 bits
would differ only after 2⁶⁴ results. -/
structure Sink (α : Type) where
  total : Option UInt64 := none
  records : List α := []
  facets : List Facet := []
  applied : Nat := 0
deriving Repr

namespace Sink

def accept (s : Sink α) (a : Answer α) : Sink α :=
  ⟨some a.total, a.records, a.facets.getD [], s.applied + 1⟩

def hasResult (s : Sink α) : Bool :=
  s.total.isSome

def label (s : Sink α) : Option String :=
  s.total.map fun n => s!"{n} total"

end Sink

structure Request where
  endpoint : String
  params : Url.Form.Pairs
  tag : Tag
deriving DecidableEq, Repr

/-- The first request for a page and a filter; an empty filter is not sent. -/
def Request.first (p : Page) (filter : String) : Request where
  endpoint := p.endpoint
  params := ((Location.ofPage p).setFilter filter).pairs
  tag := ⟨1, filter⟩

inductive Command where
  | setFilter (value : String)
  | refresh | pause | resume | togglePause
deriving DecidableEq, Repr

/-- What a view handles, one after the other: that it is opened, and then commands, the timer and
responses. -/
inductive Event (α : Type) where
  | opening
  | command (c : Command)
  | timer (kind : TimerKind)
  | response (tag : Tag) (outcome : Except Failure (Answer α))

structure View (α : Type) where
  endpoint : String
  location : Location
  scheduler : Scheduler
  sink : Sink α := {}
  errors : ErrorChannel := {}
deriving Repr

namespace View

def logTarget : String := "proxywatch_live::live"

def mounting (endpoint : String) (location : Location) : Log.Entry :=
  ⟨.info, logTarget, "mounting live view", [("endpoint", endpoint), ("location", location.text)]⟩

def start (endpoint : String) (location : Location) (schedule : Schedule) : View α where
  endpoint
  location
  scheduler := { schedule }

variable {α : Type} (v : View α)

def filter : String :=
  v.location.filter

def failure : Option String :=
  v.errors.message

def facets : List FacetView :=
  Facet.views v.sink.facets

/-- The filters of all links, in order. -/
def links : List String :=
  v.facets.flatMap FacetView.links

/-- Asks for a poll, which takes back the failure unless the view is deaf to it. -/
def poll (now : Nat) : View α :=
  if v.scheduler.isDeaf then v
  else { v with scheduler := v.scheduler.requestPoll now, errors := v.errors.clear }

/-- The request that goes out now. -/
def fetch : Request × View α :=
  let (tag, scheduler) := v.scheduler.beginFetch v.filter
  (⟨v.endpoint, v.location.pairs, tag⟩, { v with scheduler })

def setFilter (now : Nat) (value : String) : Logged (View α) :=
  let (changed, location) := v.location.replaceFilter value
  let v := { v with location }
  if changed then do
    .write ⟨.debug, logTarget, "filter changed", [("filter", value)]⟩
    return v.poll now
  else pure v

def pause : Logged (View α) := do
  .write ⟨.debug, logTarget, "paused", [("endpoint", v.endpoint)]⟩
  return { v with scheduler := v.scheduler.pause }

/-- Ends a pause: whether a request has to go out now. -/
def resume : Logged (Bool × View α) :=
  if v.scheduler.paused then do
    .write ⟨.debug, logTarget, "resumed", [("endpoint", v.endpoint)]⟩
    let (go, scheduler) := v.scheduler.resume
    return (go, { v with scheduler, errors := v.errors.clear })
  else pure (false, v)

/-- Carries out a command: whether a request has to go out now. -/
def command (now : Nat) : Command → Logged (Bool × View α)
  | .setFilter value => return (false, ← v.setFilter now value)
  | .refresh => pure (false, v.poll now)
  | .pause => return (false, ← v.pause)
  | .resume => v.resume
  | .togglePause => if v.scheduler.paused then v.resume else return (false, ← v.pause)

/-- The timer fired: whether a request has to go out now. -/
def timerFired (kind : TimerKind) : Logged (Bool × View α) := do
  let (go, scheduler) ← { v.scheduler with timer := .off }.timerFired kind
  return (go, { v with scheduler })

/-- What an outcome says went wrong. -/
def problem? : Except Failure (Answer α) → Option String
  | .ok _ => none
  | .error failure => some failure.message

/-- The tagged request was answered: whether the next one has to go out now. -/
def response (now : Nat) (tag : Tag) (outcome : Except Failure (Answer α)) : Logged (Bool × View α) := do
  let (disposition, go, scheduler) ← v.scheduler.response now tag v.filter (problem? outcome)
  let v := { v with scheduler }
  match disposition, outcome with
  | .apply, .ok answer => do
    .write ⟨.debug, logTarget, "result applied", [("seq", s!"{tag.seq}"), ("total", s!"{answer.total}")]⟩
    return (go, { v with errors := v.errors.clear, sink := v.sink.accept answer })
  | .fail, .error failure => do
    let halted := !v.scheduler.hasPendingPoll && !go
    .write ⟨.warn, logTarget, "fetch failed", [("endpoint", v.endpoint), ("filter", tag.filter),
      ("error", failure.message), ("halted", toString halted)]⟩
    return (go, { v with errors := v.errors.raise failure })
  | disposition, _ => do
    .write ⟨.debug, logTarget, "response discarded",
      [("seq", s!"{tag.seq}"), ("filter", tag.filter), ("disposition", disposition.name)]⟩
    return (go, v)

/-- Reacts to an event: whether a request has to go out now. -/
def react (now : Nat) : Event α → Logged (Bool × View α)
  | .opening => pure (false, v.poll now)
  | .command c => v.command now c
  | .timer kind => v.timerFired kind
  | .response tag outcome => v.response now tag outcome

/-- Handles an event. With a request, it goes out now. -/
def handle (now : Nat) (e : Event α) : Logged (Option Request × View α) := do
  let (go, v) ← v.react now e
  if go then
    let (request, v) := v.fetch
    return (some request, v)
  else return (none, v)

/-- Ends the view. -/
def shutdown : Logged (View α) := do
  .write ⟨.info, logTarget, "live view unmounted", [("endpoint", v.endpoint)]⟩
  return { v with scheduler := v.scheduler.shutdown }

end View
end ProxyMonitor.Live
