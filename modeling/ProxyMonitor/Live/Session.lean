import ProxyMonitor.Live.View
/-! A view and the service that it polls, along one clock. At one instant commands come first, then the
timer, then responses; every event publishes the view. -/
namespace ProxyMonitor.Live
open ProxyMonitor.Poll

/-- Answers a request `latency` milliseconds after it; without an outcome the view crashes then. -/
structure Reply (α : Type) where
  latency : Nat
  outcome : Request → Logged (Option (Except Failure (Answer α)))

/-- Replies to requests one by one, and to all later ones with `rest`. -/
structure Service (α : Type) where
  script : List (Reply α) := []
  rest : Reply α

def Service.next (s : Service α) : Reply α × Service α :=
  match s.script with
  | [] => (s.rest, s)
  | reply :: script => (reply, { s with script })

/-- A request that reached the service. -/
structure Call where
  request : Request
  time : Nat
deriving DecidableEq, Repr

inductive Phase where
  | mounting | running | ended | crashed
deriving DecidableEq, Repr

/-- An answer on its way. -/
structure Awaited (α : Type) where
  due : Nat
  tag : Tag
  outcome : Option (Except Failure (Answer α))

/-- The place for the one request of a view: it is outgoing until the service has it, then awaited. -/
inductive Slot (α : Type) where
  | free
  | outgoing (request : Request)
  | awaited (a : Awaited α)

namespace Slot

/-- The request that is out. -/
def tag? : Slot α → Option Tag
  | .free => none
  | .outgoing request => some request.tag
  | .awaited a => some a.tag

def due? : Slot α → Option Nat
  | .awaited a => some a.due
  | _ => none

end Slot

/-- What happens in a session: the view handles an event, its request reaches the service, it crashes, or it
is ended. -/
inductive Move (α : Type) where
  | event (e : Event α)
  | handOver (request : Request)
  | crash
  | leave

/-- What the answer brings about when it is there. -/
def Awaited.move (a : Awaited α) : Move α :=
  match a.outcome with
  | some outcome => .event (.response a.tag outcome)
  | none => .crash

/-- `shown` is the view as it was published last. -/
structure Session (α : Type) where
  view : View α
  shown : View α
  service : Service α
  phase : Phase := .mounting
  commands : List Command := []
  leaving : Bool := false
  slot : Slot α := .free
  published : Nat := 0
  seen : Nat := 0
  calls : List Call := []

namespace Session

/-- Mounts a view; its first poll is asked for as soon as it runs. -/
def mount (endpoint : String) (location : Location) (schedule : Schedule) (service : Service α) :
    Logged (Session α) := do
  .write (View.mounting endpoint location)
  let view := .start endpoint location schedule
  return { view, shown := view, service }

variable {α : Type} (s : Session α)

def isStopped : Bool :=
  s.phase = .ended || s.phase = .crashed

def publish (view : View α) : Session α :=
  { s with view, shown := view, published := s.published + 1 }

/-- Takes what an event is about: the view runs, the command does not wait any longer, and the place of the
answered request is free. -/
def take : Event α → Session α
  | .opening => { s with phase := .running }
  | .command _ => { s with commands := s.commands.tail }
  | .timer _ => s
  | .response .. => { s with slot := .free }

def react (now : Nat) (e : Event α) : Logged (Session α) := do
  let (request, view) ← s.view.handle now e
  let s := (s.take e).publish view
  match request with
  | some request => return { s with slot := .outgoing request }
  | none => return s

def handOver (now : Nat) (request : Request) : Logged (Session α) := do
  let (reply, service) := s.service.next
  let outcome ← reply.outcome request
  return { s with
    service
    slot := .awaited ⟨now + reply.latency, request.tag, outcome⟩
    calls := s.calls ++ [⟨request, now⟩] }

def leave : Logged (Session α) := do
  let view ← s.view.shutdown
  return { s.publish view with phase := .ended, slot := .free }

def make (now : Nat) : Move α → Logged (Session α)
  | .event e => s.react now e
  | .handOver request => s.handOver now request
  | .crash => pure { s with phase := .crashed }
  | .leave => s.leave

/-- What happens next at this instant. -/
def next? (now : Nat) : Option (Move α) :=
  match s.phase with
  | .mounting => some (.event .opening)
  | .running =>
    match s.commands, s.leaving, s.view.scheduler.timer.due? now, s.slot with
    | c :: _, _, _, _ => some (.event (.command c))
    | [], true, _, _ => some .leave
    | [], false, some kind, _ => some (.event (.timer kind))
    | [], false, none, .outgoing request => some (.handOver request)
    | [], false, none, .awaited a => if a.due ≤ now then some a.move else none
    | [], false, none, .free => none
  | .ended | .crashed => none

/-- Makes the move that is next. -/
def step (now : Nat) : Option (Logged (Session α)) :=
  (s.next? now).map (s.make now)

/-- Up to `fuel` things that happen at this instant. -/
def settleWithin (now : Nat) : (fuel : Nat) → Session α → Logged (Session α)
  | 0, s => pure s
  | fuel + 1, s =>
    match s.step now with
    | none => pure s
    | some next => next >>= settleWithin now fuel

/-- Everything that is due now. A poll takes three steps, and only a service that answers at once makes the
next one due within the instant. -/
def settle (now : Nat) : Logged (Session α) :=
  settleWithin now (3 * (s.commands.length + s.service.script.length + 4)) s

/-- When something is due next. -/
def nextDue? : Option Nat :=
  if s.isStopped then none
  else
    match s.view.scheduler.timer.deadline?, s.slot.due? with
    | some a, some b => some (min a b)
    | a, b => a.or b

/-- Everything that happens before the target time. -/
def advance (now target : Nat) (s : Session α) : Logged (Session α) := do
  let s ← s.settle now
  match s.nextDue? with
  | some t => if now < t ∧ t < target then advance t target s else pure s
  | none => pure s
termination_by target - now

/-- Whether a state was published that was not waited for yet, `none` if there is none before the limit; and
the time at which that is known. -/
def changed (now limit : Nat) (s : Session α) : Logged (Option Bool × Nat × Session α) := do
  if s.seen < s.published then return (some true, now, { s with seen := s.published })
  else if s.isStopped then return (some false, now, s)
  else
    let s ← s.settle now
    if s.seen < s.published then return (some true, now, { s with seen := s.published })
    else if s.isStopped then return (some false, now, s)
    else
      match s.nextDue? with
      | some t => if now < t ∧ t < limit then changed t limit s else return (none, max now limit, s)
      | none => return (none, max now limit, s)
termination_by limit - now

/-- Gives a command to the view, which handles it when it runs next. -/
def send (c : Command) : Logged (Session α) :=
  if s.isStopped then do
    .write ⟨.debug, View.logTarget, "live view driver already stopped", []⟩
    return s
  else pure { s with commands := s.commands ++ [c] }

/-- Ends the view once it has handled the commands given before. -/
def unmount (now : Nat) : Logged (Session α) :=
  if s.phase = .crashed then do
    .write ⟨.warn, View.logTarget, "live view driver panicked during unmount", []⟩
    return s
  else { s with leaving := true }.settle now

end Session
end ProxyMonitor.Live
