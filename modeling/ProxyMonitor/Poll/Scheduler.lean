import ProxyMonitor.Log
import ProxyMonitor.Poll.Timer
/-! Decides when the next request of a view goes out. At most one is under way; a poll that comes due
meanwhile is queued behind it, and a failure halts polling until it is asked for again. -/
namespace ProxyMonitor.Poll

/-- Milliseconds from a poll being asked for to its request, and from a response to the next request. -/
structure Schedule where
  debounce : Nat := 500
  cadence : Nat
deriving DecidableEq, Repr

inductive PollState where
  | idle | scheduled | loading | paused
  | failed (message : String)
deriving DecidableEq, Repr, Inhabited

def PollState.label : PollState → String
  | .idle => "idle"
  | .scheduled => "scheduled"
  | .loading => "loading"
  | .paused => "paused"
  | .failed _ => "failed"

/-- Names a request: its number, and the filter it was sent with. The number has no bound here: a counter of 64
bits would differ only after 2⁶⁴ requests. -/
structure Tag where
  seq : Nat := 0
  filter : String := ""
deriving DecidableEq, Repr, Inhabited

/-- What becomes of a response. -/
inductive Disposition where
  | apply | fail | discardStale | discardPaused | discardTornDown
deriving DecidableEq, Repr

def Disposition.name : Disposition → String
  | .apply => "Apply"
  | .fail => "Fail"
  | .discardStale => "DiscardStale"
  | .discardPaused => "DiscardPaused"
  | .discardTornDown => "DiscardTornDown"

/-- `lastSeq` is the number of the last request, or zero; like every number of a request it has no bound. -/
structure Scheduler where
  schedule : Schedule
  state : PollState := .idle
  timer : Timer := .off
  inFlight : Option Tag := none
  queued : Bool := false
  paused : Bool := false
  tornDown : Bool := false
  lastSeq : Nat := 0
deriving DecidableEq, Repr

namespace Scheduler

def logTarget : String := "proxywatch_live::scheduler"

/-- Whether polls are ignored for now or for good. -/
def isDeaf (s : Scheduler) : Bool :=
  s.tornDown || s.paused

/-- Asks for a poll: the quiet time starts over. A scheduler that is deaf stays as it is. -/
def requestPoll (s : Scheduler) (now : Nat) : Scheduler :=
  if s.isDeaf then s
  else
    { s with
      timer := .arm now .debounce s.schedule.debounce
      state := if s.inFlight.isNone then .scheduled else s.state }

/-- The timer fired: whether a request goes out now. -/
def timerFired (s : Scheduler) (kind : TimerKind) : Logged (Bool × Scheduler) :=
  if s.isDeaf then pure (false, s)
  else if s.inFlight.isSome then do
    .write ⟨.debug, logTarget, "poll due while a request is in flight; queued", [("kind", kind.name)]⟩
    return (false, { s with queued := true })
  else pure (true, s)

/-- A request for the filter goes out. -/
def beginFetch (s : Scheduler) (filter : String) : Tag × Scheduler :=
  let tag : Tag := ⟨s.lastSeq + 1, filter⟩
  (tag,
    { s with
      timer := .off
      queued := false
      lastSeq := tag.seq
      inFlight := some tag
      state := if s.paused then s.state else .loading })

/-- After the response that was waited for: what becomes of it, and whether the next request goes out at
once. -/
def settle (s : Scheduler) (now : Nat) (fresh : Bool) (failure : Option String) :
    Logged (Disposition × Bool × Scheduler) :=
  let queued := s.queued
  let s := { s with queued := false }
  if !fresh then pure (.discardStale, queued || !s.timer.isArmed, { s with state := .scheduled })
  else
    match failure with
    | none =>
      let timer := if s.timer.isArmed then s.timer else .arm now .cadence s.schedule.cadence
      pure (.apply, queued, { s with timer, state := .scheduled })
    | some message =>
      if queued || s.timer.kind? = some .debounce then do
        .write ⟨.debug, logTarget, "failure with a poll pending; not halting", [("queued", toString queued)]⟩
        return (.fail, queued, { s with state := .scheduled })
      else pure (.fail, queued, { s with timer := .off, state := .failed message })

/-- A response to the tagged request arrived, while `current` is the filter. -/
def response (s : Scheduler) (now : Nat) (tag : Tag) (current : String) (failure : Option String) :
    Logged (Disposition × Bool × Scheduler) :=
  if s.inFlight ≠ some tag then pure (.discardStale, false, s)
  else
    let s := { s with inFlight := none }
    if s.tornDown then pure (.discardTornDown, false, s)
    else if s.paused then pure (.discardPaused, false, s)
    else s.settle now (tag.filter == current) failure

/-- Whether a poll is due later or waits behind the request that is under way. -/
def hasPendingPoll (s : Scheduler) : Bool :=
  s.queued || s.timer.isArmed

def pause (s : Scheduler) : Scheduler :=
  if s.tornDown then s else { s with paused := true, queued := false, timer := .off, state := .paused }

/-- Ends a pause: whether a request goes out now. -/
def resume (s : Scheduler) : Bool × Scheduler :=
  if s.tornDown || !s.paused then (false, s)
  else if s.inFlight.isSome then (false, { s with paused := false, queued := true, state := .loading })
  else (true, { s with paused := false, state := .scheduled })

def shutdown (s : Scheduler) : Scheduler :=
  { s with tornDown := true, queued := false, timer := .off, state := .idle }

end Scheduler
end ProxyMonitor.Poll
