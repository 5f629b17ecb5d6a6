import ProxyMonitor.Live.Session
import ProxyMonitor.Proofs.Live.Reaction
import ProxyMonitor.Proofs.Past

/-! The runs of a session by any clock: commands are given to it at any point, an armed timer fires at any
time, and a request that the service has is answered at any time and in any way. -/
namespace ProxyMonitor.Live
open ProxyMonitor.Poll
variable {α : Type}

/-- A move of a session, from where it was made. -/
structure Moment (α : Type) where
  before : Session α
  now : Nat
  move : Move α

namespace Moment

def after (m : Moment α) : Session α :=
  (m.before.make m.now m.move).value

/-- The request that is prepared in the move. -/
def request? (m : Moment α) : Option Request :=
  match m.move with
  | .event e => (m.before.view.handle m.now e).value.1
  | _ => none

/-- The request that is answered by the move, and how. -/
def answer? (m : Moment α) : Option (Tag × Except Failure (Answer α)) :=
  match m.move with
  | .event e => e.answer?
  | _ => none

/-- The result that counts, and its request. -/
def result? (m : Moment α) : Option (Tag × Answer α) :=
  match m.move with
  | .event e => m.before.view.result? e
  | _ => none

/-- Whether the move is an event of the kind, for the view that handles it. -/
def meets (kind : View α → Event α → Bool) (m : Moment α) : Bool :=
  match m.move with
  | .event e => kind m.before.view e
  | _ => false

@[simp] theorem request?_event (s : Session α) (now : Nat) (e : Event α) :
    (Moment.mk s now (.event e)).request? = (s.view.handle now e).value.1 := rfl

@[simp] theorem answer?_event (s : Session α) (now : Nat) (e : Event α) :
    (Moment.mk s now (.event e)).answer? = e.answer? := rfl

theorem result?_of_unanswered {m : Moment α} (h : m.answer? = none) : m.result? = none := by
  unfold answer? at h
  unfold result?
  split at h
  · exact View.result?_of_unanswered h
  · rfl

end Moment

def requests (past : List (Moment α)) : List Request :=
  past.filterMap Moment.request?

def answers (past : List (Moment α)) : List (Tag × Except Failure (Answer α)) :=
  past.filterMap Moment.answer?

def results (past : List (Moment α)) : List (Tag × Answer α) :=
  past.filterMap Moment.result?

@[simp] theorem requests_concat (past : List (Moment α)) (m : Moment α) :
    requests (past ++ [m]) = requests past ++ m.request?.toList :=
  filterMap_concat _ _ _

@[simp] theorem answers_concat (past : List (Moment α)) (m : Moment α) :
    answers (past ++ [m]) = answers past ++ m.answer?.toList :=
  filterMap_concat _ _ _

@[simp] theorem results_concat (past : List (Moment α)) (m : Moment α) :
    results (past ++ [m]) = results past ++ m.result?.toList :=
  filterMap_concat _ _ _

theorem requests_length_concat (past : List (Moment α)) (m : Moment α) :
    (requests (past ++ [m])).length = (requests past).length + m.request?.isSome.toNat := by
  rw [requests_concat, List.length_append]
  cases m.request? <;> rfl

theorem results_length_concat (past : List (Moment α)) (m : Moment α) :
    (results (past ++ [m])).length = (results past).length + m.result?.isSome.toNat := by
  rw [results_concat, List.length_append]
  cases m.result? <;> rfl

namespace Session

/-- Whether a move is open to a session, whatever the time is. -/
def Allows (s : Session α) : Move α → Prop
  | .event .opening => s.phase = .mounting
  | .event (.command c) => s.phase = .running ∧ s.commands.head? = some c
  | .event (.timer kind) => s.phase = .running ∧ s.view.scheduler.timer.kind? = some kind
  | .event (.response tag _) => s.phase = .running ∧ ∃ a, s.slot = .awaited a ∧ a.tag = tag
  | .handOver request => s.phase = .running ∧ s.slot = .outgoing request
  | .crash => s.phase = .running ∧ ∃ a, s.slot = .awaited a
  | .leave => s.phase = .running

variable {s : Session α} {now : Nat} {e : Event α}

/-- An event is taken, the view that has handled it is published, and its request, if there is one, is outgoing. -/
theorem react_eq (s : Session α) (now : Nat) (e : Event α) :
    (s.react now e).value =
      { s.take e with
        view := (s.view.handle now e).value.2
        shown := (s.view.handle now e).value.2
        published := (s.take e).published + 1
        slot := match (s.view.handle now e).value.1 with
          | some request => .outgoing request
          | none => (s.take e).slot } := by
  simp only [react, Logged.value_bind]
  cases (s.view.handle now e).value.1 with
  | some request => rfl
  | none => rfl

@[simp] theorem react_view (s : Session α) (now : Nat) (e : Event α) :
    (s.react now e).value.view = (s.view.handle now e).value.2 := by
  rw [react_eq]

@[simp] theorem react_shown (s : Session α) (now : Nat) (e : Event α) :
    (s.react now e).value.shown = (s.view.handle now e).value.2 := by
  rw [react_eq]

@[simp] theorem react_phase (s : Session α) (now : Nat) (e : Event α) :
    (s.react now e).value.phase = (s.take e).phase := by
  rw [react_eq]

theorem react_commands (s : Session α) (now : Nat) (e : Event α) :
    (s.react now e).value.commands = (s.take e).commands := by
  rw [react_eq]

theorem react_slot (s : Session α) (now : Nat) (e : Event α) :
    (s.react now e).value.slot =
      match (s.view.handle now e).value.1 with
      | some request => .outgoing request
      | none => (s.take e).slot := by
  rw [react_eq]

/-- An event does not reach the service, nor does it end a view. -/
theorem react_unserved (s : Session α) (now : Nat) (e : Event α) :
    (s.react now e).value.service = s.service ∧ (s.react now e).value.calls = s.calls ∧
      (s.react now e).value.leaving = s.leaving := by
  rw [react_eq]
  cases e <;> exact ⟨rfl, rfl, rfl⟩

/-- What is asked of a session in between: that it takes a command, that it ends, or what is new. -/
inductive Asked (s : Session α) : Session α → Prop where
  | send (c : Command) : s.Asked (s.send c).value
  | unmount : s.Asked { s with leaving := true }
  | see : s.Asked { s with seen := s.published }

theorem Asked.eq_with {t : Session α} (h : s.Asked t) :
    ∃ commands leaving seen, t = { s with commands, leaving, seen } := by
  cases h with
  | send c =>
    unfold Session.send
    split
    · exact ⟨_, _, _, rfl⟩
    · exact ⟨_, _, _, rfl⟩
  | unmount | see => exact ⟨_, _, _, rfl⟩

theorem take_phase (h : s.Allows (.event e)) : (s.take e).phase = .running := by
  cases e with
  | opening => rfl
  | command c | timer kind | response tag outcome => exact h.1

/-- A view that handles an event runs. -/
theorem make_running (h : s.Allows (.event e)) : (s.make now (.event e)).value.phase = .running := by
  rw [make, react_phase, take_phase h]

theorem take_slot (h : e.answer? = none) : (s.take e).slot = s.slot := by
  cases e with
  | opening | command | timer => rfl
  | response => cases h

/-- A session that makes a move is being mounted or running. -/
theorem not_ended_of_allows {m : Move α} (h : s.Allows m) : s.phase ≠ .ended := by
  cases m with
  | event e =>
    cases e with
    | opening => exact fun he => by simp [Allows, he] at h
    | command | timer | response => exact fun he => by simp [Allows, he] at h
  | handOver | crash | leave => exact fun he => by simp [Allows, he] at h

theorem running_of_allows {m : Move α} (h : s.Allows m) (hm : m ≠ .event .opening) : s.phase = .running := by
  cases m with
  | event e =>
    cases e with
    | opening => exact absurd rfl hm
    | command | timer | response => exact h.1
  | handOver | crash => exact h.1
  | leave => exact h

theorem isStopped_of_allows {m : Move α} (allowed : s.Allows m) : s.isStopped = false := by
  cases m with
  | event e =>
    cases e with
    | opening => simp [isStopped, show s.phase = .mounting from allowed]
    | command | timer | response => simp [isStopped, allowed.1]
  | handOver | crash => simp [isStopped, allowed.1]
  | leave => simp [isStopped, show s.phase = .running from allowed]

/-- A session is mounted only once. -/
theorem make_phase {m : Move α} (h : s.Allows m) : (s.make now m).value.phase ≠ .mounting := by
  cases m with
  | event e => simp [make_running h]
  | handOver request =>
    have hp : (s.make now (.handOver request)).value.phase = s.phase := rfl
    simp [hp, running_of_allows h (by simp)]
  | crash | leave => simp [make, leave]

/-- Where no request is out, nothing is answered. -/
theorem unanswered_of_free {m : Move α} (free : s.slot = .free) (allowed : s.Allows m) (now : Nat) :
    (Moment.mk s now m).answer? = none := by
  cases m with
  | handOver | crash | leave => rfl
  | event e =>
    cases e with
    | opening | command | timer => rfl
    | response =>
      obtain ⟨_, a, out, _⟩ := allowed
      rw [free] at out
      cases out

/-- It takes a request to fill its place. -/
theorem make_free {m : Move α} (free : s.slot = .free) (allowed : s.Allows m)
    (unsent : (Moment.mk s now m).request? = none) : (s.make now m).value.slot = .free := by
  cases m with
  | event e =>
    have unsent : (s.view.handle now e).value.1 = none := unsent
    rw [make, react_slot, unsent, take_slot (unanswered_of_free free allowed now), free]
  | handOver request =>
    have out : s.slot = .outgoing request := allowed.2
    rw [free] at out
    cases out
  | crash =>
    obtain ⟨_, a, out⟩ := allowed
    rw [free] at out
    cases out
  | leave => rfl

/-- Why a move is next at an instant. -/
inductive Next (s : Session α) (now : Nat) : Move α → Prop where
  | opening (mounting : s.phase = .mounting) : s.Next now (.event .opening)
  | command {c : Command} {rest : List Command} (running : s.phase = .running) (commands : s.commands = c :: rest) :
      s.Next now (.event (.command c))
  | leave (running : s.phase = .running) (handled : s.commands = []) (leaving : s.leaving = true) : s.Next now .leave
  | timer {kind : TimerKind} (running : s.phase = .running) (handled : s.commands = []) (stays : s.leaving = false)
      (due : s.view.scheduler.timer.due? now = some kind) : s.Next now (.event (.timer kind))
  | handOver {request : Request} (running : s.phase = .running) (handled : s.commands = []) (stays : s.leaving = false)
      (quiet : s.view.scheduler.timer.due? now = none) (out : s.slot = .outgoing request) :
      s.Next now (.handOver request)
  | response {a : Awaited α} {outcome : Except Failure (Answer α)} (running : s.phase = .running)
      (handled : s.commands = []) (stays : s.leaving = false) (quiet : s.view.scheduler.timer.due? now = none)
      (out : s.slot = .awaited a) (due : a.due ≤ now) (answered : a.outcome = some outcome) :
      s.Next now (.event (.response a.tag outcome))
  | crash {a : Awaited α} (running : s.phase = .running) (handled : s.commands = []) (stays : s.leaving = false)
      (quiet : s.view.scheduler.timer.due? now = none) (out : s.slot = .awaited a) (due : a.due ≤ now)
      (unanswered : a.outcome = none) : s.Next now .crash

theorem next_of_next? {m : Move α} (h : s.next? now = some m) : s.Next now m := by
  unfold next? at h
  split at h
  · rename_i mounting
    cases h
    exact .opening mounting
  · rename_i running
    split at h
    · rename_i commands
      cases h
      exact .command running commands
    · rename_i handled leaving
      cases h
      exact .leave running handled leaving
    · rename_i handled stays due
      cases h
      exact .timer running handled stays due
    · rename_i handled stays quiet out
      cases h
      exact .handOver running handled stays quiet out
    · rename_i a handled stays quiet out
      split at h
      · rename_i due
        cases h
        unfold Awaited.move
        split
        · rename_i answered
          exact .response running handled stays quiet out due answered
        · rename_i unanswered
          exact .crash running handled stays quiet out due unanswered
      · cases h
    · cases h
  · cases h
  · cases h

/-- What is next at an instant may be made. -/
theorem allows_of_next? {m : Move α} (h : s.next? now = some m) : s.Allows m := by
  cases next_of_next? h with
  | opening mounting => exact mounting
  | command running commands => exact ⟨running, by rw [commands]; rfl⟩
  | leave running => exact running
  | timer running _ _ due => exact ⟨running, Timer.kind?_of_due? due⟩
  | handOver running _ _ _ out => exact ⟨running, out⟩
  | response running _ _ _ out => exact ⟨running, _, out, rfl⟩
  | crash running _ _ _ out => exact ⟨running, _, out⟩

section Keeps
variable {motive : Session α → Prop}

/-- What each move at an instant keeps is kept by all that is due then. -/
theorem settleWithin_keeps (make : ∀ {s m}, s.next? now = some m → motive s → motive (s.make now m).value)
    (h : motive s) (fuel : Nat) : motive (settleWithin now fuel s).value := by
  induction fuel generalizing s with
  | zero => exact h
  | succ fuel ih =>
    unfold settleWithin
    split
    · exact h
    · rename_i next step
      obtain ⟨m, hm, rfl⟩ := Option.map_eq_some_iff.mp step
      exact ih (make hm h)

theorem settle_keeps (make : ∀ {s m}, s.next? now = some m → motive s → motive (s.make now m).value)
    (h : motive s) : motive (s.settle now).value :=
  settleWithin_keeps make h _

/-- What each move at its time keeps is kept by all of them. -/
theorem advance_keeps (make : ∀ {now s m}, s.next? now = some m → motive s → motive (s.make now m).value)
    (h : motive s) (now target : Nat) : motive (s.advance now target).value := by
  induction left : target - now using Nat.strong_induction_on generalizing s now with
  | _ n ih =>
    have settled : motive (s.settle now).value := settle_keeps make h
    rw [advance, Logged.value_bind]
    split
    · rename_i t _
      split
      · exact ih (target - t) (by omega) settled t rfl
      · exact settled
    · exact settled

end Keeps
end Session

/-- The moves that led from one session to another, first one first, whatever is asked of it in between. -/
inductive Run (start : Session α) : List (Moment α) → Session α → Prop where
  | start : Run start [] start
  | ask {past : List (Moment α)} {s t : Session α} : Run start past s → s.Asked t → Run start past t
  | make {past : List (Moment α)} {s : Session α} (now : Nat) (m : Move α) :
      Run start past s → s.Allows m → Run start (past ++ [⟨s, now, m⟩]) (s.make now m).value

namespace Run
variable {start s : Session α} {past : List (Moment α)}

/-- The moves that are made at their time are part of a run, and so is all that follows from them. -/
theorem next (run : ∃ later, Run start (past ++ later) s) {now : Nat} {m : Move α} (h : s.next? now = some m) :
    ∃ later, Run start (past ++ later) (s.make now m).value := by
  obtain ⟨later, run⟩ := run
  exact ⟨later ++ [_], by simpa using run.make now m (Session.allows_of_next? h)⟩

theorem settle (run : Run start past s) (now : Nat) :
    ∃ later, Run start (past ++ later) (s.settle now).value :=
  Session.settle_keeps (fun h run => next run h) ⟨[], by simpa using run⟩

theorem advance (run : Run start past s) (now target : Nat) :
    ∃ later, Run start (past ++ later) (s.advance now target).value :=
  Session.advance_keeps (fun h run => next run h) ⟨[], by simpa using run⟩ now target

theorem changed (run : Run start past s) (now limit : Nat) :
    ∃ later, Run start (past ++ later) (s.changed now limit).value.2.2 := by
  induction h : limit - now using Nat.strong_induction_on generalizing past s now with
  | _ n ih =>
    rw [Session.changed]
    split
    · exact ⟨[], by simpa using run.ask .see⟩
    · split
      · exact ⟨[], by simpa using run⟩
      · obtain ⟨later, hl⟩ := run.settle now
        rw [Logged.value_bind]
        split
        · exact ⟨later, hl.ask .see⟩
        · split
          · exact ⟨later, hl⟩
          · split
            · rename_i t _
              split
              · rename_i ht
                obtain ⟨rest, hr⟩ := ih (limit - t) (by omega) hl t rfl
                exact ⟨later ++ rest, by simpa using hr⟩
              · exact ⟨later, hl⟩
            · exact ⟨later, hl⟩

theorem unmounted (run : Run start past s) (now : Nat) :
    ∃ later, Run start (past ++ later) (s.unmount now).value := by
  unfold Session.unmount
  split
  · exact ⟨[], by simpa using run⟩
  · exact (run.ask .unmount).settle now

theorem trans {t : Session α} {later : List (Moment α)} (run : Run start past s) (on : Run s later t) :
    Run start (past ++ later) t := by
  induction on with
  | start => simpa using run
  | ask _ asked ih => exact ih.ask asked
  | make now m _ allowed ih =>
    rw [← List.append_assoc]
    exact ih.make now m allowed

/-- Every moment of a run was reached by what came before it. -/
theorem moment (run : Run start past s) {m : Moment α} (h : m ∈ past) :
    ∃ earlier, Run start earlier m.before ∧ m.before.Allows m.move ∧ (earlier ++ [m]) <+: past := by
  induction run with
  | start => cases h
  | ask _ _ ih => exact ih h
  | @make past s now move run allowed ih =>
    rcases List.mem_append.mp h with h | h
    · obtain ⟨earlier, hrun, hallowed, hpast⟩ := ih h
      exact ⟨earlier, hrun, hallowed, hpast.trans (List.prefix_append _ _)⟩
    · obtain rfl := List.mem_singleton.mp h
      exact ⟨past, run, allowed, List.prefix_rfl⟩

/-- Nothing has happened yet to a session that is being mounted. -/
theorem past_mounting (run : Run start past s) (h : s.phase = .mounting) : past = [] := by
  induction run with
  | start => rfl
  | ask _ asked ih =>
    obtain ⟨_, _, _, rfl⟩ := asked.eq_with
    exact ih h
  | make now m _ allowed => exact absurd h (Session.make_phase allowed)

section Mounted
variable {endpoint : String} {location : Location} {schedule : Schedule} {service : Service α}

theorem mounting (run : Run (Session.mount endpoint location schedule service).value past s)
    (h : s.phase = .mounting) : s.view = .start endpoint location schedule := by
  induction run with
  | start => rfl
  | ask _ asked ih =>
    obtain ⟨_, _, _, rfl⟩ := asked.eq_with
    exact ih h
  | make now m _ allowed => exact absurd h (Session.make_phase allowed)

theorem schedule_eq (run : Run (Session.mount endpoint location schedule service).value past s) :
    s.view.scheduler.schedule = schedule := by
  induction run with
  | start => rfl
  | ask _ asked ih =>
    obtain ⟨_, _, _, rfl⟩ := asked.eq_with
    exact ih
  | make now m _ _ ih =>
    cases m with
    | event e => rw [Session.make, Session.react_view, View.handle_schedule, ih]
    | handOver | crash | leave => exact ih

/-- What is shown is the view as it is. -/
theorem shown_eq (run : Run (Session.mount endpoint location schedule service).value past s) :
    s.shown = s.view := by
  induction run with
  | start => rfl
  | ask _ asked ih =>
    obtain ⟨_, _, _, rfl⟩ := asked.eq_with
    exact ih
  | make now m _ _ ih =>
    cases m with
    | event e => rw [Session.make, Session.react_shown, Session.react_view]
    | handOver | crash => exact ih
    | leave => rfl

/-- While it runs, a view is settled after every move. -/
theorem settled (run : Run (Session.mount endpoint location schedule service).value past s)
    (h : s.phase = .running) : s.view.Settled := by
  induction run with
  | start => cases h
  | ask _ asked ih =>
    obtain ⟨_, _, _, rfl⟩ := asked.eq_with
    exact ih h
  | make now m run allowed ih =>
    cases m with
    | event e =>
      rw [Session.make, Session.react_view]
      by_cases he : e = .opening
      · subst he
        rw [run.mounting allowed]
        exact View.settled_opening endpoint location schedule now
      · exact View.handle_settled (ih (Session.running_of_allows allowed (by simpa using he))) now e
    | handOver | crash => exact ih allowed.1
    | leave => cases h

end Mounted
end Run

/-- The moments of the moves, one after the other and each at its time, and where they lead to. -/
def Session.play (s : Session α) : List (Nat × Move α) → List (Moment α) × Session α
  | [] => ([], s)
  | (now, m) :: moves =>
    let (past, last) := (s.make now m).value.play moves
    (⟨s, now, m⟩ :: past, last)

/-- Whether each of the moves is open where the ones before it lead to. -/
def Session.AllowsAll (s : Session α) : List (Nat × Move α) → Prop
  | [] => True
  | (now, m) :: moves => s.Allows m ∧ (s.make now m).value.AllowsAll moves

theorem Run.play {start s : Session α} {past : List (Moment α)} (run : Run start past s)
    {moves : List (Nat × Move α)} (allowed : s.AllowsAll moves) :
    Run start (past ++ (s.play moves).1) (s.play moves).2 := by
  induction moves generalizing past s with
  | nil => simpa [Session.play] using run
  | cons move moves ih =>
    obtain ⟨now, m⟩ := move
    obtain ⟨first, rest⟩ := allowed
    simpa [Session.play] using ih (run.make now m first) rest

namespace Edited

/-- A view whose service answers each request after a while. -/
def start : Session Unit :=
  (Session.mount "/api/history" ⟨"/history", []⟩ ⟨500, 2000⟩
    ⟨[], ⟨900, fun _ => pure (some (.ok ⟨3, [(), ()], none⟩))⟩⟩).value

def loading : List (Nat × Move Unit) :=
  [(0, .event .opening), (500, .event (.timer .debounce)),
    (500, .handOver ⟨"/api/history", [], ⟨1, ""⟩⟩)]

theorem run_loading : Run start (start.play loading).1 (start.play loading).2 := by
  have opened : start.AllowsAll loading := ⟨rfl, ⟨rfl, rfl⟩, ⟨rfl, rfl⟩, trivial⟩
  exact Run.start.play opened

/-- The filter is edited while the first request is out. -/
def edited : Session Unit :=
  ((start.play loading).2.send (.setFilter "a")).value

/-- The quiet time ends before the first answer, which is for no filter and not wanted any longer. -/
def reloading : List (Nat × Move Unit) :=
  [(600, .event (.command (.setFilter "a"))), (1100, .event (.timer .debounce)),
    (1400, .event (.response ⟨1, ""⟩ (.ok ⟨3, [(), ()], none⟩))),
    (1400, .handOver ⟨"/api/history", [("filter", "a")], ⟨2, "a"⟩⟩),
    (2300, .event (.response ⟨2, "a"⟩ (.ok ⟨1, [()], none⟩)))]

def past : List (Moment Unit) :=
  (start.play loading).1 ++ (edited.play reloading).1

def last : Session Unit :=
  (edited.play reloading).2

theorem run : Run start past last := by
  have answered : edited.AllowsAll reloading :=
    ⟨⟨rfl, rfl⟩, ⟨rfl, rfl⟩, ⟨rfl, _, rfl, rfl⟩, ⟨rfl, rfl⟩, ⟨rfl, _, rfl, rfl⟩, trivial⟩
  exact (run_loading.ask (.send _)).play answered

end Edited

end ProxyMonitor.Live
