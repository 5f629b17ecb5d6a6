import ProxyMonitor.Proofs.Live.FilterAhead
import ProxyMonitor.Screen.App

/-! What is typed is what is polled for. The screen keeps the filter as it is typed, the view keeps it in its
location, and a command that waits is all that tells the view of an edit. -/
namespace ProxyMonitor.Screen
open ProxyMonitor.Live ProxyMonitor.Http ProxyMonitor.Record

namespace App

/-- What a key does: nothing, the end of the program, an edit, a command that is no edit, or another page. -/
theorem press_cases (a : App) (k : Key) {motive : App → Prop} (nothing : motive a) (quit : motive a.quit)
    (edit : ∀ input, motive (a.edit input).value)
    (command : ∀ c : Command, (∀ filter, c.filterAfter filter = filter) → motive (a.send c).value)
    (switch : ∀ page, motive (a.switchPage page).value) : motive (a.press k).value := by
  have follow (index : Nat) : motive (a.followLink index).value := by
    unfold followLink
    split
    · exact edit _
    · exact nothing
  unfold press
  split
  · exact quit
  · exact switch _
  · exact switch _
  · split
    · exact follow _
    · exact nothing
  · split
    · exact nothing
    · exact edit _
  · unfold typeChar
    split
    · exact quit
    · exact command .togglePause fun _ => rfl
    · exact command .refresh fun _ => rfl
    · exact edit _
    · split
      · exact follow _
      · exact nothing
    · exact nothing
    · exact edit _
  · exact nothing
  · exact nothing

def withSession (a : App) (session : Session (Collection.ofPage a.mounted.page).Item) : App :=
  { a with mounted := { a.mounted with session } }

/-- The view on the screen makes a move. -/
def move (a : App) (now : Nat) (m : Move (Collection.ofPage a.mounted.page).Item) : Logged App := do
  return a.withSession (← a.mounted.session.make now m)

/-- The last state that was published is drawn. -/
def see (a : App) : App :=
  a.withSession { a.mounted.session with seen := a.mounted.session.published }

/-- What the program comes to by keys and by the moves of its views, in any order and at any time. -/
inductive Reached (first : App) : App → Prop where
  | start : Reached first first
  | press {a : App} (k : Key) : Reached first a → Reached first (a.press k).value
  | move {a : App} (now : Nat) (m : Move (Collection.ofPage a.mounted.page).Item) :
      Reached first a → a.mounted.session.Allows m → Reached first (a.move now m).value
  | see {a : App} : Reached first a → Reached first a.see

namespace Reached
variable {first a : App}

/-- The moves that a view makes at its time are among them. -/
theorem next {s : Session (Collection.ofPage a.mounted.page).Item} {now : Nat}
    {m : Move (Collection.ofPage a.mounted.page).Item} (h : s.next? now = some m)
    (reached : first.Reached (a.withSession s)) : first.Reached (a.withSession (s.make now m).value) :=
  Reached.move (a := a.withSession s) now m reached (Session.allows_of_next? h)

theorem settle (reached : first.Reached a) (now : Nat) : first.Reached (a.settle now).value :=
  Session.settle_keeps (motive := fun s => first.Reached (a.withSession s)) next reached

theorem advance (reached : first.Reached a) (now target : Nat) : first.Reached (a.advance now target).value :=
  Session.advance_keeps (motive := fun s => first.Reached (a.withSession s)) next reached now target

end Reached

/-- The view on the screen was mounted for its page, and unless it has stopped it is on its way to the filter that
is typed. -/
structure Follows (a : App) : Prop where
  mounted : ∃ location schedule service past,
    Run (Session.mount a.mounted.page.endpoint location schedule service).value past a.mounted.session
  typed : a.mounted.session.isStopped = false → a.mounted.session.filterAhead = a.input

namespace Follows
variable {a : App}

theorem start (client : Client) (network : Network) (config : Config) (page : Page) (location : Location) :
    (App.start client network config page location).value.Follows :=
  ⟨⟨location, _, _, [], .start⟩, fun _ => rfl⟩

theorem switchPage (a : App) (page : Page) : (a.switchPage page).value.Follows :=
  ⟨⟨.ofPage page, _, _, [], .start⟩, fun _ => rfl⟩

theorem send (h : a.Follows) {c : Command} {input : String} (typed : c.filterAfter a.input = input) :
    ({ a with input } : App).send c |>.value.Follows := by
  obtain ⟨location, schedule, service, past, run⟩ := h.mounted
  refine ⟨⟨location, schedule, service, past, run.ask (.send c)⟩, fun alive => ?_⟩
  have alive : a.mounted.session.isStopped = false :=
    (Session.send_isStopped a.mounted.session c).symm.trans alive
  calc (a.mounted.session.send c).value.filterAhead
      = c.filterAfter a.mounted.session.filterAhead := Session.filterAhead_send alive c
    _ = c.filterAfter a.input := by rw [h.typed alive]
    _ = input := typed

theorem press (h : a.Follows) (k : Key) : (a.press k).value.Follows := by
  refine press_cases a k (motive := Follows) ?nothing ?quit ?edit ?command ?switch
  case nothing => exact h
  case quit => exact ⟨h.mounted, h.typed⟩
  case edit => exact fun input => h.send (c := .setFilter input) rfl
  case command => exact fun c same => h.send (same a.input)
  case switch => exact switchPage a

theorem move (h : a.Follows) (now : Nat) {m : Move (Collection.ofPage a.mounted.page).Item}
    (allowed : a.mounted.session.Allows m) : (a.move now m).value.Follows := by
  obtain ⟨location, schedule, service, past, run⟩ := h.mounted
  refine ⟨⟨location, schedule, service, _, run.make now m allowed⟩, fun alive => ?_⟩
  exact (Session.filterAhead_make allowed now alive).trans (h.typed (Session.isStopped_of_allows allowed))

theorem see (h : a.Follows) : a.see.Follows := by
  obtain ⟨location, schedule, service, past, run⟩ := h.mounted
  exact ⟨⟨location, schedule, service, past, run.ask .see⟩, h.typed⟩

end Follows

variable {client : Client} {network : Network} {config : Config} {page : Page} {location : Location} {a : App}

theorem Reached.follows (reached : (App.start client network config page location).value.Reached a) : a.Follows := by
  induction reached with
  | start => exact .start client network config page location
  | press k _ ih => exact ih.press k
  | move now m _ allowed ih => exact ih.move now allowed
  | see _ ih => exact ih.see

/-- Whatever was typed and whatever the views did in the meantime, the filter on the screen is the one that the view
of the page will have when it has handled the commands that wait, whenever it does; it is the one that the view
shows once none waits. A view asks for nothing but the records of the page that it is on the screen for. -/
theorem input_is_polled (reached : (App.start client network config page location).value.Reached a) :
    (a.mounted.session.isStopped = false →
      (∀ timed, timed.map Prod.snd = a.mounted.session.commands →
        (a.mounted.session.view.handleAll timed).filter = a.input) ∧
      (a.mounted.session.commands = [] → a.mounted.session.shown.filter = a.input)) ∧
    a.mounted.session.view.endpoint = a.mounted.page.endpoint ∧
    a.mounted.session.shown.endpoint = a.mounted.page.endpoint ∧
    ∀ call ∈ a.mounted.calls, call.request.endpoint = a.mounted.page.endpoint := by
  obtain ⟨mounted, typed⟩ := reached.follows
  obtain ⟨_, _, _, _, run⟩ := mounted
  obtain ⟨endpoint, _, calls⟩ := run.endpoint_eq
  refine ⟨fun alive => ⟨fun timed waiting => ?_, fun handled => ?_⟩, endpoint, ?_, calls⟩
  · rw [View.handleAll_filter, waiting]
    exact typed alive
  · have ahead := typed alive
    rw [Session.filterAhead, handled] at ahead
    rw [run.shown_eq]
    exact ahead
  · rw [run.shown_eq]
    exact endpoint

end App

namespace Edited

/-- The pool with a filter from its location. -/
def first : App :=
  (App.start ⟨"http://localhost", 30000⟩ (fun _ _ => .refuses) {} .pool ⟨"/pool", [("filter", "O")]⟩).value

/-- A character is typed before the view runs. -/
def typing : App :=
  (first.press { code := .char 'k' }).value

def handled : App :=
  (typing.settle 0).value

def switched : App :=
  (handled.press { code := .tab }).value

end Edited

/-- The edit waits, the view handles it, and the next page begins without a filter. -/
theorem input_is_polled_edited :
    Edited.first.Reached Edited.typing ∧ Edited.typing.input = "Ok" ∧
    Edited.typing.mounted.session.view.filter = "O" ∧
    (Edited.typing.mounted.session.view.handleAll [(3, .setFilter "Ok")]).filter = "Ok" ∧
    Edited.handled.mounted.session.shown.filter = "Ok" ∧
    Edited.handled.mounted.session.view.endpoint = "/pool" ∧
    Edited.switched.mounted.session.shown.filter = "" ∧
    Edited.switched.mounted.session.view.endpoint = "/blacklist" := by
  have typing : Edited.first.Reached Edited.typing := .press _ .start
  have handled : Edited.first.Reached Edited.handled := typing.settle 0
  have switched : Edited.first.Reached Edited.switched := handled.press _
  have input : Edited.typing.input = "Ok" := by decide
  obtain ⟨waiting, _⟩ := App.input_is_polled typing
  obtain ⟨shown, endpoint, _⟩ := App.input_is_polled handled
  obtain ⟨other, next, _⟩ := App.input_is_polled switched
  exact ⟨typing, input, by decide, ((waiting rfl).1 [(3, .setFilter "Ok")] (by decide)).trans input,
    (shown rfl).2 (by decide), endpoint, (other rfl).2 rfl, next⟩

end ProxyMonitor.Screen
