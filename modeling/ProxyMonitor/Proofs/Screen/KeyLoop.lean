import ProxyMonitor.Proofs.Screen.LinkNumbers
import ProxyMonitor.Screen.Terminal

/-! The loop of the program on the screen: it draws, then waits for whatever comes first, for as long as it is not left.
Keys are taken one by one in the order in which they were typed, and only they decide on the page and on the filter. What the
program draws on a terminal is what is drawn in this loop. -/
namespace ProxyMonitor.Screen
open ProxyMonitor.Http ProxyMonitor.Live ProxyMonitor.Record

/-- The keys that end the program. -/
def Key.quits (k : Key) : Bool :=
  k.code = .escape || k.code = .char 'c' && k.control

/-- The keys of links; only the first nine links have one. -/
def Key.FollowsLink (k : Key) : Prop :=
  ∃ n, 1 ≤ n ∧ n ≤ 9 ∧ k.Picks n

theorem Key.not_followsLink {k : Key} (alt : k.alt = false) (code : ∀ n, k.code ≠ .function n) : ¬ k.FollowsLink := by
  rintro ⟨n, _, _, function | ⟨held, _⟩⟩
  · exact code n function
  · rw [alt] at held
    cases held

/-- What any other key makes of the page and of the filter that is typed. -/
def Key.typed (k : Key) (page : Page) (input : String) : Page × String :=
  match k.code with
  | .tab => (page.next, "")
  | .backTab => (page.prev, "")
  | .backspace => (page, String.ofList input.toList.dropLast)
  | .char c =>
    if k.control && c = 'u' then (page, "")
    else if k.control || k.alt then (page, input)
    else (page, input.push c)
  | _ => (page, input)

def Input.key? : Input → Option Key
  | .key k => some k
  | .resize .. => none

def Input.isKey (i : Input) : Bool :=
  i.key?.isSome

def keys (events : List Input) : List Key :=
  events.filterMap Input.key?

/-- The keys up to the first one that ends the program. -/
def untilQuit : List Key → List Key
  | [] => []
  | k :: ks => if k.quits then [k] else k :: untilQuit ks

namespace App

/-- The characters in the order in which they are looked for. -/
theorem typeChar_eq (a : App) (c : Char) (control alt : Bool) :
    a.typeChar c control alt =
      if control && c = 'c' then pure a.quit
      else if control && c = 'p' then a.send .togglePause
      else if control && c = 'r' then a.send .refresh
      else if control && c = 'u' then a.edit ""
      else if alt && ('1' ≤ c && c ≤ '9') then a.followLink (c.toNat - '1'.toNat)
      else if control || alt then pure a
      else a.edit (a.input.push c) := by
  unfold typeChar
  split
  · rfl
  · rfl
  · rfl
  · rfl
  · grind
  · grind
  · rfl

theorem followLink_isRunning (a : App) (index : Nat) : (a.followLink index).value.isRunning = a.isRunning := by
  unfold followLink
  split <;> rfl

/-- The program goes on unless the key ends it. -/
theorem press_isRunning (a : App) (k : Key) : (a.press k).value.isRunning = (a.isRunning && !k.quits) := by
  obtain ⟨code, control, alt, kind⟩ := k
  cases code with
  | escape => exact (Bool.and_false _).symm
  | tab | backTab | enter | other => exact (Bool.and_true _).symm
  | function n =>
    refine Eq.trans ?_ (Bool.and_true _).symm
    unfold press
    dsimp only
    split
    · exact followLink_isRunning _ _
    · rfl
  | backspace =>
    refine Eq.trans ?_ (Bool.and_true _).symm
    unfold press
    dsimp only
    split <;> rfl
  | char c =>
    have quits : Key.quits ⟨.char c, control, alt, kind⟩ = (control && c = 'c') := by
      simp [Key.quits, Bool.and_comm]
    have typed : a.press ⟨.char c, control, alt, kind⟩ = a.typeChar c control alt := rfl
    rw [quits, typed, typeChar_eq]
    split
    · rename_i quit
      rw [quit]
      exact (Bool.and_false _).symm
    · rename_i stays
      rw [Bool.eq_false_of_not_eq_true stays]
      refine Eq.trans ?_ (Bool.and_true _).symm
      split_ifs
      · rfl
      · rfl
      · rfl
      · exact followLink_isRunning _ _
      · rfl
      · rfl

/-- Without the links, a key decides on the page and the filter by what they are. -/
theorem press_typed (a : App) {k : Key} (free : ¬ k.FollowsLink) :
    ((a.press k).value.mounted.page, (a.press k).value.input) = k.typed a.mounted.page a.input := by
  obtain ⟨code, control, alt, kind⟩ := k
  cases code with
  | escape | tab | backTab | enter | other => rfl
  | function n =>
    have beyond : ¬ (1 ≤ n && n ≤ 9) := fun inside => by
      rw [Bool.and_eq_true, decide_eq_true_eq, decide_eq_true_eq] at inside
      exact free ⟨n, inside.1, inside.2, .inl rfl⟩
    unfold press
    dsimp only
    rw [if_neg beyond]
    rfl
  | backspace =>
    unfold press Key.typed
    dsimp only
    split
    · rename_i empty
      have input : a.input = "" := by simpa using empty
      rw [Logged.value_pure, input]
      rfl
    · rfl
  | char c =>
    have unlinked : (alt && ('1' ≤ c && c ≤ '9')) = false := by
      by_contra digit
      simp only [Bool.not_eq_false, Bool.and_eq_true, decide_eq_true_eq] at digit
      obtain ⟨alt, first, last⟩ := digit
      have first : '1'.toNat ≤ c.toNat := first
      have last : c.toNat ≤ '9'.toNat := last
      have one : '1'.toNat = '0'.toNat + 1 := rfl
      have nine : '9'.toNat = '0'.toNat + 9 := rfl
      exact free ⟨c.toNat - '0'.toNat, by omega, by omega, .inr ⟨alt, c, rfl, by omega⟩⟩
    have typed : a.press ⟨.char c, control, alt, kind⟩ = a.typeChar c control alt := rfl
    rw [typed, typeChar_eq, unlinked]
    cases control with
    | false => cases alt <;> rfl
    | true =>
      by_cases clear : c = 'u'
      · rw [clear]
        rfl
      · simp only [Key.typed, clear, Bool.true_and, Bool.true_or, decide_false, Bool.false_eq_true, if_false, if_true]
        split_ifs <;> rfl

end App

/-- A picture, with the time and the size for which it was drawn. -/
structure Drawing where
  time : Time.Instant
  size : Size
  picture : Picture

/-- What happens in the loop: it draws, or the wait ends by a key, a resize, the end of the input, a new state that is
shown, or the time; and the view on the screen makes a move whenever it likes. -/
inductive Turn where
  | drew (d : Drawing)
  | pressed (k : Key)
  | resized (width height : Nat)
  | closed
  | noticed
  | ticked
  | moved

namespace Turn

def key? : Turn → Option Key
  | .pressed k => some k
  | _ => none

def drawing? : Turn → Option Drawing
  | .drew d => some d
  | _ => none

/-- What ends a wait. -/
def wakes : Turn → Bool
  | .drew _ | .moved => false
  | _ => true

/-- What ends the program. -/
def ends : Turn → Bool
  | .pressed k => k.quits
  | .closed => true
  | _ => false

/-- A resize passes like time. -/
def unsized : Turn → Turn
  | .resized .. => .ticked
  | x => x

theorem ends_iff (x : Turn) : x.ends = true ↔ (∃ k, x.key? = some k ∧ k.quits = true) ∨ x = .closed := by
  cases x <;> simp [ends, key?]

end Turn

/-- The keys that the program handled. -/
def handled (past : List Turn) : List Key :=
  past.filterMap Turn.key?

/-- What the program drew. -/
def drawings (past : List Turn) : List Drawing :=
  past.filterMap Turn.drawing?

theorem any_ends (past : List Turn) :
    past.any Turn.ends = true ↔ (∃ k ∈ handled past, k.quits = true) ∨ .closed ∈ past := by
  simp only [List.any_eq_true, Turn.ends_iff, handled, List.mem_filterMap]
  constructor
  · rintro ⟨x, hx, ⟨k, key, quits⟩ | rfl⟩
    · exact .inl ⟨k, ⟨x, hx, key⟩, quits⟩
    · exact .inr hx
  · rintro (⟨k, ⟨x, hx, key⟩, quits⟩ | closed)
    · exact ⟨x, hx, .inl ⟨k, key, quits⟩⟩
    · exact ⟨_, closed, .inr rfl⟩

/-- The loop with the events that were not taken yet, either waiting or about to draw. -/
structure Loop where
  app : App
  events : List Input
  isWaiting : Bool := false

namespace Loop

/-- What may happen next. The input closes when everything in it was taken. -/
inductive Step (l : Loop) : Turn → Loop → Prop where
  | draw (now : Time.Instant) (size : Size) (running : l.app.isRunning = true) (top : l.isWaiting = false) :
      l.Step (.drew ⟨now, size, (l.app.draw now size).value⟩) { l with isWaiting := true }
  | press {k : Key} {rest : List Input} (waits : l.isWaiting = true) (next : l.events = .key k :: rest) :
      l.Step (.pressed k) ⟨(l.app.press k).value, rest, false⟩
  | resize {width height : Nat} {rest : List Input} (waits : l.isWaiting = true)
      (next : l.events = .resize width height :: rest) : l.Step (.resized width height) ⟨l.app, rest, false⟩
  | close (waits : l.isWaiting = true) (taken : l.events = []) : l.Step .closed ⟨l.app.quit, [], false⟩
  | notice (waits : l.isWaiting = true) (new : l.app.mounted.session.seen < l.app.mounted.session.published) :
      l.Step .noticed ⟨l.app.see, l.events, false⟩
  | tick (waits : l.isWaiting = true) : l.Step .ticked { l with isWaiting := false }
  | move (now : Nat) (m : Move (Collection.ofPage l.app.mounted.page).Item) (allowed : l.app.mounted.session.Allows m) :
      l.Step .moved { l with app := (l.app.move now m).value }

/-- What has happened since the loop began. -/
inductive Leads (first : Loop) : List Turn → Loop → Prop where
  | start : first.Leads [] first
  | next {past : List Turn} {x : Turn} {l t : Loop} : first.Leads past l → l.Step x t → first.Leads (past ++ [x]) t

variable {first l t : Loop} {past : List Turn} {x : Turn}

theorem Leads.moment (leads : first.Leads past l) {before after : List Turn} (h : past = before ++ x :: after) :
    ∃ t u, first.Leads before t ∧ t.Step x u := by
  induction leads generalizing after with
  | start => simp at h
  | next leads step ih =>
    rcases split_concat h with ⟨rfl, rfl, rfl⟩ | ⟨rest, rfl, same⟩
    · exact ⟨_, _, leads, step⟩
    · exact ih same

/-- Who waits is running. -/
theorem Leads.running (leads : first.Leads past l) (top : first.isWaiting = false) (waits : l.isWaiting = true) :
    l.app.isRunning = true := by
  induction leads with
  | start =>
    rw [top] at waits
    cases waits
  | next _ step ih =>
    cases step with
    | draw _ _ running => exact running
    | move now m allowed => exact ih waits
    | press | resize | close | notice | tick => cases waits

theorem Step.isRunning (step : l.Step x t) : t.app.isRunning = (l.app.isRunning && !x.ends) := by
  cases step with
  | press => exact App.press_isRunning _ _
  | close => exact (Bool.and_false _).symm
  | draw | resize | notice | tick | move => exact (Bool.and_true _).symm

theorem Leads.isRunning (leads : first.Leads past l) : l.app.isRunning = (first.app.isRunning && !past.any Turn.ends) := by
  induction leads with
  | start => exact (Bool.and_true _).symm
  | next _ step ih =>
    rw [step.isRunning, ih, List.any_append, List.any_cons, List.any_nil, Bool.or_false, Bool.not_or, Bool.and_assoc]

theorem handled_concat (past : List Turn) (x : Turn) : handled (past ++ [x]) = handled past ++ x.key?.toList :=
  filterMap_concat _ _ _

/-- The keys that were handled, and then those that will be, are the ones up to the first that ends the program. -/
theorem Leads.untilQuit_keys (leads : first.Leads past l) (top : first.isWaiting = false)
    (running : first.app.isRunning = true) :
    untilQuit (keys first.events) = handled past ++ if l.app.isRunning then untilQuit (keys l.events) else [] := by
  induction leads with
  | start => rw [running]; rfl
  | @next past x l t leads step ih =>
    rw [ih, handled_concat, List.append_assoc]
    congr 1
    cases step with
    | @press k rest waits next =>
      -- Who waits is running, so that the key is the first of those that are left.
      rw [leads.running top waits, next]
      cases quits : k.quits <;>
        simp [App.press_isRunning, leads.running top waits, quits, keys, Input.key?, untilQuit, Turn.key?]
    | resize waits next =>
      rw [next]
      rfl
    | close waits taken =>
      rw [taken]
      exact ite_self []
    | draw | notice | tick | move => rfl

/-- Keys are taken in order. -/
theorem Leads.taken (leads : first.Leads past l) : keys first.events = handled past ++ keys l.events := by
  induction leads with
  | start => rfl
  | @next past x l t leads step ih =>
    rw [ih, handled_concat, List.append_assoc]
    congr 1
    cases step with
    | press _ next | resize _ next =>
      rw [next]
      rfl
    | close _ taken =>
      rw [taken]
      rfl
    | draw | notice | tick | move => rfl

/-- The input closes once nothing is left of it. -/
theorem Leads.closed (leads : first.Leads past l) (closed : .closed ∈ past) : l.events = [] := by
  induction leads with
  | start => cases closed
  | @next past x l t leads step ih =>
    rcases List.mem_append.mp closed with before | now
    · cases step with
      | press _ next | resize _ next =>
        rw [ih before] at next
        cases next
      | close => rfl
      | draw | notice | tick | move => exact ih before
    · obtain rfl := List.mem_singleton.mp now
      cases step
      rfl

/-- What is drawn is the program as it stands at that moment, and it is running then. -/
theorem Step.drawn {d : Drawing} (step : l.Step (.drew d) t) :
    l.app.isRunning = true ∧ d.picture = (l.app.draw d.time d.size).value := by
  cases step with
  | draw now size running => exact ⟨running, rfl⟩

/-- Who waits has drawn, and nothing but the view was active since then. -/
theorem Leads.drawn (leads : first.Leads past l) (top : first.isWaiting = false) (waits : l.isWaiting = true) :
    ∃ earlier d later, past = earlier ++ .drew d :: later ∧ ∀ y ∈ later, y = .moved := by
  induction leads with
  | start =>
    rw [top] at waits
    cases waits
  | @next past x l t leads step ih =>
    cases step with
    | draw => exact ⟨past, _, [], rfl, nofun⟩
    | move now m allowed =>
      obtain ⟨earlier, d, later, rfl, moves⟩ := ih waits
      refine ⟨earlier, d, later ++ [.moved], by simp, List.forall_mem_append.mpr ⟨moves, ?_⟩⟩
      exact fun y hy => List.mem_singleton.mp hy
    | press | resize | close | notice | tick => cases waits

theorem Step.waiting_of_wakes (step : l.Step x t) (wakes : x.wakes = true) : l.isWaiting = true := by
  cases step with
  | press waits | resize waits | close waits | notice waits | tick waits => exact waits
  | draw | move => cases wakes

/-- Once it is left, the program does nothing more. -/
theorem Leads.idle (leads : first.Leads past l) (top : first.isWaiting = false) {before after : List Turn}
    (h : past = before ++ after) (ended : ∃ y ∈ before, y.ends = true) : ∀ y ∈ after, y = .moved := by
  intro y hy
  obtain ⟨a, b, rfl⟩ := List.append_of_mem hy
  obtain ⟨t, u, reached, step⟩ := leads.moment (h.trans (List.append_assoc before a (y :: b)).symm)
  have stopped : t.app.isRunning = false := by
    obtain ⟨z, hz, ends⟩ := ended
    have some : (before ++ a).any Turn.ends = true := List.any_eq_true.mpr ⟨z, List.mem_append_left a hz, ends⟩
    rw [reached.isRunning, some, Bool.not_true, Bool.and_false]
  have idle (waits : t.isWaiting = true) : y = .moved := by
    rw [reached.running top waits] at stopped
    cases stopped
  cases step with
  | draw _ _ running =>
    rw [running] at stopped
    cases stopped
  | press waits | resize waits | close waits | notice waits | tick waits => exact idle waits
  | move => rfl

/-- The loop without the resizes. -/
def unsized (l : Loop) : Loop :=
  { l with events := l.events.filter Input.isKey }

theorem Step.unsized (step : l.Step x t) : l.unsized.Step x.unsized t.unsized := by
  cases step with
  | draw now size running top => exact .draw now size running top
  | press waits next => exact .press waits (by rw [Loop.unsized, next]; rfl)
  | @resize _ _ rest waits next =>
    have left : l.unsized = ⟨l.app, rest.filter Input.isKey, l.isWaiting⟩ := by rw [Loop.unsized, next]; rfl
    rw [left]
    exact .tick waits
  | close waits taken => exact .close waits (by rw [Loop.unsized, taken]; rfl)
  | notice waits new => exact .notice (l := l.unsized) waits new
  | tick waits => exact .tick (l := l.unsized) waits
  | move now m allowed => exact .move (l := l.unsized) now m allowed

theorem Leads.unsized (leads : first.Leads past l) : first.unsized.Leads (past.map Turn.unsized) l.unsized := by
  induction leads with
  | start => exact .start
  | next _ step ih =>
    rw [List.map_append]
    exact ih.next step.unsized

/-- The page and the filter come of the keys alone. -/
theorem Leads.typed (leads : first.Leads past l) (free : ∀ k ∈ handled past, ¬ k.FollowsLink) :
    (l.app.mounted.page, l.app.input) =
      (handled past).foldl (fun typed k => k.typed typed.1 typed.2) (first.app.mounted.page, first.app.input) := by
  induction leads with
  | start => rfl
  | next _ step ih =>
    rw [handled_concat, List.forall_mem_append] at free
    obtain ⟨before, now⟩ := free
    rw [handled_concat, List.foldl_append, ← ih before]
    cases step with
    | press => exact App.press_typed _ (now _ (List.mem_singleton_self _))
    | draw | resize | close | notice | tick | move => rfl

theorem drawings_concat (past : List Turn) (x : Turn) : drawings (past ++ [x]) = drawings past ++ x.drawing?.toList :=
  filterMap_concat _ _ _

/-- Whether the loop may come to it, with these drawings on the way. -/
def Reaches (first : Loop) (drawn : List Drawing) (l : Loop) : Prop :=
  ∃ past, first.Leads past l ∧ drawings past = drawn

variable {drawn : List Drawing}

theorem Reaches.next (reaches : first.Reaches drawn l) (step : l.Step x t) :
    first.Reaches (drawn ++ x.drawing?.toList) t := by
  obtain ⟨past, leads, rfl⟩ := reaches
  exact ⟨past ++ [x], leads.next step, drawings_concat past x⟩

/-- Most turns draw nothing. -/
theorem Reaches.silent (reaches : first.Reaches drawn l) (step : l.Step x t) (none : x.drawing? = none) :
    first.Reaches drawn t := by
  have reached := reaches.next step
  rwa [none, Option.toList_none, List.append_nil] at reached

section View
variable {a : App} {events : List Input} {isWaiting : Bool}

theorem Reaches.move {s : Session (Collection.ofPage a.mounted.page).Item} {now : Nat}
    {m : Move (Collection.ofPage a.mounted.page).Item} (h : s.next? now = some m)
    (reaches : first.Reaches drawn ⟨a.withSession s, events, isWaiting⟩) :
    first.Reaches drawn ⟨a.withSession (s.make now m).value, events, isWaiting⟩ :=
  reaches.silent (.move (l := ⟨a.withSession s, events, isWaiting⟩) now m (Session.allows_of_next? h)) rfl

theorem Reaches.settle (reaches : first.Reaches drawn ⟨a, events, isWaiting⟩) (now : Nat) :
    first.Reaches drawn ⟨(a.settle now).value, events, isWaiting⟩ :=
  Session.settle_keeps (motive := fun s => first.Reaches drawn ⟨a.withSession s, events, isWaiting⟩) Reaches.move reaches

theorem Reaches.advance (reaches : first.Reaches drawn ⟨a, events, isWaiting⟩) (now target : Nat) :
    first.Reaches drawn ⟨(a.advance now target).value, events, isWaiting⟩ :=
  Session.advance_keeps (motive := fun s => first.Reaches drawn ⟨a.withSession s, events, isWaiting⟩) Reaches.move reaches
    now target

end View
end Loop

/-- What the program makes of the events of the terminal. -/
def inputs (events : List (Nat × TerminalEvent)) : List Input :=
  events.filterMap fun e => e.2.input?

namespace Terminal
variable {first : Loop} {clock : Time.Instant} {size : Size} {t : Terminal} {left : List Input}

/-- The loop comes to what the terminal runs, and what the terminal drew, and nothing else, is drawn on the way there. -/
structure Follows (t : Terminal) (first : Loop) (clock : Time.Instant) (size : Size) (left : List Input)
    (isWaiting : Bool) : Prop where
  sameClock : t.clock = clock
  sameSize : t.size = size
  reaches : first.Reaches (t.drawn.map (Drawing.mk clock size)) ⟨t.app, left, isWaiting⟩

theorem Follows.draw (follows : t.Follows first clock size left false) (running : t.app.isRunning = true) :
    t.draw.value.Follows first clock size left true := by
  obtain ⟨rfl, rfl, reaches⟩ := follows
  refine ⟨rfl, rfl, ?_⟩
  have drawn : t.draw.value.drawn = t.drawn ++ [(t.app.draw t.clock t.size).value] := rfl
  rw [drawn, List.map_append]
  exact reaches.next (.draw t.clock t.size running rfl)

/-- A wait may end by the time at any moment, and then the program draws again. -/
theorem Follows.redraw (follows : t.Follows first clock size left true) (running : t.app.isRunning = true) :
    t.draw.value.Follows first clock size left true := by
  have woken : t.Follows first clock size left false :=
    ⟨follows.sameClock, follows.sameSize, follows.reaches.silent (.tick rfl) rfl⟩
  exact woken.draw running

theorem Follows.wait (follows : t.Follows first clock size left true) (running : t.app.isRunning = true) (ms : Nat) :
    (t.wait ms).value.Follows first clock size left true := by
  let settled : Terminal := { t with app := (t.app.settle t.now).value }
  let shown := settled.draw.value
  let advanced : Terminal := { shown with app := (shown.app.advance t.now (t.now + ms)).value, now := t.now + ms }
  have drawn : shown.Follows first clock size left true :=
    Follows.redraw ⟨follows.sameClock, follows.sameSize, follows.reaches.settle t.now⟩ running
  have later : advanced.Follows first clock size left true :=
    ⟨drawn.sameClock, drawn.sameSize, drawn.reaches.advance t.now (t.now + ms)⟩
  have waited : (t.wait ms).value = advanced.draw.value := rfl
  rw [waited]
  exact later.redraw running

/-- An event is taken, and what is drawn then is waited with unless the program ends. -/
theorem Follows.handle {i : Input} (follows : t.Follows first clock size (i :: left) true)
    (running : t.app.isRunning = true) :
    (t.handle i).value.Follows first clock size left (t.handle i).value.app.isRunning := by
  obtain ⟨rfl, rfl, reaches⟩ := follows
  cases i with
  | resize width height =>
    let taken : Terminal := { t with taken := t.taken + 1 }
    have resized : taken.Follows first t.clock t.size left false := ⟨rfl, rfl, reaches.silent (.resize rfl rfl) rfl⟩
    have going : (t.handle (.resize width height)).value.app.isRunning = true := running
    rw [going]
    exact resized.draw running
  | key k =>
    let taken : Terminal := { t with taken := t.taken + 1, app := (t.app.press k).value }
    have pressed : taken.Follows first t.clock t.size left false := ⟨rfl, rfl, reaches.silent (.press rfl rfl) rfl⟩
    have handled : (t.handle (.key k)).value = if taken.app.isRunning then taken.draw.value else taken := by
      simp only [handle, Logged.value_bind]
      split <;> rfl
    rw [handled]
    cases going : taken.app.isRunning with
    | true =>
      have drawn : taken.draw.value.app.isRunning = true := going
      rw [if_pos rfl, drawn]
      exact pressed.draw going
    | false =>
      rw [if_neg Bool.false_ne_true, going]
      exact pressed

/-- The terminal when an event comes. -/
def upTo (t : Terminal) (after : Nat) : Terminal :=
  if after = 0 then t else (t.wait after).value

theorem run_cons (t : Terminal) (after : Nat) (event : TerminalEvent) (rest : List (Nat × TerminalEvent)) :
    (t.run ((after, event) :: rest)).value =
      match event.input? with
      | none => ((t.upTo after).run rest).value
      | some i =>
        let u := ((t.upTo after).handle i).value
        if u.app.isRunning then (u.run rest).value else u := by
  rw [run, upTo]
  cases event.input? with
  | none => split <;> rfl
  | some i =>
    split
    · simp only [Logged.value_bind, Logged.value_pure]
      split <;> rfl
    · simp only [Logged.value_bind]
      split <;> rfl

/-- The program on a terminal comes to its end in the loop, and draws what is drawn there. -/
theorem Follows.run {events : List (Nat × TerminalEvent)} (follows : t.Follows first clock size (inputs events) true)
    (running : t.app.isRunning = true) :
    ∃ left, (t.run events).value.Follows first clock size left false ∧ (t.run events).value.app.isRunning = false := by
  induction events generalizing t with
  | nil =>
    have waited := follows.wait running closingDelay
    exact ⟨[], ⟨waited.sameClock, waited.sameSize, waited.reaches.silent (.close rfl rfl) rfl⟩, rfl⟩
  | cons e rest ih =>
    obtain ⟨after, event⟩ := e
    obtain ⟨waited, going⟩ : (t.upTo after).Follows first clock size (inputs ((after, event) :: rest)) true ∧
        (t.upTo after).app.isRunning = true := by
      unfold upTo
      split
      · exact ⟨follows, running⟩
      · exact ⟨follows.wait running after, running⟩
    rw [run_cons]
    cases input : event.input? with
    | none =>
      have same : inputs ((after, event) :: rest) = inputs rest := List.filterMap_cons_none input
      exact ih (same ▸ waited) going
    | some i =>
      have next : inputs ((after, event) :: rest) = i :: inputs rest := List.filterMap_cons_some input
      have handled := (next ▸ waited).handle going
      dsimp only
      split
      · rename_i goes
        rw [goes] at handled
        exact ih handled goes
      · rename_i ends
        have ends := Bool.eq_false_of_not_eq_true ends
        rw [ends] at handled
        exact ⟨_, handled, ends⟩

theorem start_follows {app : App} (running : app.isRunning = true) (size : Size) (clock : Time.Instant)
    (events : List Input) : (start size clock app).value.Follows ⟨app, events, false⟩ clock size events true := by
  have begun : ({ size, clock, app } : Terminal).Follows ⟨app, events, false⟩ clock size events false :=
    ⟨rfl, rfl, [], .start, rfl⟩
  have shown := begun.draw running
  exact ⟨shown.sameClock, shown.sameSize, shown.reaches.settle 0⟩

theorem Follows.screen {isWaiting : Bool} (follows : t.Follows first clock size left isWaiting) :
    t.screen = (t.drawn.map (Drawing.mk clock size)).foldl (fun shown d => shown.refresh d.picture) (.blank size) := by
  rw [List.foldl_map, Terminal.screen, follows.sameSize]

end Terminal

/-- Keys are handled once and in order, up to the first one that ends the program, however they, the view and the time race.
Until the program ends, what was handled is the beginning of that; when it has ended it is all of it, and that is so exactly
if such a key was handled or the input closed, which leaves no key out. Before every wait the program draws, and nothing but
the view is active from there; after the end it does not draw again, and what it draws is always itself as it stands then.
Leave out the resizes, with time passing instead, and the program comes to the same. Unless a link is followed, what was
handled is all that the page and the filter depend on. The program on a terminal is one that ends in this way: the pictures
that it draws are those of the loop, one by one, and what the terminal shows are these pictures one over the other. -/
theorem keys_until_quit {app : App} {events : List Input} {past : List Turn} {l : Loop} (running : app.isRunning = true)
    (leads : Loop.Leads ⟨app, events, false⟩ past l) :
    handled past <+: untilQuit (keys events) ∧
    (l.app.isRunning = false → handled past = untilQuit (keys events)) ∧
    (l.app.isRunning = false ↔ (∃ k ∈ handled past, k.quits = true) ∨ .closed ∈ past) ∧
    (.closed ∈ past → handled past = keys events) ∧
    (∀ before x after, past = before ++ x :: after →
      (x.wakes = true → ∃ earlier d later, before = earlier ++ .drew d :: later ∧ ∀ y ∈ later, y = .moved) ∧
      (x.ends = true → ∀ y ∈ after, y = .moved) ∧
      ∀ d, x = .drew d → ∃ t, Loop.Leads ⟨app, events, false⟩ before t ∧ t.app.isRunning = true ∧
        d.picture = (t.app.draw d.time d.size).value) ∧
    Loop.Leads ⟨app, events.filter Input.isKey, false⟩ (past.map Turn.unsized) l.unsized ∧
    ((∀ k ∈ handled past, ¬ k.FollowsLink) →
      ∀ others past' l', Loop.Leads ⟨app, others, false⟩ past' l' → handled past' = handled past →
        l'.app.mounted.page = l.app.mounted.page ∧ l'.app.input = l.app.input) ∧
    ∀ size clock typed t, inputs typed = events → t = ((Terminal.start size clock app).value.run typed).value →
      ∃ past' left, Loop.Leads ⟨app, events, false⟩ past' ⟨t.app, left, false⟩ ∧ t.app.isRunning = false ∧
        handled past' = untilQuit (keys events) ∧ drawings past' = t.drawn.map (Drawing.mk clock size) ∧
        t.screen = (drawings past').foldl (fun shown d => shown.refresh d.picture) (.blank size) := by
  have all {past : List Turn} {l : Loop} (leads : Loop.Leads ⟨app, events, false⟩ past l)
      (ended : l.app.isRunning = false) : handled past = untilQuit (keys events) := by
    have split := leads.untilQuit_keys rfl running
    rw [ended] at split
    exact (split.trans (List.append_nil _)).symm
  refine ⟨⟨_, (leads.untilQuit_keys rfl running).symm⟩, all leads, ?_, fun closed => ?_,
    fun before x after h => ⟨?_, ?_, ?_⟩, leads.unsized, fun free others past' l' leads' same => ?_, ?_⟩
  · rw [leads.isRunning, running, Bool.true_and, Bool.not_eq_false', any_ends]
  · have taken := leads.taken
    rw [leads.closed closed] at taken
    exact (taken.trans (List.append_nil _)).symm
  · intro wakes
    obtain ⟨t, u, reached, step⟩ := leads.moment h
    exact reached.drawn rfl (step.waiting_of_wakes wakes)
  · intro ends
    rw [List.append_cons] at h
    exact leads.idle rfl h ⟨x, by simp, ends⟩
  · rintro d rfl
    obtain ⟨t, u, reached, step⟩ := leads.moment h
    exact ⟨t, reached, step.drawn⟩
  · have typed := leads.typed free
    have typed' := leads'.typed (same ▸ free)
    rw [same] at typed'
    exact Prod.ext_iff.mp (typed'.trans typed.symm)
  · rintro size clock typed t rfl rfl
    have begun := Terminal.start_follows running size clock (inputs typed)
    obtain ⟨left, ended, stopped⟩ := begun.run running
    obtain ⟨past', leads', drawn⟩ := ended.reaches
    exact ⟨past', left, leads', stopped, all leads' stopped, drawn, drawn ▸ ended.screen⟩

namespace Edited

/-- A key, a resize and more keys than are needed. -/
def events : List Input :=
  [.key { code := .char 'k' }, .resize 80 24, .key { code := .tab }, .key { code := .escape }, .key { code := .char 'x' }]

def typed : List Key :=
  [{ code := .char 'k' }, { code := .tab }, { code := .escape }]

theorem unlinked : ∀ k ∈ typed, ¬ k.FollowsLink := by
  unfold typed
  simp only [List.forall_mem_cons, List.not_mem_nil, false_imp_iff, implies_true, and_true]
  exact ⟨Key.not_followsLink rfl nofun, Key.not_followsLink rfl nofun, Key.not_followsLink rfl nofun⟩

/-- The same events on a terminal, all at once; others come with them. -/
def onTerminal : List (Nat × TerminalEvent) :=
  [(0, .key { code := .char 'k' }), (0, .mouse), (0, .resize 80 24), (0, .key { code := .tab }),
    (0, .key { code := .tab, kind := .release }), (0, .key { code := .escape }), (0, .key { code := .char 'x' })]

def terminal : Terminal :=
  ((Terminal.start ⟨80, 24⟩ default first).value.run onTerminal).value

end Edited

/-- The last key comes too late, and no other order of things leads to another page or filter. On a terminal the program draws
at first and after each event but the last. -/
theorem keys_until_quit_escaped :
    ∃ past l, Loop.Leads ⟨Edited.first, Edited.events, false⟩ past l ∧ l.app.isRunning = false ∧
      handled past = Edited.typed ∧ handled past = untilQuit (keys Edited.events) ∧
      (∀ others past' l', Loop.Leads ⟨Edited.first, others, false⟩ past' l' → handled past' = handled past →
        l'.app.mounted.page = .blacklist ∧ l'.app.input = "") ∧
      ∃ past', handled past' = Edited.typed ∧ (drawings past').length = 4 ∧
        drawings past' = Edited.terminal.drawn.map (Drawing.mk default ⟨80, 24⟩) := by
  have begun : Loop.Leads ⟨Edited.first, Edited.events, false⟩ _ _ := .next .start (.draw default ⟨80, 24⟩ rfl rfl)
  have opened := begun.next (.move 0 (.event .opening) rfl)
  have typed := (opened.next (.press rfl rfl)).next (.draw default ⟨80, 24⟩ rfl rfl)
  have shown := (typed.next (.notice rfl (by decide))).next (.draw default ⟨80, 24⟩ rfl rfl)
  have resized := (shown.next (.resize rfl rfl)).next (.draw default ⟨80, 24⟩ rfl rfl)
  have switched := (resized.next (.press rfl rfl)).next (.draw default ⟨80, 24⟩ rfl rfl)
  have left := switched.next (.press rfl rfl)
  obtain ⟨_, all, _, _, _, _, same, runs⟩ := keys_until_quit rfl left
  obtain ⟨past', _, _, _, handled, drawn, _⟩ := runs ⟨80, 24⟩ default Edited.onTerminal Edited.terminal rfl rfl
  have four : (drawings past').length = 4 := by
    rw [drawn, List.length_map]
    rfl
  exact ⟨_, _, left, rfl, rfl, all rfl, same Edited.unlinked, past', handled, four, drawn⟩

end ProxyMonitor.Screen
