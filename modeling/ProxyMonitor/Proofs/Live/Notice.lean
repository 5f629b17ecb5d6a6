import Mathlib.Data.List.DropRight
import ProxyMonitor.Proofs.Live.Run

/-! Nobody who asks a view for what is new misses anything, whenever they ask, wait or give up. The view counts what it
publishes, and who asks keeps the count up to which they were told. -/
namespace ProxyMonitor.Live
open ProxyMonitor.Poll
variable {α : Type}

/-- What the move does to the view. -/
def Moment.revise (m : Moment α) (v : View α) : View α :=
  match m.move with
  | .event e => (v.handle m.now e).value.2
  | .leave => v.shutdown.value
  | .handOver _ | .crash => v

/-- Whether the move is an event that is handled, or the end of the view. -/
def Moment.handles (m : Moment α) : Bool :=
  match m.move with
  | .event _ | .leave => true
  | .handOver _ | .crash => false

/-- Whether the view makes no move after this one. -/
def Moment.stops (m : Moment α) : Bool :=
  match m.move with
  | .leave | .crash => true
  | .event _ | .handOver _ => false

/-- What happens to a view and whoever watches it: the view makes a move; a question for what is new is answered, and what is
shown is read; it is not answered yet, and may be given up; or the view is dropped. -/
inductive Happening (α : Type) where
  | moved (m : Moment α)
  | answered (isNew : Bool) (read : View α)
  | waited
  | dropped

namespace Happening

/-- An event was handled completely. -/
def isEvent : Happening α → Bool
  | .moved m => m.handles
  | _ => false

def stops : Happening α → Bool
  | .moved m => m.stops
  | .dropped => true
  | _ => false

def isNews : Happening α → Bool
  | .answered isNew _ => isNew
  | _ => false

def revise : Happening α → View α → View α
  | .moved m => m.revise
  | _ => id

/-- Who reads what is shown when told that it is new has this after it. -/
def reread : Happening α → View α → View α
  | .answered true read => fun _ => read
  | _ => id

end Happening

theorem Happening.revise_of_not_event (x : Happening α) (h : x.isEvent = false) : x.revise = id := by
  cases x with
  | moved m =>
    obtain ⟨s, now, move⟩ := m
    cases move with
    | handOver | crash => rfl
    | event | leave => cases h
  | answered | waited | dropped => rfl

theorem Happening.reread_of_not_news (x : Happening α) (h : x.isNews = false) : x.reread = id := by
  cases x with
  | answered isNew read =>
    cases isNew with
    | false => rfl
    | true => cases h
  | moved | waited | dropped => rfl

/-- What has happened since there was something new last. -/
def sinceNews (past : List (Happening α)) : List (Happening α) :=
  past.rtakeWhile (!·.isNews)

/-- The view after the events, handled one after the other. -/
def revised (first : View α) (past : List (Happening α)) : View α :=
  past.foldl (fun v x => x.revise v) first

/-- What they have who read at first and whenever there was something new. -/
def lastRead (first : View α) (past : List (Happening α)) : View α :=
  past.foldl (fun v x => x.reread v) first

namespace Session
variable {s t : Session α} {now : Nat}

/-- What is there to tell at this moment: that there is something new, which counts as told then, or that there will be
nothing new any more. Without an answer there is something to wait for. -/
def look (s : Session α) : Option Bool × Session α :=
  if s.seen < s.published then (some true, { s with seen := s.published })
  else if s.isStopped then (some false, s)
  else (none, s)

theorem look_new (h : s.seen < s.published) : s.look = (some true, { s with seen := s.published }) :=
  if_pos h

theorem look_stopped (told : ¬ s.seen < s.published) (stopped : s.isStopped = true) : s.look = (some false, s) := by
  rw [look, if_neg told, if_pos stopped]

theorem look_waiting (told : ¬ s.seen < s.published) (goes : s.isStopped = false) : s.look = (none, s) := by
  rw [look, if_neg told, goes]
  rfl

/-- The three ways to look. -/
theorem look_cases (s : Session α) :
    (s.seen < s.published ∧ s.look = (some true, { s with seen := s.published })) ∨
    (¬ s.seen < s.published ∧ s.isStopped = true ∧ s.look = (some false, s)) ∨
    (¬ s.seen < s.published ∧ s.isStopped = false ∧ s.look = (none, s)) := by
  by_cases new : s.seen < s.published
  · exact .inl ⟨new, look_new new⟩
  · cases stopped : s.isStopped with
    | true => exact .inr (.inl ⟨new, rfl, look_stopped new stopped⟩)
    | false => exact .inr (.inr ⟨new, rfl, look_waiting new stopped⟩)

/-- The view is dropped: it is not heard of any more. -/
def drop (s : Session α) : Session α :=
  { s with phase := .ended, slot := .free }

/-- What may happen at a moment. -/
inductive Happens (s : Session α) : Happening α → Session α → Prop where
  | moved (now : Nat) (m : Move α) (allowed : s.Allows m) : s.Happens (.moved ⟨s, now, m⟩) (s.make now m).value
  | answered {isNew : Bool} {t : Session α} (look : s.look = (some isNew, t)) : s.Happens (.answered isNew t.shown) t
  | waited (look : s.look.1 = none) : s.Happens .waited s
  | dropped : s.Happens .dropped s.drop

theorem make_published (s : Session α) (now : Nat) (m : Move α) :
    (s.make now m).value.published = s.published + (Moment.mk s now m).handles.toNat := by
  cases m with
  | event e => rw [make, react_eq]; cases e <;> rfl
  | handOver | crash | leave => rfl

theorem make_seen (s : Session α) (now : Nat) (m : Move α) : (s.make now m).value.seen = s.seen := by
  cases m with
  | event e => rw [make, react_eq]; cases e <;> rfl
  | handOver | crash | leave => rfl

theorem make_view (s : Session α) (now : Nat) (m : Move α) :
    (s.make now m).value.view = (Moment.mk s now m).revise s.view := by
  cases m with
  | event e => rw [make, react_view]; rfl
  | handOver | crash | leave => rfl

theorem make_shown (s : Session α) (now : Nat) (m : Move α) (h : s.shown = s.view) :
    (s.make now m).value.shown = (s.make now m).value.view := by
  cases m with
  | event e => rw [make, react_shown, react_view]
  | handOver | crash => exact h
  | leave => rfl

theorem make_isStopped {m : Move α} (allowed : s.Allows m) (now : Nat) :
    (s.make now m).value.isStopped = (Moment.mk s now m).stops := by
  cases m with
  | event e => rw [isStopped, make_running allowed]; rfl
  | handOver request =>
    have running : (s.make now (.handOver request)).value.phase = .running := allowed.1
    rw [isStopped, running]
    rfl
  | crash | leave => rfl

end Session

/-- What has happened to a session whoever asks for what is new, and whenever: the view makes its moves and commands are
given to it in between. -/
inductive Watched (start : Session α) : List (Happening α) → Session α → Prop where
  | start : Watched start [] start
  | send {past : List (Happening α)} {s : Session α} (c : Command) :
      Watched start past s → Watched start past (s.send c).value
  | unmount {past : List (Happening α)} {s : Session α} :
      Watched start past s → Watched start past { s with leaving := true }
  | next {past : List (Happening α)} {s t : Session α} {x : Happening α} :
      Watched start past s → s.Happens x t → Watched start (past ++ [x]) t

section Concat
variable (past : List (Happening α)) (x : Happening α)

theorem sinceNews_concat : sinceNews (past ++ [x]) = if x.isNews then [] else sinceNews past ++ [x] := by
  unfold sinceNews
  rw [List.rtakeWhile_concat]
  cases x.isNews <;> rfl

theorem revised_concat (first : View α) : revised first (past ++ [x]) = x.revise (revised first past) := by
  simp [revised]

theorem revised_still (first : View α) {after : List (Happening α)} (still : ∀ x ∈ after, x.isEvent = false) :
    revised first (past ++ after) = revised first past := by
  induction after generalizing past with
  | nil => rw [List.append_nil]
  | cons x after ih =>
    obtain ⟨now, later⟩ := List.forall_mem_cons.mp still
    rw [List.append_cons, ih (past ++ [x]) later, revised_concat, x.revise_of_not_event now, id_eq]

theorem lastRead_concat (first : View α) : lastRead first (past ++ [x]) = x.reread (lastRead first past) := by
  simp [lastRead]

end Concat

/-- What is known of a session by what has happened: how much of what it published is not told yet, what it shows, whether it
has stopped, and that who reads everything new has what is shown once they were told. -/
structure Session.Told (first : View α) (past : List (Happening α)) (s : Session α) : Prop where
  count : s.published = s.seen + (sinceNews past).countP Happening.isEvent
  view : s.view = revised first past
  shown : s.shown = s.view
  stopped : s.isStopped = past.any Happening.stops
  read : (∀ x ∈ sinceNews past, x.isEvent = false) → lastRead first past = s.shown

namespace Session
variable {first : View α} {past : List (Happening α)} {s t : Session α} {x : Happening α}

theorem Told.look_new_iff (h : s.Told first past) : s.seen < s.published ↔ ∃ x ∈ sinceNews past, x.isEvent = true := by
  rw [h.count, ← List.countP_pos_iff]
  omega

theorem Told.unheard (h : s.Told first past) (told : ¬ s.seen < s.published) :
    ∀ x ∈ sinceNews past, x.isEvent = false := by
  intro x hx
  rw [h.look_new_iff] at told
  by_contra event
  exact told ⟨x, hx, by simpa using event⟩

theorem told_mount (endpoint : String) (location : Location) (schedule : Schedule) (service : Service α) :
    (Session.mount endpoint location schedule service).value.Told (.start endpoint location schedule) [] :=
  ⟨rfl, rfl, rfl, rfl, fun _ => rfl⟩

/-- Whatever tells nothing new. -/
theorem Told.quiet (h : s.Told first past) (quiet : x.isNews = false)
    (published : t.published = s.published + x.isEvent.toNat) (seen : t.seen = s.seen) (view : t.view = x.revise s.view)
    (shown : t.shown = t.view) (stopped : t.isStopped = (s.isStopped || x.stops)) : t.Told first (past ++ [x]) := by
  have since : sinceNews (past ++ [x]) = sinceNews past ++ [x] := by
    rw [sinceNews_concat, quiet]
    rfl
  refine ⟨?_, ?_, shown, ?_, fun unheard => ?_⟩
  · rw [published, seen, since, h.count, List.countP_append, List.countP_singleton, Nat.add_assoc]
    cases x.isEvent <;> rfl
  · rw [view, revised_concat, h.view]
  · rw [stopped, h.stopped, List.any_append]
    simp
  · rw [since, List.forall_mem_append] at unheard
    obtain ⟨before, now⟩ := unheard
    have same : t.shown = s.shown := by
      rw [shown, view, x.revise_of_not_event (now x (List.mem_singleton_self x)), h.shown, id_eq]
    rw [lastRead_concat, x.reread_of_not_news quiet, h.read before, same, id_eq]

theorem Told.send (h : s.Told first past) (c : Command) : (s.send c).value.Told first past := by
  unfold Session.send
  split
  · exact h
  · exact ⟨h.count, h.view, h.shown, h.stopped, h.read⟩

theorem Told.next (h : s.Told first past) (next : s.Happens x t) : t.Told first (past ++ [x]) := by
  cases next with
  | moved now m allowed =>
    refine h.quiet rfl (make_published s now m) (make_seen s now m) (make_view s now m) (make_shown s now m h.shown) ?_
    rw [make_isStopped allowed, isStopped_of_allows allowed]
    rfl
  | @answered isNew t look =>
    rcases s.look_cases with ⟨new, found⟩ | ⟨told, stopped, found⟩ | ⟨_, _, found⟩
    · rw [found] at look
      cases look
      refine ⟨?_, ?_, h.shown, ?_, fun _ => ?_⟩
      · rw [sinceNews_concat]
        rfl
      · rw [revised_concat, ← h.view]
        rfl
      · rw [List.any_append, ← h.stopped]
        exact (Bool.or_false _).symm
      · rw [lastRead_concat]
        rfl
    · rw [found] at look
      cases look
      exact h.quiet rfl rfl rfl rfl h.shown (Bool.or_false _).symm
    · rw [found] at look
      cases look
  | waited look => exact h.quiet rfl rfl rfl rfl h.shown (Bool.or_false _).symm
  | dropped => exact h.quiet rfl rfl rfl rfl h.shown (Bool.or_true _).symm

end Session

namespace Watched
variable {start s : Session α} {past : List (Happening α)}

section Mounted
variable {endpoint : String} {location : Location} {schedule : Schedule} {service : Service α}

theorem told (watched : Watched (Session.mount endpoint location schedule service).value past s) :
    s.Told (.start endpoint location schedule) past := by
  induction watched with
  | start => exact Session.told_mount endpoint location schedule service
  | send c _ ih => exact ih.send c
  | unmount _ ih => exact ⟨ih.count, ih.view, ih.shown, ih.stopped, ih.read⟩
  | next _ happens ih => exact ih.next happens

end Mounted

/-- Everything that happened did so at a moment to which the rest before it led. -/
theorem moment (watched : Watched start past s) {before after : List (Happening α)} {x : Happening α}
    (h : past = before ++ x :: after) : ∃ t u, Watched start before t ∧ t.Happens x u := by
  induction watched generalizing after with
  | start => simp at h
  | send _ _ ih | unmount _ ih => exact ih h
  | @next past s t y watched happens ih =>
    rcases split_concat h with ⟨rfl, rfl, rfl⟩ | ⟨rest, rfl, same⟩
    · exact ⟨_, _, watched, happens⟩
    · exact ih same

/-- The moves that are made at an instant are among what happens. -/
theorem settle (watched : Watched start past s) (now : Nat) :
    ∃ moves : List (Moment α), Watched start (past ++ moves.map .moved) (s.settle now).value := by
  refine Session.settle_keeps (motive := fun t => ∃ moves : List (Moment α), Watched start (past ++ moves.map .moved) t) ?_
    ⟨[], by simpa using watched⟩
  rintro t m next ⟨moves, watched⟩
  refine ⟨moves ++ [⟨t, now, m⟩], ?_⟩
  simpa using watched.next (.moved now m (Session.allows_of_next? next))

/-- What becomes of a wait: an answer, or none before the limit. -/
def ending (r : Option Bool × Nat × Session α) : Happening α :=
  match r.1 with
  | some isNew => .answered isNew r.2.2.shown
  | none => .waited

/-- To wait for what is new is to ask for it while the view makes its moves. -/
theorem changed (watched : Watched start past s) (now limit : Nat) :
    ∃ moves : List (Moment α),
      Watched start (past ++ moves.map .moved ++ [ending (s.changed now limit).value]) (s.changed now limit).value.2.2 := by
  -- A wait starts over at a later time, so that the induction is on the time that is left.
  induction left : limit - now using Nat.strong_induction_on generalizing past s now with
  | _ n ih =>
    have look {past : List (Happening α)} {s : Session α} (watched : Watched start past s) {isNew : Bool} {t : Session α}
        (found : s.look = (some isNew, t)) : Watched start (past ++ [.answered isNew t.shown]) t :=
      watched.next (.answered found)
    rw [Session.changed]
    split
    · rename_i new
      refine ⟨[], ?_⟩
      rw [List.map_nil, List.append_nil]
      exact look watched (Session.look_new new)
    · rename_i told
      split
      · rename_i stopped
        refine ⟨[], ?_⟩
        rw [List.map_nil, List.append_nil]
        exact look watched (Session.look_stopped told stopped)
      · obtain ⟨moves, settled⟩ := watched.settle now
        rw [Logged.value_bind]
        split
        · rename_i new
          exact ⟨moves, look settled (Session.look_new new)⟩
        · rename_i told
          split
          · rename_i stopped
            exact ⟨moves, look settled (Session.look_stopped told stopped)⟩
          · rename_i goes
            have waits := settled.next (.waited (congrArg Prod.fst (Session.look_waiting told (by simpa using goes))))
            split
            · rename_i t _
              split
              · rename_i later
                obtain ⟨rest, hr⟩ := ih (limit - t) (by omega) settled t rfl
                exact ⟨moves ++ rest, by simpa using hr⟩
              · exact ⟨moves, waits⟩
            · exact ⟨moves, waits⟩

section Mounted
variable {endpoint : String} {location : Location} {schedule : Schedule} {service : Service α}

/-- After its end no event is handled. -/
theorem still (watched : Watched (Session.mount endpoint location schedule service).value past s)
    {before after : List (Happening α)} (h : past = before ++ after) (stopped : ∃ x ∈ before, x.stops = true) :
    ∀ x ∈ after, x.isEvent = false := by
  intro x hx
  obtain ⟨a, b, rfl⟩ := List.append_of_mem hx
  obtain ⟨t, u, reached, happens⟩ := watched.moment (h.trans (List.append_assoc before a (x :: b)).symm)
  cases happens with
  | answered | waited | dropped => rfl
  | moved now m allowed =>
    have gone : t.isStopped = true := by
      obtain ⟨y, hy, stops⟩ := stopped
      rw [reached.told.stopped, List.any_eq_true]
      exact ⟨y, List.mem_append_left a hy, stops⟩
    rw [Session.isStopped_of_allows allowed] at gone
    cases gone

/-- No change goes unnoticed, whatever a view does and whenever it is asked for what is new. The answer is that there is
something exactly if an event was handled completely since there was something last; what is shown then comes of all events
so far. It is that there is nothing only after the view has stopped; whoever read what was shown at first and whenever there
was something new has what was published last, since no event follows. A question without an answer has nothing to tell, and
leaves everything to the next one. Once the view has stopped there is an answer, and after something new there is nothing.
The wait for what is new is such a question, asked while the view makes its moves. -/
theorem no_change_unnoticed (watched : Watched (Session.mount endpoint location schedule service).value past s) :
    (∀ before isNew read after, past = before ++ .answered isNew read :: after →
      (isNew = true ↔ ∃ x ∈ sinceNews before, x.isEvent = true) ∧
      read = revised (.start endpoint location schedule) before ∧
      (isNew = false → (∃ x ∈ before, x.stops = true) ∧
        lastRead (.start endpoint location schedule) before = s.shown ∧ ∀ x ∈ after, x.isEvent = false)) ∧
    (∀ before after, past = before ++ .waited :: after →
      (∀ x ∈ sinceNews before, x.isEvent = false) ∧ ∀ x ∈ before, x.stops = false) ∧
    s.shown = revised (.start endpoint location schedule) past ∧
    ((∃ x ∈ past, x.stops = true) →
      ∃ isNew, s.look.1 = some isNew ∧ (isNew = true → s.look.2.look.1 = some false)) ∧
    ∀ now limit, ∃ moves : List (Moment α),
      Watched (Session.mount endpoint location schedule service).value
        (past ++ moves.map .moved ++ [ending (s.changed now limit).value]) (s.changed now limit).value.2.2 := by
  refine ⟨fun before isNew read after h => ?_, fun before after h => ?_, watched.told.shown.trans watched.told.view, ?_,
    watched.changed⟩
  · obtain ⟨t, u, reached, happens⟩ := watched.moment h
    have told := reached.told
    have read_eq : t.shown = revised (.start endpoint location schedule) before := told.shown.trans told.view
    cases happens with
    | answered look =>
      rcases t.look_cases with ⟨new, found⟩ | ⟨heard, stopped, found⟩ | ⟨_, _, found⟩
      · rw [found] at look
        cases look
        exact ⟨iff_of_true rfl (told.look_new_iff.mp new), read_eq, nofun⟩
      · rw [found] at look
        cases look
        rw [told.stopped, List.any_eq_true] at stopped
        have still := watched.still h stopped
        have last : s.shown = revised (.start endpoint location schedule) before := by
          rw [watched.told.shown, watched.told.view, h, revised_still _ _ still]
        refine ⟨iff_of_false nofun (told.look_new_iff.not.mp heard), read_eq, fun _ => ⟨stopped, ?_, ?_⟩⟩
        · rw [told.read (told.unheard heard), read_eq, last]
        · exact fun x hx => still x (List.mem_cons_of_mem _ hx)
      · rw [found] at look
        cases look
  · obtain ⟨t, u, reached, happens⟩ := watched.moment h
    have told := reached.told
    cases happens with
    | waited look =>
      rcases t.look_cases with ⟨_, found⟩ | ⟨_, _, found⟩ | ⟨heard, goes, _⟩
      · rw [found] at look
        cases look
      · rw [found] at look
        cases look
      · rw [told.stopped, List.any_eq_false] at goes
        exact ⟨told.unheard heard, fun x hx => by simpa using goes x hx⟩
  · intro stops
    have stopped : s.isStopped = true := by
      rw [watched.told.stopped, List.any_eq_true]
      exact stops
    by_cases new : s.seen < s.published
    · rw [Session.look_new new]
      have last := Session.look_stopped (s := { s with seen := s.published }) (Nat.lt_irrefl _) stopped
      exact ⟨true, rfl, fun _ => congrArg Prod.fst last⟩
    · rw [Session.look_stopped new stopped]
      exact ⟨false, rfl, nofun⟩

/-- Who gives up the first question is told of the opening, of the request that goes out and, after a crash, of the end. -/
theorem no_change_unnoticed_crashed :
    ∃ (before : List (Happening Unit)) (s : Session Unit), Watched Edited.start (before ++ [.answered false s.shown]) s ∧
      before.map Happening.isNews = [false, false, true, false, false, false, true, false] ∧
      (∃ x ∈ before, x.stops = true) ∧
      lastRead (.start "/api/history" ⟨"/history", []⟩ ⟨500, 2000⟩) before = s.shown := by
  have asked : Watched Edited.start [.waited] Edited.start := .next .start (.waited rfl)
  have opened := asked.next (.moved 0 (.event .opening) rfl)
  have told := (opened.next (.answered rfl)).next (.waited rfl)
  have sent := told.next (.moved 500 (.event (.timer .debounce)) ⟨rfl, rfl⟩)
  have out := sent.next (.moved 500 (.handOver ⟨"/api/history", [], ⟨1, ""⟩⟩) ⟨rfl, rfl⟩)
  have crashed := (out.next (.answered rfl)).next (.moved 700 .crash ⟨rfl, _, rfl⟩)
  have ended := crashed.next (.answered rfl)
  obtain ⟨answers, _⟩ := no_change_unnoticed ended
  obtain ⟨stops, last, _⟩ := (answers _ false _ [] rfl).2.2 rfl
  exact ⟨_, _, ended, rfl, stops, last⟩

end Mounted
end Watched
end ProxyMonitor.Live
