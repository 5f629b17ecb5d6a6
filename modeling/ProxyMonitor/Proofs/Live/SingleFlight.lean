import ProxyMonitor.Proofs.Live.Run

/-! Single flight: a view has one request out at most, and each is answered before the next one is prepared. -/
namespace ProxyMonitor.Live
open ProxyMonitor.Poll
variable {α : Type} {past : List (Moment α)} {s : Session α} {now : Nat} {e : Event α}

theorem Slot.tag?_eq_none {slot : Slot α} : slot.tag? = none ↔ slot = .free := by
  cases slot <;> simp [tag?]

/-- The requests are numbered from one, they were answered in their order, and the one that was not yet is the
one that both the session and the scheduler know of. -/
structure Ordered (past : List (Moment α)) (s : Session α) : Prop where
  numbered : (requests past).map (·.tag.seq) = List.range' 1 s.view.scheduler.lastSeq
  slot : s.phase ≠ .ended → s.slot.tag? = s.view.scheduler.inFlight
  order : s.phase ≠ .ended →
    (requests past).map (·.tag) = (answers past).map Prod.fst ++ s.slot.tag?.toList
  answered : (answers past).map Prod.fst <+: (requests past).map (·.tag)

namespace Ordered

/-- An answer is for the request that is waited for. -/
theorem awaited (h : Ordered past s) {tag : Tag} {outcome : Except Failure (Answer α)}
    (allowed : s.Allows (.event (.response tag outcome))) : s.view.scheduler.inFlight = some tag := by
  obtain ⟨running, a, ha, rfl⟩ := allowed
  rw [← h.slot (by simp [running]), ha]
  rfl

/-- Whatever was answered, a request was out for it. -/
theorem asked (h : Ordered past s) {tag : Tag} (answered : tag ∈ (answers past).map Prod.fst) :
    ∃ r ∈ requests past, r.tag = tag :=
  List.mem_map.mp (h.answered.subset answered)

/-- What holds once the event is taken, before a request is prepared. -/
theorem taken (h : Ordered past s) (allowed : s.Allows (.event e)) (now : Nat) :
    (s.take e).slot.tag? = (s.view.react now e).value.2.scheduler.inFlight ∧
      (requests past).map (·.tag) =
        (answers (past ++ [⟨s, now, .event e⟩])).map Prod.fst ++ (s.take e).slot.tag?.toList := by
  have alive := Session.not_ended_of_allows allowed
  have slot := h.slot alive
  have order := h.order alive
  cases he : e.answer? with
  | none =>
    rw [Session.take_slot he, View.react_inFlight he]
    exact ⟨slot, by simpa [Moment.answer?, he] using order⟩
  | some answer =>
    cases e with
    | opening | command | timer => cases he
    | response tag outcome =>
      rw [View.react_answered (h.awaited allowed)]
      obtain ⟨_, a, ha, rfl⟩ := allowed
      rw [ha] at order
      exact ⟨rfl, by simpa [Moment.answer?, Event.answer?, Session.take, Slot.tag?] using order⟩

/-- A request is prepared only where none is out. -/
theorem free (h : Ordered past s) (allowed : s.Allows (.event e)) {r : Request}
    (hr : (s.view.handle now e).value.1 = some r) : (s.take e).slot = .free := by
  rw [← Slot.tag?_eq_none, (h.taken allowed now).1]
  exact (View.react_ready (View.handle_some hr).1).free

theorem react (h : Ordered past s) (allowed : s.Allows (.event e)) (now : Nat) :
    Ordered (past ++ [⟨s, now, .event e⟩]) (s.react now e).value := by
  obtain ⟨slot, order⟩ := h.taken allowed now
  have hlast := View.react_lastSeq s.view now e
  cases hr : (s.view.handle now e).value.1 with
  | none =>
    obtain ⟨_, hv⟩ := View.handle_none hr
    have hreq : requests (past ++ [⟨s, now, .event e⟩]) = requests past := by
      simp [Moment.request?, hr]
    have hslot : (s.react now e).value.slot = (s.take e).slot := by rw [Session.react_slot, hr]
    refine ⟨?_, fun _ => ?_, fun _ => ?_, ?_⟩
    · rw [hreq, Session.react_view, hv, hlast, h.numbered]
    · rw [hslot, Session.react_view, hv, slot]
    · rw [hreq, hslot, order]
    · rw [hreq, order]
      exact List.prefix_append _ _
  | some r =>
    obtain ⟨_, rfl, hv⟩ := View.handle_some hr
    have hreq : requests (past ++ [⟨s, now, .event e⟩]) =
        requests past ++ [(s.view.react now e).value.2.fetch.1] := by
      simp [Moment.request?, hr]
    have hslot : (s.react now e).value.slot = .outgoing (s.view.react now e).value.2.fetch.1 := by
      rw [Session.react_slot, hr]
    refine ⟨?_, fun _ => ?_, fun _ => ?_, ?_⟩
    · rw [hreq, List.map_append, h.numbered, Session.react_view, hv, ← hlast]
      exact (List.range'_1_concat.trans (by rw [Nat.add_comm]; rfl)).symm
    · rw [hslot, Session.react_view, hv]
      rfl
    · rw [hreq, hslot, List.map_append, order, h.free allowed hr]
      simp [Slot.tag?]
    · rw [hreq, List.map_append, order, List.append_assoc]
      exact List.prefix_append _ _

/-- What is no event neither prepares a request nor answers one. -/
theorem still (h : Ordered past s) {m : Move α} (hm : ∀ e, m ≠ .event e) (now : Nat) {t : Session α}
    (view : t.view.scheduler.lastSeq = s.view.scheduler.lastSeq)
    (slot : t.phase ≠ .ended → s.phase ≠ .ended ∧ t.slot.tag? = s.slot.tag? ∧
      t.view.scheduler.inFlight = s.view.scheduler.inFlight) :
    Ordered (past ++ [⟨s, now, m⟩]) t := by
  have hreq : requests (past ++ [⟨s, now, m⟩]) = requests past := by
    cases m with
    | event e => exact absurd rfl (hm e)
    | handOver | crash | leave => simp [Moment.request?]
  have hans : answers (past ++ [⟨s, now, m⟩]) = answers past := by
    cases m with
    | event e => exact absurd rfl (hm e)
    | handOver | crash | leave => simp [Moment.answer?]
  refine ⟨?_, fun alive => ?_, fun alive => ?_, ?_⟩
  · rw [hreq, view, h.numbered]
  · obtain ⟨before, htag, hview⟩ := slot alive
    rw [htag, hview, h.slot before]
  · obtain ⟨before, htag, _⟩ := slot alive
    rw [hreq, hans, htag, h.order before]
  · rw [hreq, hans]
    exact h.answered

end Ordered

section Mounted
variable {endpoint : String} {location : Location} {schedule : Schedule} {service : Service α}

theorem Run.ordered (run : Run (Session.mount endpoint location schedule service).value past s) :
    Ordered past s := by
  induction run with
  | start => exact ⟨rfl, fun _ => rfl, fun _ => rfl, List.prefix_rfl⟩
  | ask _ asked ih =>
    obtain ⟨_, _, _, rfl⟩ := asked.eq_with
    exact ⟨ih.numbered, ih.slot, ih.order, ih.answered⟩
  | @make past s now m run allowed ih =>
    cases m with
    | event e => exact ih.react allowed now
    | handOver request =>
      have hslot : s.slot = .outgoing request := allowed.2
      exact ih.still (by simp) now rfl fun alive => ⟨alive, by rw [hslot]; rfl, rfl⟩
    | crash =>
      have running : s.phase = .running := allowed.1
      exact ih.still (by simp) now rfl fun _ => ⟨by simp [running], rfl, rfl⟩
    | leave => exact ih.still (by simp) now rfl fun alive => absurd rfl alive

/-- Until a view has ended, the place for its request is taken exactly when its scheduler has a request out, by
the same one. A request goes out only where that place is free, so that each was answered before the next one;
they are numbered from one; and no response comes that the scheduler does not wait for. -/
theorem single_flight (run : Run (Session.mount endpoint location schedule service).value past s) :
    (s.phase ≠ .ended → s.slot.tag? = s.view.scheduler.inFlight ∧
      (s.slot = .free ↔ s.view.scheduler.inFlight = none) ∧
      (requests past).map (·.tag) = (answers past).map Prod.fst ++ s.slot.tag?.toList) ∧
    (requests past).map (·.tag.seq) = List.range' 1 (requests past).length ∧
    (∀ m ∈ past, ∀ e, m.move = .event e → m.request?.isSome → (m.before.take e).slot = .free) ∧
    ∀ m ∈ past, ∀ tag outcome, m.move = .event (.response tag outcome) →
      m.before.view.scheduler.inFlight = some tag := by
  have ordered := run.ordered
  refine ⟨fun alive => ⟨ordered.slot alive, ?_, ordered.order alive⟩, ?_, ?_, ?_⟩
  · rw [← Slot.tag?_eq_none, ordered.slot alive]
  · have hlen : (requests past).length = s.view.scheduler.lastSeq := by
      simpa using congrArg List.length ordered.numbered
    rw [hlen, ordered.numbered]
  · intro m hm e he hr
    obtain ⟨r, hr⟩ := Option.isSome_iff_exists.mp hr
    obtain ⟨earlier, before, allowed, _⟩ := run.moment hm
    rw [he] at allowed
    exact before.ordered.free allowed (by simpa [Moment.request?, he] using hr)
  · intro m hm tag outcome he
    obtain ⟨earlier, before, allowed, _⟩ := run.moment hm
    rw [he] at allowed
    exact before.ordered.awaited allowed

end Mounted

/-- Two requests, the second of them after the answer to the first. -/
theorem single_flight_edited : Run Edited.start Edited.past Edited.last ∧ Edited.last.phase ≠ .ended ∧
    Edited.last.slot.tag? = Edited.last.view.scheduler.inFlight ∧
    (requests Edited.past).map (·.tag) = [⟨1, ""⟩, ⟨2, "a"⟩] ∧
    (answers Edited.past).map Prod.fst = [⟨1, ""⟩, ⟨2, "a"⟩] := by
  have alive : Edited.last.phase ≠ .ended := by decide
  obtain ⟨slot, _, order⟩ := (single_flight Edited.run).1 alive
  exact ⟨Edited.run, alive, slot, by rw [order]; rfl, rfl⟩

end ProxyMonitor.Live
