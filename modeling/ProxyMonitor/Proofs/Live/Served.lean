import ProxyMonitor.Proofs.Live.Run

/-! A view whose requests are all answered does not stop by itself: it takes a request without an outcome, or that it
is told to leave. -/
namespace ProxyMonitor.Live
open ProxyMonitor.Poll
variable {α : Type} {s : Session α} {now : Nat} {m : Move α}

/-- A reply that has an outcome for each request. -/
def Reply.Answers (reply : Reply α) : Prop :=
  ∀ request, (reply.outcome request).value.isSome

/-- A service all of whose replies have outcomes. -/
structure Service.Answers (service : Service α) : Prop where
  script : ∀ reply ∈ service.script, reply.Answers
  rest : service.rest.Answers

theorem Service.Answers.next {service : Service α} (h : service.Answers) :
    service.next.1.Answers ∧ service.next.2.Answers := by
  unfold Service.next
  split
  · exact ⟨h.rest, h⟩
  · rename_i reply script replies
    obtain ⟨first, later⟩ := List.forall_mem_cons.mp (replies ▸ h.script)
    exact ⟨first, later, h.rest⟩

namespace Session

/-- A view that is served stays, and whatever it waits for has an outcome. -/
structure Served (s : Session α) : Prop where
  alive : s.isStopped = false
  stays : s.leaving = false
  awaited : ∀ a, s.slot = .awaited a → a.outcome.isSome
  service : s.service.Answers

namespace Served

theorem mount {service : Service α} (answers : service.Answers) (endpoint : String) (location : Location)
    (schedule : Schedule) : (Session.mount endpoint location schedule service).value.Served :=
  ⟨rfl, rfl, nofun, answers⟩

theorem send (h : s.Served) (c : Command) : (s.send c).value.Served := by
  rw [Session.send, h.alive]
  exact ⟨h.alive, h.stays, h.awaited, h.service⟩

theorem event (h : s.Served) {e : Event α} (allowed : s.Allows (.event e)) : (s.make now (.event e)).value.Served := by
  obtain ⟨service, _, leaving⟩ : _ ∧ _ ∧ (s.make now (.event e)).value.leaving = s.leaving := s.react_unserved now e
  refine ⟨by simp [isStopped, make_running allowed], leaving.trans h.stays, fun a out => ?_, service ▸ h.service⟩
  rw [Session.make, react_slot] at out
  split at out
  · cases out
  · cases e with
    | opening | command | timer => exact h.awaited a out
    | response => cases out

theorem make (next : s.next? now = some m) (h : s.Served) : (s.make now m).value.Served := by
  have allowed : s.Allows m := allows_of_next? next
  cases next_of_next? next with
  | crash _ _ _ _ out _ unanswered =>
    have answered := h.awaited _ out
    rw [unanswered] at answered
    cases answered
  | leave _ _ leaving =>
    rw [h.stays] at leaving
    cases leaving
  | handOver =>
    obtain ⟨answers, service⟩ := h.service.next
    refine ⟨h.alive, h.stays, ?_, service⟩
    rintro _ ⟨⟩
    exact answers _
  | opening | command | timer | response => exact h.event allowed

theorem settle (h : s.Served) (now : Nat) : (s.settle now).value.Served :=
  settle_keeps make h

theorem advance (h : s.Served) (now target : Nat) : (s.advance now target).value.Served :=
  advance_keeps make h now target

end Served
end Session
end ProxyMonitor.Live
