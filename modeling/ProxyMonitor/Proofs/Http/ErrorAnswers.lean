import ProxyMonitor.Http.Client
import ProxyMonitor.Proofs.Json.Fields

/-! What an error answer says: the message of its body where there is one, and the text of its status otherwise. Whoever
asked for records and whoever deleted one are told the same. -/
namespace ProxyMonitor

namespace Json

theorem filter_eq_singleton_iff {name : String} {d : Doc} {given : List (String × Doc)} :
    given.filter (·.1 == name) = [(name, d)] ↔ given.lookup name = some d ∧ given.countP (·.1 == name) ≤ 1 := by
  induction given with
  | nil => simp
  | cons first rest ih =>
    obtain ⟨other, e⟩ := first
    by_cases same : other = name
    · subst same
      have none : rest.filter (·.1 == other) = [] ↔ rest.countP (·.1 == other) = 0 := by
        rw [List.countP_eq_length_filter, List.length_eq_zero_iff]
      rw [List.filter_cons_of_pos (by simp), List.lookup_cons_self, List.countP_cons_of_pos (by simp), List.cons.injEq, none]
      simp
    · have skipped : List.lookup name ((other, e) :: rest) = rest.lookup name := by
        rw [List.lookup_cons, beq_false_of_ne (Ne.symm same)]
      rw [List.filter_cons_of_neg (by simpa using same), List.countP_cons_of_neg (by simpa using same), skipped, ih]

/-- A document with a message: an object that has one member of this name, whatever else is in it, or a list of the message
alone. -/
inductive Doc.Tells (message : String) : Doc → Prop where
  | member {members : List (List StringUnit × Doc)} {given : List (String × Doc)} {units : List StringUnit}
      (named : Decoder.members members = some given)
      (once : given.filter (·.1 == "Message") = [("Message", .text units)])
      (text : StringUnit.decode units = some message.toList) : Tells message (.object members)
  | item {units : List StringUnit} (text : StringUnit.decode units = some message.toList) :
      Tells message (.array [.text units])

namespace Decoder

theorem text_eq_some {depth : Nat} {d : Doc} {s : String} :
    text depth d = some s ↔ ∃ units, d = .text units ∧ StringUnit.decode units = some s.toList := by
  cases d with
  | text units =>
    rw [text, Option.map_eq_some_iff]
    constructor
    · rintro ⟨chars, decoded, rfl⟩
      exact ⟨units, rfl, by rw [decoded, String.toList_ofList]⟩
    · rintro ⟨_, ⟨⟩, decoded⟩
      exact ⟨s.toList, decoded, String.ofList_toList⟩
  | null | bool | number | array | object => simp [text]

theorem required_text {parts : Nat × (String → Option Doc)} {name s : String} :
    required parts name text = some s ↔
      ∃ units, parts.2 name = some (.text units) ∧ StringUnit.decode units = some s.toList := by
  rw [required, Option.bind_eq_some_iff]
  constructor
  · rintro ⟨part, found, read⟩
    obtain ⟨units, rfl, decoded⟩ := text_eq_some.mp read
    exact ⟨units, found, decoded⟩
  · rintro ⟨units, found, decoded⟩
    exact ⟨_, found, text_eq_some.mpr ⟨units, rfl, decoded⟩⟩

end Decoder
end Json

open ProxyMonitor.Json ProxyMonitor.Http

/-- What an error answer says: the message of its body, or the text of the status where the body has none or an empty one. -/
def Http.Status.Says (status : Status) (body : List UInt8) (message : String) : Prop :=
  (message ≠ "" ∧ ∃ d, Doc.read body = some d ∧ d.Tells message) ∨
    message = status.text ∧ ∀ d other, Doc.read body = some d → d.Tells other → other = ""

theorem Http.Status.reason?_ne_empty {s : Status} {reason : String} (h : s.reason? = some reason) : reason ≠ "" := by
  unfold reason? at h
  split at h
  all_goals cases h
  all_goals decide

/-- There is something to say about every status. -/
theorem Http.Status.text_ne_empty (s : Status) : s.text ≠ "" := by
  unfold text
  cases known : s.reason? with
  | some reason => exact reason?_ne_empty known
  | none =>
    intro empty
    have chars := congrArg String.toList empty
    simp at chars

namespace Answer
variable {status : Status} {body : List UInt8} {message : String}

theorem decodeMessage_eq_some {d : Doc} : decodeMessage depthLimit d = some message ↔ d.Tells message := by
  have known : "Message" ∈ ["Message"] := List.mem_singleton_self _
  have part (inner : Nat) (given : List (String × Doc)) :
      (inner, fun n => if n ∈ ["Message"] then given.lookup n else none).2 "Message" = given.lookup "Message" := by
    dsimp only
    rw [if_pos known]
  have decode : decodeMessage depthLimit d = some message ↔
      ∃ parts, Decoder.fields ["Message"] depthLimit d = some parts ∧
        Decoder.required parts "Message" Decoder.text = some message := Option.bind_eq_some_iff
  rw [decode]
  constructor
  · rintro ⟨parts, given, read⟩
    obtain ⟨units, found, decoded⟩ := Decoder.required_text.mp read
    cases d with
    | object members =>
      obtain ⟨_, written, _, named, once, rfl⟩ := Decoder.fields_object.mp given
      exact .member named (filter_eq_singleton_iff.mpr ⟨(part _ _).symm.trans found, once _ known⟩) decoded
    | array items =>
      obtain ⟨_, _, short, rfl⟩ := Decoder.fields_array.mp given
      match items, short, found with
      | [], _, found => cases found
      | [item], _, found =>
        have found : some item = some (.text units) := found
        cases found
        exact .item decoded
    | null | bool | number | text => cases given
  · rintro (⟨named, once, decoded⟩ | ⟨decoded⟩)
    · obtain ⟨found, once⟩ := filter_eq_singleton_iff.mp once
      refine ⟨_, Decoder.fields_object.mpr ⟨127, _, rfl, named, by simpa using once, rfl⟩, ?_⟩
      exact Decoder.required_text.mpr ⟨_, (part _ _).trans found, decoded⟩
    · exact ⟨_, Decoder.fields_array.mpr ⟨127, rfl, Nat.le_refl _, rfl⟩, Decoder.required_text.mpr ⟨_, rfl, decoded⟩⟩

theorem run_decodeMessage :
    Decoder.run decodeMessage body = some message ↔ ∃ d, Doc.read body = some d ∧ d.Tells message := by
  rw [Decoder.run, Option.bind_eq_some_iff]
  exact exists_congr fun d => and_congr_right fun _ => decodeMessage_eq_some

theorem failureOf_says (status : Status) (body : List UInt8) :
    ∃ message, message ≠ "" ∧ status.Says body message ∧ failureOf status body = .application status.code message := by
  unfold failureOf
  cases read : Decoder.run decodeMessage body with
  | none =>
    refine ⟨status.text, status.text_ne_empty, .inr ⟨rfl, fun d other at_d tells => ?_⟩, rfl⟩
    rw [run_decodeMessage.mpr ⟨d, at_d, tells⟩] at read
    cases read
  | some message =>
    by_cases empty : message = ""
    · subst empty
      refine ⟨status.text, status.text_ne_empty, .inr ⟨rfl, fun d other at_d tells => ?_⟩, rfl⟩
      exact Option.some.inj ((run_decodeMessage.mpr ⟨d, at_d, tells⟩).symm.trans read)
    · refine ⟨message, empty, .inl ⟨empty, run_decodeMessage.mp read⟩, ?_⟩
      simp [empty]

theorem message_undecodable (problem : String) :
    "could not decode response: ".toList <+: (Failure.transport (.undecodable problem)).message.toList := by
  have words : (Failure.transport (.undecodable problem)).message = "could not decode response: " ++ problem := rfl
  rw [words, String.toList_append]
  exact List.prefix_append _ _

/-- An answer is read, or found to be undecodable, exactly if its status is one of success. -/
theorem isSuccess_iff {α : Type} (record : Decoder α) (status : Status) (body : List UInt8) :
    status.isSuccess = true ↔
      (∃ a, ofResponse record status body = .ok a) ∨
      ∃ cause, ofResponse record status body = .error (.transport cause) ∧
        "could not decode response: ".toList <+: (Failure.transport cause).message.toList := by
  unfold ofResponse
  cases success : status.isSuccess with
  | true =>
    cases Decoder.run (decode record) body with
    | some a => exact iff_of_true rfl (.inl ⟨a, rfl⟩)
    | none => exact iff_of_true rfl (.inr ⟨_, rfl, message_undecodable _⟩)
  | false =>
    obtain ⟨message, _, _, failure⟩ := failureOf_says status body
    simp [failure]

end Answer

namespace Http.Client
variable {α : Type} {c : Client} {network : Network} {record : Decoder α} {r : Live.Request} {endpoint id : String} {u : Url}
  {status : Status} {body : List UInt8}

/-- What is made of the answer to a request for records. -/
theorem fetch_result (sent : (c.fetch network record r).value.sent = some (.get, u))
    (received : c.exchange network .get u = .ok (status, .ok body)) :
    (c.fetch network record r).value.result = Answer.ofResponse record status body := by
  unfold fetch at sent ⊢
  cases named : c.url r.endpoint with
  | error cause => rw [named] at sent; cases sent
  | ok base =>
    rw [named] at sent
    simp only [Logged.value_bind] at sent ⊢
    cases request : requested base (some r.params) with
    | error cause => rw [request] at sent; cases sent
    | ok target =>
      rw [request] at sent
      cases sent
      simp only [Logged.value_pure, received]
      rfl

/-- What is made of the answer to a deletion: its body counts only where the status is no success. -/
theorem delete_result {received : Except TransportCause (List UInt8)}
    (sent : (c.delete network endpoint id).value.sent = some (.delete, u))
    (answered : c.exchange network .delete u = .ok (status, received)) :
    (c.delete network endpoint id).value.result =
      if status.isSuccess then .ok ()
      else (received.mapError .transport).bind fun body => .error (Answer.failureOf status body) := by
  unfold delete at sent ⊢
  cases named : c.url endpoint with
  | error cause => rw [named] at sent; cases sent
  | ok base =>
    rw [named] at sent
    dsimp only at sent ⊢
    cases pushed : base.pushSegment? id.toList with
    | none => rw [pushed] at sent; cases sent
    | some longer =>
      rw [pushed] at sent
      simp only [Logged.value_bind] at sent ⊢
      cases request : requested longer none with
      | error cause => rw [request] at sent; cases sent
      | ok target =>
        rw [request] at sent
        cases sent
        simp only [Logged.value_pure, answered]
        rfl

/-- Error answers keep their meaning. An answer is read, or found to be undecodable, exactly if its status is one of success.
With any other status the request for records and the deletion that get it fail alike, with the status and with something
to say: the message of the body, or the text of the status where the body has none or an empty one. A deletion is done with
any status of success, whatever comes after it. -/
theorem error_answers_alike (c : Client) (network : Network) (record : Decoder α) (status : Status) (body : List UInt8) :
    (200 ≤ status.code ∧ status.code < 300 ↔
      (∃ a, Answer.ofResponse record status body = .ok a) ∨
      ∃ cause, Answer.ofResponse record status body = .error (.transport cause) ∧
        "could not decode response: ".toList <+: (Failure.transport cause).message.toList) ∧
    (¬ (200 ≤ status.code ∧ status.code < 300) →
      ∃ message, message ≠ "" ∧ status.Says body message ∧
        Answer.ofResponse record status body = .error (.application status.code message) ∧
        (∀ r u, (c.fetch network record r).value.sent = some (.get, u) →
          c.exchange network .get u = .ok (status, .ok body) →
          (c.fetch network record r).value.result = .error (.application status.code message)) ∧
        ∀ endpoint id u, (c.delete network endpoint id).value.sent = some (.delete, u) →
          c.exchange network .delete u = .ok (status, .ok body) →
          (c.delete network endpoint id).value.result = .error (.application status.code message)) ∧
    (200 ≤ status.code ∧ status.code < 300 →
      ∀ endpoint id u received, (c.delete network endpoint id).value.sent = some (.delete, u) →
        c.exchange network .delete u = .ok (status, received) → (c.delete network endpoint id).value.result = .ok ()) := by
  have success : status.isSuccess = true ↔ 200 ≤ status.code ∧ status.code < 300 := by simp [Status.isSuccess]
  refine ⟨success.symm.trans (Answer.isSuccess_iff record status body), fun failed => ?_, ?_⟩
  · have failed : ¬ status.isSuccess = true := fun done => failed (success.mp done)
    obtain ⟨message, some, said, failure⟩ := Answer.failureOf_says status body
    have response : Answer.ofResponse record status body = .error (.application status.code message) := by
      rw [Answer.ofResponse, if_neg failed, failure]
    refine ⟨message, some, said, response, fun r u sent received => ?_, fun endpoint id u sent received => ?_⟩
    · rw [fetch_result sent received, response]
    · rw [delete_result sent received, if_neg failed, ← failure]
      rfl
  · intro done endpoint id u received sent answered
    rw [delete_result sent answered, if_pos (success.mpr done)]

/-- A message beside other members, in a body that comes with an error. -/
private def refusal : List UInt8 :=
  Text.Utf8.ofString "\x7b\"code\":[[1]],\"Message\":\"no such field: Fooo\"\x7d"

private def refusing : Network := fun _ _ => .answers ⟨400⟩ refusal true

private theorem refusing_answers (c : Client) (method : Method) (u : Url) :
    c.exchange refusing method u = .ok (⟨400⟩, .ok refusal) := rfl

/-- What it deletes is gone, but its body ends early. -/
private def ending : Network := fun _ _ => .answers ⟨200⟩ [] false

private theorem ending_answers (c : Client) (method : Method) (u : Url) :
    c.exchange ending method u = .ok (⟨200⟩, .error (.undecodable "error decoding response body")) := rfl

private def asker : Client := ofBase "http://[::1]:8089/api" 5000

private def question : Live.Request := ⟨"/history", [("filter", "Fooo:1")], ⟨1, "Fooo:1"⟩⟩

private theorem said_refusal {message : String} (said : Status.Says ⟨400⟩ refusal message) :
    message = "no such field: Fooo" := by
  have read : Decoder.run Answer.decodeMessage refusal = some "no such field: Fooo" := by
    decide +kernel
  obtain ⟨_, told⟩ | ⟨_, silent⟩ := said
  · exact Option.some.inj ((Answer.run_decodeMessage.mpr told).symm.trans read)
  · obtain ⟨d, at_d, tells⟩ := Answer.run_decodeMessage.mp read
    exact absurd (silent d _ at_d tells) (by decide)

theorem error_answers_alike_refused :
    ¬ (200 ≤ 400 ∧ 400 < 300) ∧
    (∃ u, (asker.fetch refusing Decoder.any question).value.sent = some (.get, u) ∧
      asker.exchange refusing .get u = .ok (⟨400⟩, .ok refusal)) ∧
    (∃ u, (asker.delete refusing "/pool" "a").value.sent = some (.delete, u) ∧
      asker.exchange refusing .delete u = .ok (⟨400⟩, .ok refusal)) ∧
    (asker.fetch refusing Decoder.any question).value.result = .error (.application 400 "no such field: Fooo") ∧
    (asker.delete refusing "/pool" "a").value.result = .error (.application 400 "no such field: Fooo") ∧
    (∃ u, (asker.delete ending "/pool" "a").value.sent = some (.delete, u) ∧
      asker.exchange ending .delete u = .ok (⟨200⟩, .error (.undecodable "error decoding response body"))) ∧
    (asker.delete ending "/pool" "a").value.result = .ok () := by
  have failed : ¬ (200 ≤ 400 ∧ 400 < 300) := by decide
  have fetched : ∃ u, (asker.fetch refusing Decoder.any question).value.sent = some (.get, u) := ⟨_, rfl⟩
  have deleted (network : Network) : ∃ u, (asker.delete network "/pool" "a").value.sent = some (.delete, u) := ⟨_, rfl⟩
  obtain ⟨u, fetched⟩ := fetched
  obtain ⟨v, deletedInVain⟩ := deleted refusing
  obtain ⟨w, deleted⟩ := deleted ending
  obtain ⟨_, alike, _⟩ := error_answers_alike asker refusing Decoder.any ⟨400⟩ refusal
  obtain ⟨_, _, done⟩ := error_answers_alike asker ending Decoder.any ⟨200⟩ []
  obtain ⟨message, _, said, _, fetch, delete⟩ := alike failed
  have received := refusing_answers asker
  have cut := ending_answers asker
  cases said_refusal said
  exact ⟨failed, ⟨u, fetched, received _ _⟩, ⟨v, deletedInVain, received _ _⟩, fetch question u fetched (received _ _),
    delete "/pool" "a" v deletedInVain (received _ _), ⟨w, deleted, cut _ _⟩,
    done (by decide) "/pool" "a" w _ deleted (cut _ _)⟩

end Http.Client
end ProxyMonitor
