import PlaneSketch.Proofs.Session.Command
import PlaneSketch.Session.Server

/-! What becomes of the document of a server, and what can be handed back of it. -/
namespace PlaneSketch

private theorem Reply.text_document (d : Document Float) :
    (Reply.update ⟨d, none⟩).text = "SKETCH_UPDATE:\x7b\"document\":" ++ d.toJson.text ++ "\x7d" := by
  have spelled : (Json.obj [("document", d.toJson)]).text =
      "\x7b\"document\":" ++ d.toJson.text ++ "\x7d" := by
    apply String.toList_inj.mp
    simp only [Json.text, Json.tokens, Json.memberTokens, Json.moreMemberTokens, String.toList_append,
      String.toList_ofList, List.flatMap_append, List.append_nil]
    rfl
  change "SKETCH_UPDATE:" ++ (Json.obj [("document", d.toJson)]).text = _
  rw [spelled, ← String.append_assoc, ← String.append_assoc]
  rfl

namespace Document

variable {d : Document Float}

section Dispatch

variable {message : String} {command : Command}

theorem dispatch_of_ok {update : Update} (parsed : Command.parse message = .ok command)
    (outcome : (d.execute command).outcome = .ok update) :
    (d.dispatch message).document = update.document ∧ (d.dispatch message).reply = .update update := by
  rw [dispatch, parsed]
  simp only [outcome, and_self]

theorem dispatch_of_error {e : SessionError} (parsed : Command.parse message = .ok command)
    (outcome : (d.execute command).outcome = .error e) :
    (d.dispatch message).document = d ∧ (d.dispatch message).reply = .error e := by
  rw [dispatch, parsed]
  simp only [outcome, and_self]

end Dispatch

private theorem settled_dispatch (settled : d.Settled) (message : String) :
    (d.dispatch message).document.Settled := by
  cases parsed : Command.parse message with
  | error e =>
    rw [dispatch, parsed]
    exact settled
  | ok command =>
    cases outcome : (d.execute command).outcome with
    | error e => exact (dispatch_of_error parsed outcome).1.symm ▸ settled
    | ok update =>
      rw [(dispatch_of_ok parsed outcome).1]
      apply settled_execute settled _ outcome
      intro incoming same
      rw [same] at parsed
      exact Command.accepted_of_parse parsed

/-- The document after a sequence of messages. -/
def after (d : Document Float) (messages : List String) : Document Float :=
  messages.foldl (fun d message => (d.dispatch message).document) d

theorem settled_after (settled : d.Settled) (messages : List String) : (d.after messages).Settled := by
  induction messages generalizing d with
  | nil => exact settled
  | cons message messages ih => exact ih (settled_dispatch settled message)

theorem dispatch_get (d : Document Float) : d.dispatch "GET" = ⟨d, .update ⟨d, none⟩, []⟩ := by
  rw [dispatch, Command.parse_get]
  rfl

private theorem Settled.dispatch_load (settled : d.Settled) (before : Document Float) :
    (before.dispatch ("LOAD:" ++ d.toJson.text)).document = (if d.finite then d else before) ∧
      (before.dispatch ("LOAD:" ++ d.toJson.text)).reply =
        if d.finite then .update ⟨d, none⟩ else .error (.malformedPayload .load) := by
  rw [dispatch, Command.parse_load settled.fits]
  cases d.finite with
  | false => exact ⟨rfl, rfl⟩
  | true =>
    simp only [if_true, execute_load settled before]
    exact ⟨trivial, trivial⟩

/-- Hand the document that `GET` gives out back to be loaded. -/
def handBack (d : Document Float) : Dispatch :=
  (d.dispatch "GET").document.dispatch ("LOAD:" ++ d.toJson.text)

theorem Settled.handBack (settled : d.Settled) :
    d.handBack.document = d ∧
      d.handBack.reply = if d.finite then .update ⟨d, none⟩ else .error (.malformedPayload .load) := by
  obtain ⟨document, reply⟩ := settled.dispatch_load d
  rw [Document.handBack, dispatch_get]
  exact ⟨document.trans (ite_self d), reply⟩

/-- Whatever messages came before, the document that `GET` gives out changes nothing when it is handed
back, and is accepted exactly if all its cells have finite values. -/
theorem dispatch_handBack (messages : List String) :
    ((empty.after messages).dispatch "GET").reply.text =
        "SKETCH_UPDATE:\x7b\"document\":" ++ (empty.after messages).toJson.text ++ "\x7d" ∧
      (empty.after messages).handBack.document = empty.after messages ∧
      (empty.after messages).handBack.reply =
        if (empty.after messages).finite then .update ⟨empty.after messages, none⟩
        else .error (.malformedPayload .load) := by
  refine ⟨?_, (settled_after settled_empty messages).handBack⟩
  rw [dispatch_get]
  exact Reply.text_document _

def overflowing : List String :=
  ["LOAD:\x7b\"cells\":[\x7b\"value\":-1e308\x7d,\x7b\"value\":0\x7d],\"figures\":[\x7b\"id\":" ++
    "\"00000000000000000000000000000001\",\"shape\":\x7b\"type\":\"point\",\"x\":0,\"y\":1\x7d\x7d]\x7d",
    "DRAG:\x7b\"figure\":\"00000000000000000000000000000001\",\"from\":[-1e308,0],\"to\":[1e308,0]\x7d"]

theorem handBack_overflowing :
    (empty.after overflowing).handBack.reply = .error (.malformedPayload .load) := by
  have infinite : (empty.after overflowing).finite = false := by decide +kernel
  obtain ⟨-, reply⟩ := (settled_after settled_empty overflowing).handBack
  rw [infinite] at reply
  exact reply

end Document

end PlaneSketch
