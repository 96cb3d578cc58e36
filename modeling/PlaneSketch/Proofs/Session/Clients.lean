import PlaneSketch.Proofs.Session.Refusal

/-! Many clients of one server. In whatever order their handlers take turns, the document is what the
requests make of it one after the other, and each client gets the replies to its own requests in their
order, up to the first one that is lost or the first frame that ends it. -/
namespace PlaneSketch

section Clients

variable {κ : Type} {client other : Nat}

def ofClient (client : Nat) (entries : List (Nat × κ)) : List κ :=
  (entries.filter fun entry => entry.1 == client).map Prod.snd

@[simp] theorem ofClient_nil : ofClient client ([] : List (Nat × κ)) = [] := rfl

@[simp] theorem ofClient_append (xs ys : List (Nat × κ)) :
    ofClient client (xs ++ ys) = ofClient client xs ++ ofClient client ys := by
  simp [ofClient]

@[simp] theorem ofClient_self (x : κ) : ofClient client [(client, x)] = [x] := by
  simp [ofClient]

theorem ofClient_of_ne (apart : other ≠ client) (x : κ) : ofClient client [(other, x)] = [] := by
  simp [ofClient, apart]

private theorem ofClient_map_self (x : Option κ) : ofClient client (x.map (client, ·)).toList = x.toList := by
  cases x with
  | none => rfl
  | some x => exact ofClient_self x

theorem ofClient_map_of_ne (apart : other ≠ client) (x : Option κ) :
    ofClient client (x.map (other, ·)).toList = [] := by
  cases x with
  | none => rfl
  | some x => exact ofClient_of_ne apart x

end Clients

def Frame.request? : Frame → Option Request
  | .text message => some (.text message)
  | _ => none

/-- Whether the frame ends the handler that takes it up. -/
def Frame.ends : Frame → Bool
  | .text _ | .other => false
  | .close | .failure | .finish => true

/-- The handler goes on after all of these frames. -/
def Calm (taken : List Frame) : Prop := ∀ frame ∈ taken, frame.ends = false

private theorem calm_nil : Calm [] := fun _ none => nomatch none

theorem Calm.concat {taken : List Frame} (calm : Calm taken) {last : Frame} (goesOn : last.ends = false) :
    Calm (taken ++ [last]) := by
  intro frame member
  rcases List.mem_append.mp member with before | here
  · exact calm frame before
  · rw [List.mem_singleton.mp here]
    exact goesOn

/-- The requests of a client that has been greeted, if it sent these frames. -/
def requested (taken : List Frame) : List Request := .greeting :: taken.filterMap Frame.request?

theorem requested_concat (taken : List Frame) (message : String) :
    requested (taken ++ [.text message]) = requested taken ++ [.text message] := by
  simp [requested, Frame.request?]

namespace Request

def command? : Request → Option Command
  | .greeting => none
  | .text message => (Command.parse message).toOption

def reply (d : Document Float) : Request → Reply
  | .greeting => .update ⟨d, none⟩
  | .text message => (d.dispatch message).reply

end Request

namespace Document

/-- The document after requests of several clients, carried out one after the other. -/
def served (d : Document Float) (log : List (Nat × Request)) : Document Float :=
  d.through (log.filterMap fun entry => entry.2.command?)

/-- The replies to requests that are carried out one after the other. -/
def answers (d : Document Float) : List (Nat × Request) → List (Nat × Reply)
  | [] => []
  | entry :: log => (entry.1, entry.2.reply d) :: (d.served [entry]).answers log

variable (d : Document Float)

theorem served_append (log more : List (Nat × Request)) :
    d.served (log ++ more) = (d.served log).served more := by
  rw [served, List.filterMap_append, through, List.foldl_append]
  rfl

theorem answers_append (log more : List (Nat × Request)) :
    d.answers (log ++ more) = d.answers log ++ (d.served log).answers more := by
  induction log generalizing d with
  | nil => rfl
  | cons entry log ih =>
    have split : d.served (entry :: log) = (d.served [entry]).served log := d.served_append [entry] log
    rw [List.cons_append, answers, answers, ih, split, List.cons_append]

theorem length_answers (log : List (Nat × Request)) : (d.answers log).length = log.length := by
  induction log generalizing d with
  | nil => rfl
  | cons entry log ih => rw [answers, List.length_cons, List.length_cons, ih]

/-- Dispatching the message of a request carries the request out. -/
theorem dispatch_request (client : Nat) (request : Request) :
    (d.dispatch request.message).document = d.served [(client, request)] ∧
      (d.dispatch request.message).reply = request.reply d := by
  cases request with
  | greeting =>
    rw [Request.message, dispatch_get]
    exact ⟨rfl, rfl⟩
  | text message =>
    refine ⟨?_, rfl⟩
    rw [Request.message]
    cases parsed : Command.parse message with
    | error e =>
      rw [dispatch, parsed]
      simp [served, through, Request.command?, parsed, Except.toOption]
    | ok command =>
      have once : d.served [(client, .text message)] = (d.execute command).documentAfter d := by
        simp [served, through, Request.command?, parsed, Except.toOption]
      rw [once, Execution.documentAfter]
      cases outcome : (d.execute command).outcome with
      | error e => exact (dispatch_of_error parsed outcome).1
      | ok update => exact (dispatch_of_ok parsed outcome).1

theorem document_reply {d : Document Float} {client : Nat} {request : Request} {update : Update}
    (answered : request.reply d = .update update) : update.document = d.served [(client, request)] := by
  obtain ⟨document, reply⟩ := d.dispatch_request client request
  rw [← document, document_dispatch, reply, answered]

end Document

/-- How far a client has come that is served as it should be: from the frames that have arrived, the
requests that were carried out for it, the answers to them, and the one that was lost, if any. -/
inductive Serves : List Frame → List Request → List Reply → List Reply → Socket → Prop
  | greeting (inbox : List Frame) : Serves inbox [] [] [] ⟨.asking .greeting, inbox, []⟩
  | greeted (inbox : List Frame) (reply : Reply) :
    Serves inbox [.greeting] [reply] [] ⟨.replying reply, inbox, []⟩
  | asking {taken inbox : List Frame} {sent : List Reply} {message : String} (calm : Calm taken) :
    Serves (taken ++ .text message :: inbox) (requested taken) sent [] ⟨.asking (.text message), inbox, sent⟩
  | replying {taken inbox : List Frame} {sent : List Reply} {message : String} {reply : Reply}
      (calm : Calm taken) :
    Serves (taken ++ .text message :: inbox) (requested taken ++ [.text message]) (sent ++ [reply]) []
      ⟨.replying reply, inbox, sent⟩
  | waiting {taken inbox : List Frame} {sent : List Reply} (calm : Calm taken) :
    Serves (taken ++ inbox) (requested taken) sent [] ⟨.waiting, inbox, sent⟩
  | ended {taken inbox : List Frame} {sent : List Reply} {last : Frame} (calm : Calm taken)
      (ends : last.ends = true) :
    Serves (taken ++ last :: inbox) (requested taken) sent [] ⟨.done, inbox, sent⟩
  | lost {taken inbox : List Frame} {sent : List Reply} {reply : Reply} (calm : Calm taken) :
    Serves (taken ++ inbox) (requested taken) (sent ++ [reply]) [reply] ⟨.done, inbox, sent⟩

namespace Serves

variable {frames inbox : List Frame} {requests : List Request} {answers lost sent : List Reply}
  {socket : Socket}

private theorem arrive (serves : Serves frames requests answers lost socket) (frame : Frame) :
    Serves (frames ++ [frame]) requests answers lost (socket.arrive frame) := by
  cases serves with
  | greeting => exact .greeting _
  | greeted => exact .greeted _ _
  | asking calm =>
    rw [List.append_assoc, List.cons_append]
    exact .asking calm
  | replying calm =>
    rw [List.append_assoc, List.cons_append]
    exact .replying calm
  | waiting calm =>
    rw [List.append_assoc]
    exact .waiting calm
  | ended calm ends =>
    rw [List.append_assoc, List.cons_append]
    exact .ended calm ends
  | lost calm =>
    rw [List.append_assoc]
    exact .lost calm

private theorem ask {request : Request}
    (serves : Serves frames requests answers lost ⟨.asking request, inbox, sent⟩) (reply : Reply) :
    Serves frames (requests ++ [request]) (answers ++ [reply]) lost ⟨.replying reply, inbox, sent⟩ := by
  cases serves with
  | greeting => exact .greeted _ reply
  | asking calm => exact .replying calm

private theorem deliver {reply : Reply}
    (serves : Serves frames requests answers lost ⟨.replying reply, inbox, sent⟩) (delivered : Bool) :
    Serves frames requests answers (lost ++ (if delivered then none else some reply).toList)
      (Socket.deliver ⟨.replying reply, inbox, sent⟩ reply delivered) := by
  cases serves with
  | greeted =>
    cases delivered with
    | true => exact .waiting calm_nil
    | false => exact @Serves.lost [] _ [] reply calm_nil
  | @replying taken _ _ message _ calm =>
    rw [← requested_concat, List.append_cons]
    cases delivered with
    | true => exact .waiting (calm.concat rfl)
    | false => exact .lost (calm.concat rfl)

private theorem receive (serves : Serves frames requests answers lost ⟨.waiting, inbox, sent⟩) :
    Serves frames requests answers lost (Socket.receive ⟨.waiting, inbox, sent⟩) := by
  cases serves with
  | @waiting taken _ _ calm =>
    match inbox with
    | [] => exact .waiting calm
    | .text message :: inbox => exact .asking calm
    | .other :: inbox =>
      have requests : requested taken = requested (taken ++ [.other]) := by simp [requested, Frame.request?]
      rw [requests, List.append_cons]
      exact .waiting (calm.concat rfl)
    | .close :: inbox | .failure :: inbox | .finish :: inbox => exact .ended calm rfl

end Serves

def Happening.frame? : Happening → Option Frame
  | .arrives frame => some frame
  | .proceeds _ => none

def arrived (client : Nat) (schedule : List (Nat × Happening)) : List Frame :=
  (ofClient client schedule).filterMap Happening.frame?

section Arrived

variable {client other : Nat}

theorem arrived_append (earlier later : List (Nat × Happening)) :
    arrived client (earlier ++ later) = arrived client earlier ++ arrived client later := by
  rw [arrived, ofClient_append, List.filterMap_append]
  rfl

private theorem arrived_self (happening : Happening) :
    arrived client [(client, happening)] = happening.frame?.toList := by
  rw [arrived, ofClient_self]
  cases happening <;> rfl

private theorem arrived_of_ne (apart : other ≠ client) (happening : Happening) :
    arrived client [(other, happening)] = [] := by
  rw [arrived, ofClient_of_ne apart]
  rfl

end Arrived

namespace Server

/-- The request that is carried out if this happens next at the socket of a client. -/
def request? (server : Server) (client : Nat) : Happening → Option Request
  | .arrives _ => none
  | .proceeds _ =>
    match (server.sockets client).handler with
    | .asking request => some request
    | _ => none

/-- The reply that is lost if this happens next at the socket of a client. -/
def loss? (server : Server) (client : Nat) : Happening → Option Reply
  | .arrives _ => none
  | .proceeds delivered =>
    match (server.sockets client).handler with
    | .replying reply => if delivered then none else some reply
    | _ => none

/-- What comes about along a schedule, in order, if `record` tells what one happening brings about. -/
def recorded {κ : Type} (record : Server → Nat → Happening → Option κ) (server : Server) :
    List (Nat × Happening) → List (Nat × κ)
  | [] => []
  | (client, happening) :: rest =>
    ((record server client happening).map (client, ·)).toList ++ recorded record (server.step client happening) rest

/-- The requests that are carried out along a schedule, in the order in which they are dispatched. -/
def log (server : Server) : List (Nat × Happening) → List (Nat × Request) := recorded request? server

/-- The replies that cannot be sent along a schedule. -/
def losses (server : Server) : List (Nat × Happening) → List (Nat × Reply) := recorded loss? server

section Steps

variable (server : Server) {client other : Nat} {happening : Happening}

theorem recorded_append {κ : Type} {record : Server → Nat → Happening → Option κ}
    (earlier later : List (Nat × Happening)) :
    recorded record server (earlier ++ later) =
      recorded record server earlier ++ recorded record (server.through earlier) later := by
  induction earlier generalizing server with
  | nil => rfl
  | cons entry earlier ih =>
    rw [List.cons_append, recorded, recorded, ih, List.append_assoc]
    rfl

theorem recorded_singleton {κ : Type} {record : Server → Nat → Happening → Option κ} :
    recorded record server [(client, happening)] =
      ((record server client happening).map (client, ·)).toList := List.append_nil _

theorem log_append (earlier later : List (Nat × Happening)) :
    server.log (earlier ++ later) = server.log earlier ++ (server.through earlier).log later :=
  server.recorded_append earlier later

theorem through_append (earlier later : List (Nat × Happening)) :
    server.through (earlier ++ later) = (server.through earlier).through later := List.foldl_append

@[simp] theorem sockets_setSocket_self (socket : Socket) :
    (server.setSocket client socket).sockets client = socket := if_pos rfl

theorem sockets_setSocket_of_ne (apart : other ≠ client) (socket : Socket) :
    (server.setSocket client socket).sockets other = server.sockets other := if_neg apart

private theorem setSocket_self : server.setSocket client (server.sockets client) = server := by
  have same : (server.setSocket client (server.sockets client)).sockets = server.sockets := by
    funext other
    by_cases own : other = client
    · rw [own, sockets_setSocket_self]
    · rw [server.sockets_setSocket_of_ne own]
  exact congrArg (Server.mk server.document) same

end Steps

/-- A server has got so far along a schedule: its document is what the log makes of the empty one, and
every client is served as it should be. -/
structure SoFar (server : Server) (schedule : List (Nat × Happening)) (log : List (Nat × Request))
    (losses : List (Nat × Reply)) : Prop where
  document : server.document = Document.empty.served log
  clients : ∀ client, Serves (arrived client schedule) (ofClient client log)
    (ofClient client (Document.empty.answers log)) (ofClient client losses) (server.sockets client)

variable {server : Server} {schedule : List (Nat × Happening)} {log : List (Nat × Request)}
  {losses : List (Nat × Reply)}

/-- What happens at one socket leaves the others as they are, also if a request is carried out. -/
theorem SoFar.turn (soFar : SoFar server schedule log losses) {client : Nat} {happening : Happening}
    {request : Option Request} {loss : Option Reply} {document : Document Float} {socket : Socket}
    (carriedOut : document = server.document.served (request.map (client, ·)).toList)
    (serves : Serves (arrived client schedule ++ happening.frame?.toList)
      (ofClient client log ++ request.toList)
      (ofClient client (Document.empty.answers log) ++ request.toList.map (Request.reply server.document))
      (ofClient client losses ++ loss.toList) socket) :
    SoFar ({ server with document }.setSocket client socket) (schedule ++ [(client, happening)])
      (log ++ (request.map (client, ·)).toList) (losses ++ (loss.map (client, ·)).toList) where
  document := by
    rw [Document.served_append, ← soFar.document]
    exact carriedOut
  clients := by
    intro other
    have answered : server.document.answers (request.map (client, ·)).toList =
        ((request.map (Request.reply server.document)).map (client, ·)).toList := by cases request <;> rfl
    rw [Document.answers_append, ← soFar.document, answered]
    simp only [ofClient_append, arrived_append]
    by_cases own : client = other
    · subst own
      simp only [sockets_setSocket_self, arrived_self, ofClient_map_self]
      rwa [Option.toList_map]
    · simp only [sockets_setSocket_of_ne _ (Ne.symm own), arrived_of_ne own, ofClient_map_of_ne own,
        List.append_nil]
      exact soFar.clients other

private theorem SoFar.stay (soFar : SoFar server schedule log losses) {client : Nat} {happening : Happening}
    {socket : Socket} (loss : Option Reply)
    (serves : Serves (arrived client schedule ++ happening.frame?.toList) (ofClient client log)
      (ofClient client (Document.empty.answers log)) (ofClient client losses ++ loss.toList) socket) :
    SoFar (server.setSocket client socket) (schedule ++ [(client, happening)]) (log ++ [])
      (losses ++ (loss.map (client, ·)).toList) :=
  @SoFar.turn server schedule log losses soFar client happening none loss server.document socket rfl
    (by simpa using serves)

private theorem SoFar.step (soFar : SoFar server schedule log losses) (client : Nat) (happening : Happening) :
    SoFar (server.step client happening) (schedule ++ [(client, happening)])
      (log ++ server.log [(client, happening)]) (losses ++ server.losses [(client, happening)]) := by
  have serves := soFar.clients client
  rw [← List.append_nil (ofClient client losses)] at serves
  rw [Server.log, Server.losses, recorded_singleton, recorded_singleton]
  cases happening with
  | arrives frame => exact soFar.stay none (serves.arrive frame)
  | proceeds delivered =>
    rw [← List.append_nil (arrived client schedule)] at serves
    rw [Server.step, proceed, request?, loss?]
    generalize here : server.sockets client = socket at serves ⊢
    obtain ⟨handler, inbox, sent⟩ := socket
    cases handler with
    | asking request =>
      obtain ⟨document, reply⟩ := server.document.dispatch_request client request
      simp only [reply]
      exact soFar.turn document (serves.ask (request.reply server.document))
    | replying reply =>
      rw [List.append_nil (ofClient client losses)] at serves
      exact soFar.stay (if delivered then none else some reply) (serves.deliver delivered)
    | waiting => exact soFar.stay none serves.receive
    | done =>
      have stays : SoFar (server.setSocket client (server.sockets client))
          (schedule ++ [(client, .proceeds delivered)]) (log ++ []) (losses ++ []) :=
        soFar.stay none (here ▸ serves)
      rwa [setSocket_self] at stays

private theorem soFar_start : SoFar start [] [] [] where
  document := rfl
  clients _ := .greeting []

theorem soFar_through (schedule : List (Nat × Happening)) :
    SoFar (start.through schedule) schedule (start.log schedule) (start.losses schedule) := by
  -- From the end of the schedule, where what has happened and the logs grow.
  induction schedule using List.reverseRecOn with
  | nil => exact soFar_start
  | append_singleton schedule entry ih =>
    rw [Server.log, Server.losses, recorded_append, recorded_append, through_append]
    exact ih.step entry.1 entry.2

section Done

variable {client : Nat}

theorem sockets_step_of_ne {other : Nat} (apart : client ≠ other) (happening : Happening) :
    (server.step other happening).sockets client = server.sockets client := by
  cases happening with
  | arrives frame => exact server.sockets_setSocket_of_ne apart _
  | proceeds delivered =>
    rw [Server.step, proceed]
    cases (server.sockets other).handler with
    | asking request => exact sockets_setSocket_of_ne _ apart _
    | replying reply => exact server.sockets_setSocket_of_ne apart _
    | waiting => exact server.sockets_setSocket_of_ne apart _
    | done => rfl

private theorem done_step (done : (server.sockets client).handler = .done) (other : Nat)
    (happening : Happening) : ((server.step other happening).sockets client).handler = .done ∧
      ((server.step other happening).sockets client).sent = (server.sockets client).sent ∧
      ofClient client (server.log [(other, happening)]) = [] := by
  rw [Server.log, recorded_singleton]
  by_cases own : client = other
  · subst own
    cases happening with
    | arrives frame =>
      rw [Server.step, sockets_setSocket_self]
      exact ⟨done, rfl, rfl⟩
    | proceeds delivered => simp [Server.step, proceed, request?, done]
  · rw [sockets_step_of_ne own]
    refine ⟨done, rfl, ?_⟩
    cases server.request? other happening with
    | none => rfl
    | some request => exact ofClient_of_ne (Ne.symm own) request

theorem done_through (done : (server.sockets client).handler = .done) (schedule : List (Nat × Happening)) :
    ((server.through schedule).sockets client).handler = .done ∧
      ((server.through schedule).sockets client).sent = (server.sockets client).sent ∧
      ofClient client (server.log schedule) = [] := by
  induction schedule generalizing server with
  | nil => exact ⟨done, rfl, rfl⟩
  | cons entry schedule ih =>
    obtain ⟨still, sent, first⟩ := done_step done entry.1 entry.2
    obtain ⟨last, same, rest⟩ := ih still
    refine ⟨last, same.trans sent, ?_⟩
    have split : server.log (entry :: schedule) =
        server.log [entry] ++ (server.step entry.1 entry.2).log schedule := server.log_append [entry] schedule
    rw [split, ofClient_append, first, rest, List.append_nil]

end Done

end Server

end PlaneSketch
