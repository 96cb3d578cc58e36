import PlaneSketch.Session.Execute

/-! A server: one document that all its clients share. -/
namespace PlaneSketch

inductive Reply
  | update (update : Update)
  | error (error : SessionError)

def Reply.text : Reply → String
  | .update u => "SKETCH_UPDATE:" ++ u.toJson.text
  | .error e => "ERROR_UPDATE:" ++ e.toJson.text

structure Dispatch where
  document : Document Float
  reply : Reply
  events : List (Event Float)

/-- Parse a message and carry it out on the document. -/
def Document.dispatch (d : Document Float) (message : String) : Dispatch :=
  match Command.parse message with
  | .error e => ⟨d, .error e, [.rejected e.message]⟩
  | .ok command =>
    let execution := d.execute command
    match execution.outcome with
    | .ok update => ⟨update.document, .update update, execution.events⟩
    | .error e => ⟨d, .error e, execution.events ++ [.failed e.message]⟩

/-- What a socket yields: a frame, or that receiving failed, or that nothing more will come. -/
inductive Frame
  | text (message : String)
  | other
  | close
  | failure
  | finish

inductive Request
  | greeting
  | text (message : String)

/-- A greeting is the answer to a message that the client did not send. -/
def Request.message : Request → String
  | .greeting => "GET"
  | .text message => message

inductive Handler
  | asking (request : Request)
  | replying (reply : Reply)
  | waiting
  | done

structure Socket where
  handler : Handler
  /-- Frames that have arrived and are not taken up yet, the earliest first. -/
  inbox : List Frame
  /-- The replies that got through, the latest last. -/
  sent : List Reply

namespace Socket

def start : Socket := ⟨.asking .greeting, [], []⟩

def arrive (socket : Socket) (frame : Frame) : Socket := { socket with inbox := socket.inbox ++ [frame] }

/-- Take up the first frame, if there is one. -/
def receive (socket : Socket) : Socket :=
  match socket.inbox with
  | [] => socket
  | .text message :: inbox => { socket with handler := .asking (.text message), inbox }
  | .other :: inbox => { socket with inbox }
  | .close :: inbox | .failure :: inbox | .finish :: inbox => { socket with handler := .done, inbox }

/-- A reply that cannot be sent ends the handler. -/
def deliver (socket : Socket) (reply : Reply) (delivered : Bool) : Socket :=
  if delivered then { socket with handler := .waiting, sent := socket.sent ++ [reply] }
  else { socket with handler := .done }

end Socket

/-- What happens next at a socket: a frame arrives, or its handler does the next thing. If that is to
send a reply, the reply gets through or not. -/
inductive Happening
  | arrives (frame : Frame)
  | proceeds (delivered : Bool)

/-- The shared document, and a socket for each client. One that has not connected yet has not begun. -/
structure Server where
  document : Document Float
  sockets : Nat → Socket

namespace Server

def start : Server := ⟨Document.empty, fun _ => Socket.start⟩

def setSocket (server : Server) (client : Nat) (socket : Socket) : Server :=
  { server with sockets := fun other => if other = client then socket else server.sockets other }

/-- The handler of a client goes on. Its message is dispatched in one go: the document is locked
until it has been carried out. -/
def proceed (server : Server) (client : Nat) (delivered : Bool) : Server :=
  let socket := server.sockets client
  match socket.handler with
  | .asking request =>
    let dispatch := server.document.dispatch request.message
    { server with document := dispatch.document }.setSocket client
      { socket with handler := .replying dispatch.reply }
  | .replying reply => server.setSocket client (socket.deliver reply delivered)
  | .waiting => server.setSocket client socket.receive
  | .done => server

def step (server : Server) (client : Nat) : Happening → Server
  | .arrives frame => server.setSocket client ((server.sockets client).arrive frame)
  | .proceeds delivered => server.proceed client delivered

/-- Handlers take turns in any order, and frames arrive at any time. -/
def through (server : Server) (schedule : List (Nat × Happening)) : Server :=
  schedule.foldl (fun server entry => server.step entry.1 entry.2) server

end Server

/-- Something a client does, if it waits until the server has dealt with it. -/
inductive Arrival
  | connects (sent : Bool)
  | text (message : String) (sent : Bool)
  | otherFrame
  | closes
  | breaks

def Arrival.happenings : Arrival → List Happening
  | .connects sent => [.proceeds true, .proceeds sent]
  | .text message sent => [.arrives (.text message), .proceeds true, .proceeds true, .proceeds sent]
  | .otherFrame => [.arrives .other, .proceeds true]
  | .closes => [.arrives .close, .proceeds true]
  | .breaks => [.arrives .failure, .proceeds true]

namespace Server

def happenings (arrivals : List (Nat × Arrival)) : List (Nat × Happening) :=
  arrivals.flatMap fun entry => entry.2.happenings.map (entry.1, ·)

def run (server : Server) (arrivals : List (Nat × Arrival)) : Server := server.through (happenings arrivals)

def sentTo (server : Server) (client : Nat) : List Reply := (server.sockets client).sent

end Server

def version : String := "0.1.0"

def homeText : String := "Constraint solver backend " ++ version

end PlaneSketch
