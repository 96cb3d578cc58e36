import PlaneSketch.Proofs.Session.Clients

/-! How the handler of a client gets on. Each frame costs it a fixed number of turns, and once it has had
the turns for the greeting and for what has arrived, everything due to the client has been carried out
and answered. -/
namespace PlaneSketch

/-- The requests due to a client that sends these frames: the greeting, and the texts before the first
frame that ends its handler. -/
def due (frames : List Frame) : List Request := requested (frames.takeWhile fun frame => !frame.ends)

section Due

variable {taken inbox frames more : List Frame} {last : Frame}

private theorem requested_mono (shorter : frames <+: more) : requested frames <+: requested more := by
  rw [requested, requested, List.prefix_cons_inj]
  exact shorter.filterMap Frame.request?

theorem due_mono (shorter : frames <+: more) : due frames <+: due more := by
  obtain ⟨rest, rfl⟩ := shorter
  apply requested_mono
  rw [List.takeWhile_append]
  split
  · exact (List.takeWhile_prefix _).trans (List.prefix_append _ _)
  · exact List.prefix_rfl

theorem due_calm (calm : Calm taken) : due taken = requested taken := by
  rw [due, List.takeWhile_eq_self_iff.mpr]
  intro frame member
  rw [calm frame member, Bool.not_false]

theorem due_ended (calm : Calm taken) (ends : last.ends = true) :
    due (taken ++ last :: inbox) = requested taken := by
  have before : ∀ frame ∈ taken, (!frame.ends) = true := by simpa [Calm] using calm
  rw [due, List.takeWhile_append_of_pos before, List.takeWhile_cons_of_neg (by simp [ends]), List.append_nil]

end Due

/-- The turns that a handler takes over a frame. A text is taken up, carried out and answered. -/
def Frame.turns : Frame → Nat
  | .text _ => 3
  | .other | .close | .failure | .finish => 1

def turnsOver (frames : List Frame) : Nat := (frames.map Frame.turns).sum

/-- The turns in which a handler deals with these frames, two of them for the greeting. -/
def effort (frames : List Frame) : Nat := 2 + turnsOver frames

/-- The turns that a handler needs to deal with what has arrived. -/
def Socket.turnsLeft : Socket → Nat
  | ⟨.asking _, inbox, _⟩ => 2 + turnsOver inbox
  | ⟨.replying _, inbox, _⟩ => 1 + turnsOver inbox
  | ⟨.waiting, inbox, _⟩ => turnsOver inbox
  | ⟨.done, _, _⟩ => 0

/-- A socket at which everything has been dealt with, up to the first frame that ends its handler. -/
def Socket.settled (frames : List Frame) (sent : List Reply) : Socket where
  handler := if frames.any Frame.ends then .done else .waiting
  inbox := (frames.dropWhile fun frame => !frame.ends).tail
  sent

section TurnsOver

variable {taken inbox frames more : List Frame} {frame : Frame}

@[simp] theorem turnsOver_nil : turnsOver [] = 0 := rfl

@[simp] theorem turnsOver_cons : turnsOver (frame :: frames) = frame.turns + turnsOver frames := rfl

@[simp] theorem turnsOver_append : turnsOver (frames ++ more) = turnsOver frames + turnsOver more := by
  rw [turnsOver, List.map_append, List.sum_append]
  rfl

theorem turns_pos (frame : Frame) : 0 < frame.turns := by
  cases frame <;> exact Nat.succ_pos _

/-- Frames that leave no more turns than those after `frames` have gone at least as far. -/
private theorem prefix_of_turnsOver_le (split : frames ++ more = taken ++ inbox)
    (left : turnsOver inbox ≤ turnsOver more) : frames <+: taken := by
  obtain ⟨rest, reached, -⟩ | ⟨rest, missing, behind⟩ := List.append_eq_append_iff.mp split
  · exact ⟨rest, reached.symm⟩
  · cases rest with
    | nil => exact ⟨[], by simpa using missing⟩
    | cons frame rest =>
      have := turns_pos frame
      rw [behind, turnsOver_append, turnsOver_cons] at left
      omega

private theorem due_of_turnsOver_le (calm : Calm taken) (split : frames ++ more = taken ++ inbox)
    (left : turnsOver inbox ≤ turnsOver more) : due frames <+: requested taken := by
  rw [← due_calm calm]
  exact due_mono (prefix_of_turnsOver_le split left)

/-- The frame that has been taken up last is not among `frames` if it still needs turns. -/
private theorem due_of_turnsOver_lt (calm : Calm taken) (split : frames ++ more = taken ++ frame :: inbox)
    (left : turnsOver inbox < turnsOver more) : due frames <+: requested taken := by
  rw [List.append_cons] at split
  have shorter : frames <+: taken := by
    obtain same | shorter := List.prefix_concat_iff.mp (prefix_of_turnsOver_le split left.le)
    · rw [same] at split
      rw [List.append_cancel_left split] at left
      exact absurd left (lt_irrefl _)
    · exact shorter
  rw [← due_calm calm]
  exact due_mono shorter

end TurnsOver

namespace Serves

variable {frames more : List Frame} {requests : List Request} {answers lost : List Reply} {socket : Socket}

/-- Nothing is carried out for a client that is not due to it. -/
theorem requests_due (serves : Serves frames requests answers lost socket) : requests <+: due frames := by
  cases serves with
  | greeting => exact List.nil_prefix
  | greeted => exact ⟨_, rfl⟩
  | asking calm | waiting calm | ended calm _ | lost calm =>
    rw [← due_calm calm]
    exact due_mono (List.prefix_append _ _)
  | replying calm =>
    rw [← requested_concat, ← due_calm (calm.concat rfl)]
    exact due_mono ⟨_, (List.append_cons _ _ _).symm⟩

theorem sent_answers (serves : Serves frames requests answers lost socket) : socket.sent <+: answers := by
  cases serves with
  | greeting | asking _ | waiting _ | ended _ _ => exact List.prefix_rfl
  | greeted | replying _ | lost _ => exact List.prefix_append _ _

/-- A client whose handler is no further behind than the frames after `frames` has been served what was
due up to there. -/
private theorem caught_up (serves : Serves (frames ++ more) requests answers [] socket)
    (answered : answers.length = requests.length) (left : socket.turnsLeft ≤ turnsOver more) :
    due frames <+: requests ∧ (due frames).length ≤ socket.sent.length := by
  generalize split : frames ++ more = all at serves
  cases serves with
  | greeting | greeted =>
    -- Not even the greeting has been sent, and every frame is left.
    rw [Socket.turnsLeft, ← split, turnsOver_append] at left
    omega
  | asking calm =>
    have reached := due_of_turnsOver_lt calm split (by rw [Socket.turnsLeft] at left; omega)
    exact ⟨reached, answered ▸ reached.length_le⟩
  | replying calm =>
    have reached := due_of_turnsOver_lt calm split (by rw [Socket.turnsLeft] at left; omega)
    rw [List.length_append, List.length_append] at answered
    exact ⟨reached.trans (List.prefix_append _ _), Nat.add_right_cancel answered ▸ reached.length_le⟩
  | waiting calm =>
    have reached := due_of_turnsOver_le calm split left
    exact ⟨reached, answered ▸ reached.length_le⟩
  | @ended taken _ _ _ calm ends =>
    have reached : due frames <+: requested taken := by
      rw [← due_ended calm ends, ← split]
      exact due_mono (List.prefix_append _ _)
    exact ⟨reached, answered ▸ reached.length_le⟩

private theorem eq_settled (serves : Serves frames requests answers [] socket) (left : socket.turnsLeft = 0) :
    requests = due frames ∧ socket = .settled frames answers := by
  cases serves with
  | greeting | greeted | asking | replying =>
    rw [Socket.turnsLeft] at left
    omega
  | @waiting taken inbox _ calm =>
    have none : inbox = [] := by
      cases inbox with
      | nil => rfl
      | cons frame inbox =>
        have := turns_pos frame
        rw [Socket.turnsLeft, turnsOver_cons] at left
        omega
    rw [none, List.append_nil]
    have goesOn : taken.any Frame.ends = false := by simpa [Calm] using calm
    have through : taken.dropWhile (fun frame => !frame.ends) = [] := by simpa [Calm] using calm
    exact ⟨(due_calm calm).symm, by simp [Socket.settled, goesOn, through]⟩
  | @ended taken inbox _ last calm ends =>
    have before : ∀ frame ∈ taken, (!frame.ends) = true := by simpa [Calm] using calm
    refine ⟨(due_ended calm ends).symm, ?_⟩
    simp [Socket.settled, ends, List.dropWhile_append_of_pos before]

end Serves

def Happening.isTurn : Happening → Bool
  | .arrives _ => false
  | .proceeds _ => true

/-- The turns that the handler of a client is given along a schedule. -/
def turns (client : Nat) (schedule : List (Nat × Happening)) : Nat :=
  (ofClient client schedule).countP Happening.isTurn

/-- The turns that are left after this has happened. -/
def Happening.turnsLeft (left : Nat) : Happening → Nat
  | .arrives frame => left + frame.turns
  | .proceeds _ => left - 1

private theorem Happening.turnsLeft_mono {left more : Nat} (le : left ≤ more) (happening : Happening) :
    happening.turnsLeft left ≤ happening.turnsLeft more := by
  cases happening with
  | arrives frame => exact Nat.add_le_add_right le _
  | proceeds delivered => exact Nat.sub_le_sub_right le 1

/-- Turns are used up as long as there is something to do. -/
private theorem turnsLeft_happenings {left bound : Nat} (le : left ≤ bound) (happenings : List Happening) :
    min (happenings.countP Happening.isTurn) bound + happenings.foldl Happening.turnsLeft left ≤
      bound + turnsOver (happenings.filterMap Happening.frame?) := by
  induction happenings using List.reverseRecOn with
  | nil => simpa using le
  | append_singleton happenings happening ih =>
    rw [List.foldl_concat]
    cases happening with
    | arrives frame =>
      have count : (happenings ++ [Happening.arrives frame]).countP Happening.isTurn =
          happenings.countP Happening.isTurn := by simp [Happening.isTurn]
      have frames : turnsOver ((happenings ++ [Happening.arrives frame]).filterMap Happening.frame?) =
          turnsOver (happenings.filterMap Happening.frame?) + frame.turns := by simp [Happening.frame?]
      rw [count, frames, Happening.turnsLeft]
      omega
    | proceeds delivered =>
      have count : (happenings ++ [Happening.proceeds delivered]).countP Happening.isTurn =
          happenings.countP Happening.isTurn + 1 := by simp [Happening.isTurn]
      have frames : (happenings ++ [Happening.proceeds delivered]).filterMap Happening.frame? =
          happenings.filterMap Happening.frame? := by simp [Happening.frame?]
      rw [count, frames, Happening.turnsLeft]
      omega

def Arrival.frame? : Arrival → Option Frame
  | .connects _ => none
  | .text message _ => some (.text message)
  | .otherFrame => some .other
  | .closes => some .close
  | .breaks => some .failure

namespace Arrival

variable {arrival : Arrival}

private theorem frames (arrival : Arrival) :
    arrival.happenings.filterMap Happening.frame? = arrival.frame?.toList := by
  cases arrival <;> rfl

private theorem turnsLeft (connected : ∀ sent, arrival ≠ .connects sent) (left : Nat) :
    arrival.happenings.foldl Happening.turnsLeft left = left := by
  cases arrival with
  | connects sent => exact absurd rfl (connected sent)
  | text message sent => simp [happenings, Happening.turnsLeft, Frame.turns]
  | otherFrame | closes | breaks => simp [happenings, Happening.turnsLeft, Frame.turns]

end Arrival

namespace Server

variable {client : Nat}

/-- A turn leaves one turn less, and a frame brings its own turns. A handler that ends has none left. -/
private theorem turnsLeft_step (server : Server) (client : Nat) (happening : Happening) :
    ((server.step client happening).sockets client).turnsLeft ≤
      happening.turnsLeft (server.sockets client).turnsLeft := by
  cases happening with
  | arrives frame =>
    rw [step, sockets_setSocket_self, Happening.turnsLeft]
    generalize server.sockets client = socket
    obtain ⟨handler, inbox, sent⟩ := socket
    cases handler <;> simp [Socket.arrive, Socket.turnsLeft, Nat.add_assoc]
  | proceeds delivered =>
    rw [step, proceed, Happening.turnsLeft]
    generalize here : server.sockets client = socket
    obtain ⟨handler, inbox, sent⟩ := socket
    cases handler with
    | asking request => simp [Socket.turnsLeft]
    | replying reply => cases delivered <;> simp [Socket.deliver, Socket.turnsLeft]
    | waiting =>
      cases inbox with
      | nil => simp [Socket.receive, Socket.turnsLeft]
      | cons frame inbox => cases frame <;> simp [Socket.receive, Socket.turnsLeft, Frame.turns]
    | done => simp [here, Socket.turnsLeft]

theorem turnsLeft_through (server : Server) (client : Nat) (schedule : List (Nat × Happening)) :
    ((server.through schedule).sockets client).turnsLeft ≤
      (ofClient client schedule).foldl Happening.turnsLeft (server.sockets client).turnsLeft := by
  induction schedule using List.reverseRecOn with
  | nil => exact le_rfl
  | append_singleton schedule entry ih =>
    obtain ⟨other, happening⟩ := entry
    rw [through_append, ofClient_append, List.foldl_append]
    by_cases own : other = client
    · subst own
      rw [ofClient_self]
      exact (turnsLeft_step _ other happening).trans (happening.turnsLeft_mono ih)
    · rw [ofClient_of_ne own]
      exact (congrArg Socket.turnsLeft (sockets_step_of_ne (Ne.symm own) happening)).le.trans ih

/-- After the turns for what had arrived, no more are left than for what arrived since. -/
private theorem turnsLeft_le_of_turns {earlier later : List (Nat × Happening)}
    (enough : effort (arrived client earlier) ≤ turns client later) :
    ((start.through (earlier ++ later)).sockets client).turnsLeft ≤ turnsOver (arrived client later) := by
  rw [through_append]
  have begun : ((start.through earlier).sockets client).turnsLeft ≤ effort (arrived client earlier) :=
    (turnsLeft_through start client earlier).trans
      (le_of_add_le_right (turnsLeft_happenings le_rfl (ofClient client earlier)))
  have ended := turnsLeft_through (start.through earlier) client later
  have used := turnsLeft_happenings begun (ofClient client later)
  rw [← turns, ← arrived] at used
  omega

private theorem length_ofClient_answers (d : Document Float) (log : List (Nat × Request)) :
    (ofClient client (d.answers log)).length = (ofClient client log).length := by
  induction log generalizing d with
  | nil => rfl
  | cons entry log ih =>
    obtain ⟨other, request⟩ := entry
    have ih := ih (d.served [(other, request)])
    simp only [ofClient, List.length_map] at ih ⊢
    by_cases own : other = client
    · subst own
      simp [Document.answers, ih]
    · simp [Document.answers, own, ih]

variable {schedule : List (Nat × Happening)}

/-- A client that has lost no reply and has no turns left has been served all that was due to it. -/
theorem settled_of_turnsLeft (kept : ofClient client (start.losses schedule) = [])
    (left : ((start.through schedule).sockets client).turnsLeft = 0) :
    ofClient client (start.log schedule) = due (arrived client schedule) ∧
      (start.through schedule).sockets client = .settled (arrived client schedule)
        (ofClient client (Document.empty.answers (start.log schedule))) := by
  have serves := (soFar_through schedule).clients client
  rw [kept] at serves
  exact serves.eq_settled left

section Arrivals

variable {arrivals : List (Nat × Arrival)} {rest : List Arrival} {sent : Bool}

theorem ofClient_happenings (client : Nat) (arrivals : List (Nat × Arrival)) :
    ofClient client (happenings arrivals) = (ofClient client arrivals).flatMap Arrival.happenings := by
  induction arrivals with
  | nil => rfl
  | cons entry arrivals ih =>
    obtain ⟨other, arrival⟩ := entry
    have split : happenings ((other, arrival) :: arrivals) =
        arrival.happenings.map (other, ·) ++ happenings arrivals := rfl
    rw [split, ofClient_append, ih]
    by_cases own : other = client
    · simp [ofClient, own, List.filter_map, Function.comp_def]
    · simp [ofClient, own, List.filter_map, Function.comp_def]

private theorem arrived_happenings (client : Nat) (arrivals : List (Nat × Arrival)) :
    arrived client (happenings arrivals) = (ofClient client arrivals).filterMap Arrival.frame? := by
  rw [arrived, ofClient_happenings]
  induction ofClient client arrivals with
  | nil => rfl
  | cons arrival arrivals ih =>
    rw [List.flatMap_cons, List.filterMap_append, ih, arrival.frames, List.filterMap_cons]
    cases arrival.frame? <;> rfl

private theorem loss?_of_ne (server : Server) (client : Nat) {happening : Happening}
    (getsThrough : happening ≠ .proceeds false) : server.loss? client happening = none := by
  cases happening with
  | arrives frame => rfl
  | proceeds delivered =>
    cases delivered with
    | false => exact absurd rfl getsThrough
    | true =>
      rw [loss?]
      cases (server.sockets client).handler <;> rfl

private theorem ofClient_recorded {κ : Type} {record : Server → Nat → Happening → Option κ}
    {schedule : List (Nat × Happening)} (server : Server)
    (nothing : ∀ happening ∈ ofClient client schedule, ∀ server, record server client happening = none) :
    ofClient client (recorded record server schedule) = [] := by
  induction schedule generalizing server with
  | nil => rfl
  | cons entry schedule ih =>
    obtain ⟨other, happening⟩ := entry
    have split : ofClient client ((other, happening) :: schedule) =
        ofClient client [(other, happening)] ++ ofClient client schedule :=
      ofClient_append [(other, happening)] schedule
    rw [split, List.forall_mem_append] at nothing
    rw [recorded, ofClient_append, ih _ nothing.2, List.append_nil]
    by_cases own : other = client
    · subst own
      rw [nothing.1 happening (by simp), Option.map_none]
      rfl
    · exact ofClient_map_of_ne own _

private theorem turnsLeft_run (own : ofClient client arrivals = .connects sent :: rest)
    (once : ∀ sent, .connects sent ∉ rest) :
    ((start.run arrivals).sockets client).turnsLeft = 0 := by
  have left := turnsLeft_through start client (happenings arrivals)
  rw [ofClient_happenings, own, List.flatMap_cons, List.foldl_append] at left
  have none : (rest.flatMap Arrival.happenings).foldl Happening.turnsLeft 0 = 0 := by
    clear own left
    induction rest with
    | nil => rfl
    | cons arrival rest ih =>
      rw [List.flatMap_cons, List.foldl_append, Arrival.turnsLeft]
      · exact ih fun sent member => once sent (List.mem_cons_of_mem _ member)
      · rintro sent rfl
        exact once sent List.mem_cons_self
  exact Nat.le_zero.mp (left.trans none.le)

/-- A client that connects once, waits each time until the server has dealt with what it did, and gets
every reply, has been sent the greeting and one answer to each text up to the first frame that ends its
handler. -/
theorem sentTo_run (own : ofClient client arrivals = .connects sent :: rest)
    (once : ∀ sent, .connects sent ∉ rest)
    (getsThrough : ∀ arrival ∈ ofClient client arrivals, .proceeds false ∉ arrival.happenings) :
    let frames := rest.filterMap Arrival.frame?
    let log := start.log (happenings arrivals)
    ofClient client log = due frames ∧
      (start.run arrivals).sentTo client = ofClient client (Document.empty.answers log) ∧
      (start.run arrivals).sockets client = .settled frames (ofClient client (Document.empty.answers log)) := by
  intro frames log
  have kept : ofClient client (start.losses (happenings arrivals)) = [] := by
    refine ofClient_recorded start fun happening member server => loss?_of_ne server client ?_
    rw [ofClient_happenings, List.mem_flatMap] at member
    obtain ⟨arrival, listed, brought⟩ := member
    rintro rfl
    exact getsThrough arrival listed brought
  obtain ⟨carriedOut, settled⟩ := settled_of_turnsLeft kept (turnsLeft_run own once)
  rw [arrived_happenings, own] at carriedOut settled
  exact ⟨carriedOut, congrArg Socket.sent settled, settled⟩

end Arrivals

end Server

end PlaneSketch
