import PlaneSketch.Proofs.Document.Faults
import PlaneSketch.Proofs.Session.Server

/-! When a session turns a command down, and that nothing has changed then. A normal document always
loads, and whatever was done to it can be saved, so only what a command brings along can be wrong. -/
namespace PlaneSketch

section Loaded

variable {d : Document Float} {sketch : Sketch Float Relation} {t s : Store Float}

private theorem Loaded.figure?_eq_none (loaded : Loaded d t sketch s) {id : EntityId} :
    sketch.figure? id = none ↔ d.shape? id = none := by
  obtain ⟨missing, absent⟩ | ⟨figure, shape, found, known, -⟩ := loaded.entities.figure?_cases id
  · rw [missing, absent]
    exact iff_of_true rfl rfl
  · rw [found, known]
    exact iff_of_false (Option.some_ne_none figure) (Option.some_ne_none shape)

private theorem Loaded.resolveVariable_eq_error (loaded : Loaded d t sketch s) {target : VariableRef}
    {e : SketchError Float} :
    sketch.resolveVariable target = .error e ↔
      (d.shape? target.figure = none ∧ e = .unknownFigure target.figure) ∨
        ∃ shape, d.shape? target.figure = some shape ∧ shape.toList.length ≤ target.index ∧
          e = .unknownVariable target.figure target.index := by
  have told := congrArg fault? (loaded.entities.sort_resolveOperand (.bare target))
  rw [fault?_map, Sketch.resolveOperand, fault?_map, Document.sortOf] at told
  rw [← fault?_eq_some, told]
  cases d.shape? target.figure with
  | none => simp [eq_comm]
  | some shape =>
    by_cases beyond : shape.toList.length ≤ target.index
    · simp [beyond, Nat.not_lt.mpr beyond, eq_comm]
    · simp [beyond, Nat.lt_of_not_le beyond]

end Loaded

namespace Execution

variable {d : Document Float} {sketch : Sketch Float Relation} {t s : Store Float}

theorem saving_ne_error (loaded : Loaded d t sketch s) (u : Store Float)
    (result : Option (SolveResult Float)) (events : List (Event Float)) {e : SessionError} :
    (saving sketch u result events).outcome ≠ .error e := by
  obtain ⟨document, saved⟩ := loaded.exists_saved u
  rw [saving, saved]
  intro failed
  cases failed

end Execution

namespace Document

open Execution

/-- The reasons for which a command fails on a document. -/
inductive Refuses (d : Document Float) : Command → SketchError Float → Prop
  | load {incoming : Document Float} {e : SketchError Float}
      (rejected : incoming.load Store.empty = .error e) :
    Refuses d (.load incoming) e
  | pinFigure {request : PinRequest} (absent : d.shape? request.target.figure = none) :
    Refuses d (.pin request) (.unknownFigure request.target.figure)
  | pinVariable {request : PinRequest} {shape : Figure Nat}
      (found : d.shape? request.target.figure = some shape)
      (beyond : shape.toList.length ≤ request.target.index) :
    Refuses d (.pin request) (.unknownVariable request.target.figure request.target.index)
  | drag {request : DragRequest} (absent : d.shape? request.figure = none) :
    Refuses d (.drag request) (.unknownFigure request.figure)

variable {d : Document Float} {e : SessionError}

private theorem execute_load_eq_error {incoming : Document Float} :
    (d.execute (.load incoming)).outcome = .error e ↔
      ∃ f, e = .sketch f ∧ d.Refuses (.load incoming) f := by
  cases loaded : incoming.load Store.empty with
  | error f =>
    rw [execute, opening, loaded]
    constructor
    · intro failed
      cases failed
      exact ⟨f, rfl, .load loaded⟩
    · rintro ⟨_, rfl, ⟨rejected⟩⟩
      rw [loaded] at rejected
      cases rejected
      rfl
  | ok opened =>
    obtain ⟨sketch, s⟩ := opened
    have loaded := load_eq_ok.mp loaded
    rw [execute, opening_of_loaded loaded]
    constructor
    · exact fun failed => absurd failed (saving_ne_error loaded _ _ _)
    · rintro ⟨f, -, ⟨rejected⟩⟩
      rw [load_eq_ok.mpr loaded] at rejected
      cases rejected

private theorem execute_pin_eq_error (normal : d.Normal) {request : PinRequest} :
    (d.execute (.pin request)).outcome = .error e ↔
      ∃ f, e = .sketch f ∧ d.Refuses (.pin request) f := by
  obtain ⟨sketch, s, loaded, -⟩ := normal Store.empty
  have loaded := load_eq_ok.mp loaded
  have refuses : ∀ f, d.Refuses (.pin request) f ↔ sketch.resolveVariable request.target = .error f := by
    intro f
    rw [loaded.resolveVariable_eq_error]
    constructor
    · rintro (_ | absent | ⟨found, beyond⟩)
      · exact .inl ⟨absent, rfl⟩
      · exact .inr ⟨_, found, beyond, rfl⟩
    · rintro (⟨absent, rfl⟩ | ⟨shape, found, beyond, rfl⟩)
      · exact .pinFigure absent
      · exact .pinVariable found beyond
  -- Past the lookup nothing fails: a solve returns, and what was loaded can be saved.
  rw [execute, opening_of_loaded loaded]
  simp only [refuses]
  cases sketch.resolveVariable request.target with
  | error f => simp [eq_comm]
  | ok v =>
    constructor
    · exact fun failed => absurd failed (saving_ne_error loaded _ _ _)
    · rintro ⟨_, -, ⟨⟩⟩

private theorem execute_drag_eq_error (normal : d.Normal) {request : DragRequest} :
    (d.execute (.drag request)).outcome = .error e ↔
      ∃ f, e = .sketch f ∧ d.Refuses (.drag request) f := by
  obtain ⟨sketch, s, loaded, -⟩ := normal Store.empty
  have loaded := load_eq_ok.mp loaded
  rw [execute, opening_of_loaded loaded, Sketch.drag]
  cases found : sketch.figure? request.figure with
  | none =>
    have absent := loaded.figure?_eq_none.mp found
    constructor
    · intro failed
      cases failed
      exact ⟨_, rfl, .drag absent⟩
    · rintro ⟨_, rfl, ⟨-⟩⟩
      rfl
  | some figure =>
    constructor
    · exact fun failed => absurd failed (saving_ne_error loaded _ _ _)
    · rintro ⟨_, -, _ | _ | _ | absent⟩
      rw [loaded.figure?_eq_none.mpr absent] at found
      cases found

private theorem execute_solve_ne_error (normal : d.Normal) (damped : Bool) :
    (d.execute (.solve damped)).outcome ≠ .error e := by
  obtain ⟨sketch, s, loaded, -⟩ := normal Store.empty
  have loaded := load_eq_ok.mp loaded
  rw [execute, opening_of_loaded loaded]
  exact saving_ne_error loaded _ _ _

/-- A command fails on a normal document for these reasons, and for no other. -/
private theorem execute_eq_error (normal : d.Normal) {command : Command} :
    (d.execute command).outcome = .error e ↔ ∃ f, e = .sketch f ∧ d.Refuses command f := by
  cases command with
  | load incoming => exact execute_load_eq_error
  | pin request => exact execute_pin_eq_error normal
  | drag request => exact execute_drag_eq_error normal
  | solve damped =>
    constructor
    · exact fun failed => absurd failed (execute_solve_ne_error normal damped)
    · rintro ⟨_, -, ⟨⟩⟩
  | get =>
    constructor
    · intro failed
      cases failed
    · rintro ⟨_, -, ⟨⟩⟩

/-- The reasons for which a message is turned down: no command can be read from it, or the command
that it spells fails. -/
inductive Rejects (d : Document Float) (message : String) : SessionError → Prop
  | unread {e : SessionError} (parsed : Command.parse message = .error e) : Rejects d message e
  | refused {command : Command} {f : SketchError Float} (parsed : Command.parse message = .ok command)
    (refuses : d.Refuses command f) : Rejects d message (.sketch f)

private theorem reply_eq_error (normal : d.Normal) {message : String} :
    (d.dispatch message).reply = .error e ↔ d.Rejects message e := by
  rw [dispatch]
  cases parsed : Command.parse message with
  | error e' =>
    constructor
    · intro failed
      cases failed
      exact .unread parsed
    · rintro (same | ⟨other, -⟩)
      · rw [parsed] at same
        cases same
        rfl
      · rw [parsed] at other
        cases other
  | ok command =>
    have rejects : d.Rejects message e ↔ ∃ f, e = .sketch f ∧ d.Refuses command f := by
      constructor
      · rintro (other | ⟨same, refuses⟩)
        · rw [parsed] at other
          cases other
        · rw [parsed] at same
          cases same
          exact ⟨_, rfl, refuses⟩
      · rintro ⟨f, rfl, refuses⟩
        exact .refused parsed refuses
    rw [rejects, ← execute_eq_error normal]
    cases outcome : (d.execute command).outcome with
    | error e' => simp [outcome]
    | ok update => simp [outcome]

/-- A message changes the document only together with an answer that brings the new one. -/
theorem document_dispatch (d : Document Float) (message : String) :
    (d.dispatch message).document =
      match (d.dispatch message).reply with
      | .update update => update.document
      | .error _ => d := by
  cases parsed : Command.parse message with
  | error e => rw [dispatch, parsed]
  | ok command =>
    cases outcome : (d.execute command).outcome with
    | error e =>
      obtain ⟨document, reply⟩ := dispatch_of_error parsed outcome
      rw [document, reply]
    | ok update =>
      obtain ⟨document, reply⟩ := dispatch_of_ok parsed outcome
      rw [document, reply]

end Document

private theorem Reply.starts_error (reply : Reply) :
    "ERROR_UPDATE:".toList <+: reply.text.toList ↔ ∃ e, reply = .error e := by
  cases reply with
  | error e => simp [text]
  | update u => simp [text]

namespace Document

end Document

end PlaneSketch
