import PlaneSketch.Proofs.Document.Decode
import PlaneSketch.Proofs.Document.Settled
import PlaneSketch.Proofs.Sketch.Solve
import PlaneSketch.Session.Execute

/-! Whatever command is carried out, the document of a session stays settled. -/
namespace PlaneSketch

namespace Execution

variable {d : Document Float} {sketch : Sketch Float Relation} {s : Store Float}
  {result : Option (SolveResult Float)} {events : List (Event Float)} {update : Update}

theorem saving_eq_ok (success : (saving sketch s result events).outcome = .ok update) :
    sketch.save s = .ok update.document := by
  obtain ⟨document, saved, same⟩ := map_eq_ok.mp success
  rw [← same]
  exact mapError_eq_ok.mp saved

theorem opening_eq_ok {next : Sketch Float Relation → Store Float → Execution}
    (success : (opening d next).outcome = .ok update) :
    ∃ sketch s, Loaded d Store.empty sketch s ∧ (next sketch s).outcome = .ok update := by
  rw [opening] at success
  cases loaded : d.load Store.empty with
  | error e =>
    rw [loaded] at success
    cases success
  | ok opened =>
    rw [loaded] at success
    exact ⟨opened.1, opened.2, load_eq_ok.mp loaded, success⟩

theorem opening_of_loaded (loaded : Loaded d Store.empty sketch s)
    (next : Sketch Float Relation → Store Float → Execution) :
    (opening d next).outcome = (next sketch s).outcome := by
  rw [opening, load_eq_ok.mpr loaded]

theorem saving_of_save {document : Document Float} (saved : sketch.save s = .ok document) :
    (saving sketch s result events).outcome = .ok ⟨document, result⟩ := by
  rw [saving, saved]
  rfl

end Execution

namespace Document

open Execution

/-- The numbers of a document that a command brings along have 64 bits. -/
def Accepted (d : Document Float) : Prop :=
  (∀ r ∈ d.figures, r.shape.Fits) ∧ Small d.config.maxIterations

private theorem Settled.accepted {d : Document Float} (settled : d.Settled) : d.Accepted :=
  ⟨settled.fits.figures, settled.fits.config.passes⟩

variable {d : Document Float} {update : Update}

/-- What the document is saved as after some change of its values. -/
def Resaves (d e : Document Float) : Prop :=
  ∃ sketch s t, Loaded d Store.empty sketch s ∧ Store.SameNames s t ∧ sketch.save t = .ok e

private theorem resaves_of_opening {next : Sketch Float Relation → Store Float → Execution}
    (success : (opening d next).outcome = .ok update)
    (keeps : ∀ sketch s, (next sketch s).outcome = .ok update →
      ∃ t, Store.SameNames s t ∧ sketch.save t = .ok update.document) : d.Resaves update.document := by
  obtain ⟨sketch, s, loaded, success⟩ := opening_eq_ok success
  obtain ⟨t, names, saved⟩ := keeps sketch s success
  exact ⟨sketch, s, t, loaded, names, saved⟩

/-- The document that a command works on, if it is not only read. -/
def source (d : Document Float) : Command → Document Float
  | .load incoming => incoming
  | _ => d

/-- A command that succeeds reads the document or saves again what it loaded. -/
theorem resaves_of_execute {command : Command} (success : (d.execute command).outcome = .ok update) :
    (command = .get ∧ update.document = d) ∨ (d.source command).Resaves update.document := by
  cases command with
  | load incoming =>
    right
    apply resaves_of_opening success
    intro sketch s success
    exact ⟨s, .refl s, saving_eq_ok success⟩
  | solve damped =>
    right
    apply resaves_of_opening success
    intro sketch s success
    exact ⟨_, sketch.sameNames_solve s [] damped, saving_eq_ok success⟩
  | pin request =>
    right
    apply resaves_of_opening success
    intro sketch s success
    split at success
    case h_1 => cases success
    case h_2 v _ =>
      exact ⟨_, sketch.sameNames_pinAndSolve s v request.value request.hold, saving_eq_ok success⟩
  | drag request =>
    right
    apply resaves_of_opening success
    intro sketch s success
    split at success
    case h_1 => cases success
    case h_2 solve dragged => exact ⟨_, sketch.sameNames_drag s dragged, saving_eq_ok success⟩
  | get =>
    cases success
    exact .inl ⟨rfl, rfl⟩

private theorem Resaves.normal {e : Document Float} (resaves : d.Resaves e) : e.Normal := by
  obtain ⟨sketch, s, t, loaded, names, saved⟩ := resaves
  exact normal_of_save (loaded.sound.sameNames names) saved

private theorem Resaves.settled {e : Document Float} (resaves : d.Resaves e) (accepted : d.Accepted) :
    e.Settled := by
  obtain ⟨sketch, s, t, loaded, names, saved⟩ := resaves
  exact settled_of_loaded accepted.1 accepted.2 loaded names saved

private theorem normal_execute {command : Command} (normal : d.Normal)
    (success : (d.execute command).outcome = .ok update) : update.document.Normal := by
  rcases resaves_of_execute success with ⟨-, same⟩ | resaves
  · exact same ▸ normal
  · exact resaves.normal

/-- The document after a sequence of commands. -/
def through (d : Document Float) (commands : List Command) : Document Float :=
  commands.foldl (fun d command => (d.execute command).documentAfter d) d

private theorem normal_documentAfter (normal : d.Normal) (command : Command) :
    ((d.execute command).documentAfter d).Normal := by
  rw [documentAfter]
  cases outcome : (d.execute command).outcome with
  | error e => exact normal
  | ok update => exact normal_execute normal outcome

theorem normal_through (normal : d.Normal) (commands : List Command) : (d.through commands).Normal := by
  induction commands generalizing d with
  | nil => exact normal
  | cons command commands ih => exact ih (normal_documentAfter normal command)

/-- Whatever commands were carried out, the document loads and is saved as itself, and its cells are
numbered by first use with none left over. -/
theorem through_loads_and_saves (commands : List Command) :
    let d := (empty : Document Float).through commands
    (∀ t, ∃ sketch s, d.load t = .ok (sketch, s) ∧ sketch.save s = .ok d) ∧
      (d.figures.flatMap fun r => r.shape.toList).eraseDups = List.range d.cells.length := by
  intro d
  have normal : d.Normal := normal_through settled_empty.normal commands
  exact ⟨normal, normal.positions⟩

theorem settled_execute {command : Command} (settled : d.Settled)
    (accepted : ∀ incoming, command = .load incoming → incoming.Accepted)
    (success : (d.execute command).outcome = .ok update) : update.document.Settled := by
  rcases resaves_of_execute success with ⟨-, same⟩ | resaves
  · exact same ▸ settled
  · apply resaves.settled
    cases command with
    | load incoming => exact accepted incoming rfl
    | _ => exact settled.accepted

theorem execute_load (settled : d.Settled) (before : Document Float) :
    (before.execute (.load d)).outcome = .ok ⟨d, none⟩ := by
  obtain ⟨sketch, s, loaded, saved⟩ := settled.exists_loaded
  rw [execute, opening, loaded]
  change ((sketch.save s).mapError SessionError.sketch).map (fun document => (⟨document, none⟩ : Update)) = _
  rw [saved]
  rfl

end Document

end PlaneSketch
