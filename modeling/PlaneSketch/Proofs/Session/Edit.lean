import PlaneSketch.Proofs.Document.Tidy
import PlaneSketch.Proofs.Session.Refusal
import PlaneSketch.Proofs.Sketch.Edit

/-! What an edit changes in the document of a session. A document that was saved numbers its cells just
as the store does that it is loaded into, so what an edit does to that store is what it does to the
document. -/
namespace PlaneSketch

namespace Document

def valueAt (d : Document Float) (i : Nat) : Option Float := (d.cells[i]?).map Cell.value

def constantAt (d : Document Float) (i : Nat) : Option Bool := (d.cells[i]?).map Cell.constant

def withCells (d : Document Float) (s : Store Float) : Document Float := { d with cells := s.cells.toList }

variable (d : Document Float) (s : Store Float) (i : Nat)

@[simp] theorem valueAt_withCells : (d.withCells s).valueAt i = s.valueAt i := by
  rw [valueAt, withCells, Array.getElem?_toList, Store.valueAt]

@[simp] theorem constantAt_withCells : (d.withCells s).constantAt i = s.constantAt i := by
  rw [constantAt, withCells, Array.getElem?_toList, Store.constantAt]

end Document

section Loaded

variable {d : Document Float} {sketch : Sketch Float Relation} {s t : Store Float}

theorem Loaded.withCells (loaded : Loaded d Store.empty sketch s) : d.withCells s = d := by
  rw [Document.withCells, loaded.store, Store.laid]
  simp [Store.empty]

theorem Loaded.size_cells (loaded : Loaded d Store.empty sketch s) : s.cells.size = d.cells.length := by
  rw [← Array.length_toList]
  exact congrArg (fun d => d.cells.length) loaded.withCells

theorem Loaded.usedCells (loaded : Loaded d Store.empty sketch s) (saved : sketch.save s = .ok d) :
    sketch.usedCells s = List.range d.cells.length := by
  have numbered : d.usedCells = List.range d.cells.length :=
    (Document.normal_of_save loaded.sound saved).positions
  rw [loaded.usedCells_eq, numbered]
  simp [Store.empty]

private theorem Loaded.place (loaded : Loaded d Store.empty sketch s) (saved : sketch.save s = .ok d)
    {v : Variable} (member : v ∈ sketch.figureVariables) : sketch.place s v = s.cellOf v := by
  have found := Sketch.getElem?_place s member
  rw [loaded.usedCells saved] at found
  obtain ⟨inside, same⟩ := List.getElem?_eq_some_iff.mp found
  rwa [List.getElem_range] at same

theorem Loaded.exists_shape (loaded : Loaded d Store.empty sketch s) (saved : sketch.save s = .ok d)
    {id : EntityId} {figure : Figure Variable} (found : sketch.figure? id = some figure) :
    ∃ shape, d.shape? id = some shape ∧ shape.toList = figure.toList.map s.cellOf := by
  obtain ⟨e, first, rfl⟩ := Option.map_eq_some_iff.mp found
  refine ⟨e.figure.map (sketch.place s), ?_, ?_⟩
  · rw [Document.shape?, (Sketch.save_eq_ok.mp saved).figures, List.find?_map, Option.map_map]
    exact (congrArg (Option.map _) first).trans rfl
  · rw [Figure.toList_map, List.map_inj_left]
    intro v member
    exact loaded.place saved (Sketch.subset_figureVariables (List.mem_of_find?_eq_some first) member)

theorem Loaded.save_sameNames (loaded : Loaded d Store.empty sketch s) (saved : sketch.save s = .ok d)
    (names : Store.SameNames s t) : sketch.save t = .ok (d.withCells t) := by
  have cellOf : t.cellOf = s.cellOf := funext names.cellOf
  have used : sketch.usedCells t = sketch.usedCells s := by rw [Sketch.usedCells, Sketch.usedCells, cellOf]
  have place : sketch.place t = sketch.place s := by
    funext v
    rw [Sketch.place, Sketch.place, used, cellOf]
  have first := Sketch.save_eq_ok.mp saved
  refine Sketch.save_eq_ok.mpr ⟨?_, ?_, first.relations, first.config⟩
  · rw [used, loaded.usedCells saved, ← loaded.size_cells, ← names.size]
    apply List.ext_getElem (by simp [Document.withCells])
    intro i inside _
    have present : i < t.cells.size := inside
    simp [Document.withCells, present]
  · rw [place]
    exact first.figures

end Loaded

def Command.holds : Command → Bool
  | .pin request => request.hold
  | _ => false

namespace Document

open Execution

/-- The cells whose values a command sets itself. -/
def addressed (d : Document Float) : Command → List Nat
  | .pin request =>
    ((d.shape? request.target.figure).bind fun shape => shape.toList[request.target.index]?).toList
  | .drag request => (d.shape? request.figure).elim [] Figure.toList
  | _ => []

def translate (d : Document Float) (id : EntityId) (start goal : Point Float) :
    Except (SketchError Float) (Document Float) := do
  let (sketch, s) ← d.load Store.empty
  match sketch.figure? id with
  | none => throw (.unknownFigure id)
  | some figure => sketch.save (s.translate figure start goal)

/-- What an edit makes of a document. Nothing but values changes, and the flag of a cell that is pinned
to stay. The cells that the command addresses hold what it says, and other constant cells what they
held. -/
structure Edited (d : Document Float) (command : Command) (e : Document Float) : Prop where
  figures : e.figures = d.figures
  relations : e.relations = d.relations
  config : e.config = d.config
  count : e.cells.length = d.cells.length
  constants : ∀ i, e.constantAt i =
    (d.constantAt i).map (· || command.holds && decide (i ∈ d.addressed command))
  fixed : ∀ i ∉ d.addressed command, d.constantAt i = some true → e.valueAt i = d.valueAt i
  pinned : ∀ request, command = .pin request →
    ∃ i, d.addressed command = [i] ∧ e.valueAt i = some request.value
  dragged : ∀ request, command = .drag request →
    ∃ moved, d.translate request.figure request.start request.goal = .ok moved ∧
      ∀ i ∈ d.addressed command, ∃ x, moved.valueAt i = some x ∧ e.valueAt i = some x

section Commands

variable {d e : Document Float} {sketch : Sketch Float Relation} {s t : Store Float}
  (loaded : Loaded d Store.empty sketch s) (saved : sketch.save s = .ok d)

include loaded saved

theorem edited_of_store {command : Command}
    (edit : Store.Edited (d.addressed command) command.holds s t) (resaved : sketch.save t = .ok e)
    (pinned : ∀ request, command = .pin request →
      ∃ i, d.addressed command = [i] ∧ t.valueAt i = some request.value)
    (dragged : ∀ request, command = .drag request →
      ∃ moved, d.translate request.figure request.start request.goal = .ok moved ∧
        ∀ i ∈ d.addressed command, ∃ x, moved.valueAt i = some x ∧ t.valueAt i = some x) :
    d.Edited command e := by
  rw [loaded.save_sameNames saved edit.names] at resaved
  cases resaved
  have value : ∀ i, d.valueAt i = s.valueAt i := fun i => by
    rw [← d.valueAt_withCells s, loaded.withCells]
  have constant : ∀ i, d.constantAt i = s.constantAt i := fun i => by
    rw [← d.constantAt_withCells s, loaded.withCells]
  refine ⟨rfl, rfl, rfl, edit.names.size.trans loaded.size_cells, ?_, ?_, ?_, ?_⟩
  · intro i
    rw [constantAt_withCells, constant, edit.constants]
  · intro i apart held
    rw [valueAt_withCells, value]
    exact edit.fixed i apart (constant i ▸ held)
  · simpa using pinned
  · simpa using dragged

private theorem edited_of_pin {request : PinRequest} {v : Variable}
    (target : sketch.resolveVariable request.target = .ok v)
    (resaved : sketch.save (sketch.pinAndSolve v request.value request.hold s).store = .ok e) :
    d.Edited (.pin request) e := by
  obtain ⟨figure, found, place⟩ := Sketch.resolveVariable_eq_ok.mp target
  obtain ⟨entity, member, -, rfl⟩ := Sketch.exists_entity found
  obtain ⟨shape, known, cells⟩ := loaded.exists_shape saved found
  have addressed : d.addressed (.pin request) = [s.cellOf v] := by
    rw [Document.addressed, known, Option.bind_some, cells, List.getElem?_map, place]
    rfl
  obtain ⟨edit, present⟩ := sketch.edited_pinAndSolve s v request.value request.hold
  have live := loaded.sound.live v (Sketch.subset_figureVariables member (List.mem_of_getElem? place))
  refine edited_of_store loaded saved (addressed ▸ edit) resaved ?_ (fun _ => Command.noConfusion)
  rintro _ ⟨⟩
  exact ⟨s.cellOf v, addressed, present live⟩

private theorem edited_of_drag {request : DragRequest} {solve : Solve Float}
    (success : sketch.drag request.figure request.start request.goal request.damped s = .ok solve)
    (resaved : sketch.save solve.store = .ok e) : d.Edited (.drag request) e := by
  obtain ⟨figure, found, edit, kept⟩ := sketch.edited_drag s success
  obtain ⟨entity, member, -, rfl⟩ := Sketch.exists_entity found
  obtain ⟨shape, known, cells⟩ := loaded.exists_shape saved found
  have addressed : d.addressed (.drag request) = entity.figure.toList.map s.cellOf := by
    rw [Document.addressed, known, Option.elim_some, cells]
  let moved := s.translate entity.figure request.start request.goal
  have names : Store.SameNames s moved := s.sameNames_translate _ _ _
  have translated : d.translate request.figure request.start request.goal = .ok (d.withCells moved) := by
    rw [Document.translate, load_eq_ok.mpr loaded, ok_bind]
    simp only [found]
    exact loaded.save_sameNames saved names
  refine edited_of_store loaded saved (addressed ▸ edit) resaved (fun _ => Command.noConfusion) ?_
  rintro _ ⟨⟩
  refine ⟨d.withCells moved, translated, ?_⟩
  rw [addressed, List.forall_mem_map]
  intro v named
  have live := names.live (loaded.sound.live v (Sketch.subset_figureVariables member named))
  obtain ⟨x, present⟩ := live.exists_valueAt
  rw [names.cellOf] at present
  exact ⟨x, by rw [valueAt_withCells, present], (kept v named).trans present⟩

end Commands

private theorem edited_of_execute {d : Document Float} (normal : d.Normal) {command : Command}
    (edits : ∀ incoming, command ≠ .load incoming) {update : Update}
    (success : (d.execute command).outcome = .ok update) : d.Edited command update.document := by
  obtain ⟨sketch, s, opened, saved⟩ := normal Store.empty
  have loaded := load_eq_ok.mp opened
  cases command with
  | load incoming => exact absurd rfl (edits incoming)
  | solve damped =>
    rw [execute, opening_of_loaded loaded] at success
    exact edited_of_store loaded saved (sketch.edited_solve s [] damped) (saving_eq_ok success)
      (fun _ => Command.noConfusion) (fun _ => Command.noConfusion)
  | pin request =>
    rw [execute, opening_of_loaded loaded] at success
    split at success
    case h_1 => cases success
    case h_2 v target => exact edited_of_pin loaded saved target (saving_eq_ok success)
  | drag request =>
    rw [execute, opening_of_loaded loaded] at success
    split at success
    case h_1 => cases success
    case h_2 solve dragged => exact edited_of_drag loaded saved dragged (saving_eq_ok success)
  | get =>
    cases success
    exact edited_of_store loaded saved (.refl s) saved
      (fun _ => Command.noConfusion) (fun _ => Command.noConfusion)

/-- Whatever commands came before, one that succeeds and does not load another document changes
nothing of the document but the values of free cells and of those that it addresses, which hold what it
says, and the flag of a cell pinned to stay. -/
theorem through_edited (commands : List Command) {command : Command}
    (edits : ∀ incoming, command ≠ .load incoming) {update : Update}
    (success : (((empty : Document Float).through commands).execute command).outcome = .ok update) :
    ((empty : Document Float).through commands).Edited command update.document :=
  edited_of_execute (normal_through settled_empty.normal commands) edits success

section Hinged

def hinged : Document Float where
  cells := [⟨1, false⟩, ⟨2, false⟩, ⟨3, true⟩]
  figures := [⟨⟨1⟩, .point ⟨0, 1⟩⟩, ⟨⟨2⟩, .point ⟨0, 2⟩⟩]
  relations := [⟨.equalValues, [.bare ⟨⟨1⟩, 1⟩, .bare ⟨⟨2⟩, 1⟩]⟩]
  config := { Config.standard with maxIterations := 1 }

theorem through_edited_hinged :
    let d := (empty : Document Float).through [.load hinged]
    let command : Command := .drag ⟨⟨1⟩, ⟨0, 0⟩, ⟨5, 0⟩, false⟩
    ∃ update, (d.execute command).outcome = .ok update ∧ d.Edited command update.document := by
  intro d command
  obtain ⟨update, success⟩ : ∃ update, (d.execute command).outcome = .ok update :=
    exists_of_isOk (by decide +kernel)
  exact ⟨update, success, through_edited [.load hinged] (fun _ => Command.noConfusion) success⟩

end Hinged

end Document

end PlaneSketch
