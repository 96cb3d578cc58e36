import PlaneSketch.Proofs.Session.Server
import PlaneSketch.Proofs.Solver.Instalments

/-! Sessions at rest. The sketch that a session solves is made anew from the document every time, but
it mirrors the one that was saved, so a solve that has converged is found to have converged again. -/
namespace PlaneSketch

def Command.AsksSolve (text : String) : Prop := ∃ damped, Command.parse text = .ok (.solve damped)

private theorem Command.asksSolve_plain : Command.AsksSolve "SOLVE" := ⟨false, rfl⟩

private theorem Command.asksSolve_damped : Command.AsksSolve "SOLVE_DAMPED" := ⟨true, rfl⟩

def Reply.report? : Reply → Option (SolveResult Float)
  | .update u => u.result
  | .error _ => none

namespace Document

open Execution

/-- Solving leaves the document as it is, without a pass, and reports the error. -/
def Rests (d : Document Float) (error : Float) : Prop :=
  ∀ damped, ∃ report, (d.execute (.solve damped)).outcome = .ok ⟨d, some report⟩ ∧
    report.iterations = 0 ∧ report.error = error ∧ report.converged = true

variable {d : Document Float} {error : Float}

private theorem rests_of_solve {damped : Bool} {update : Update} {report : SolveResult Float}
    (success : (d.execute (.solve damped)).outcome = .ok update) (reported : update.result = some report)
    (converged : report.converged = true) : update.document.Rests report.error := by
  obtain ⟨sketch, s, loaded, success⟩ := opening_eq_ok success
  obtain ⟨document, saved, rfl⟩ := map_eq_ok.mp success
  cases reported
  let left := (sketch.solve [] damped s).store
  have saved : sketch.Saved left document := Sketch.save_eq_ok.mp (mapError_eq_ok.mp saved)
  have sound : sketch.Sound left := loaded.sound.sameNames (sketch.sameNames_solve s [] damped)
  -- The next solve is one of a copy that mirrors the sketch as the first solve has left it.
  obtain ⟨copy, t, back, reloaded, mirror⟩ := Sketch.exists_loaded sound saved Store.empty
  intro other
  obtain ⟨stays, rest⟩ :=
    solve_converged sketch.config sketch.relations sketch.entities.length [] damped other s converged
  have result : (copy.solve [] other t).result = (sketch.solve [] other left).result :=
    (mirror.result [] other).symm
  have again : sketch.Saved (sketch.solve [] other left).store document := stays.symm ▸ saved
  refine ⟨(copy.solve [] other t).result, ?_, result ▸ rest⟩
  rw [execute, opening_of_loaded reloaded]
  exact saving_of_save (Sketch.save_eq_ok.mpr ((mirror.solve [] other).saved again reloaded.recorded))

theorem Rests.dispatch (rests : d.Rests error) {text : String} (asks : Command.AsksSolve text) :
    ∃ report, (d.dispatch text).document = d ∧ (d.dispatch text).reply = .update ⟨d, some report⟩ ∧
      report.iterations = 0 ∧ report.error = error ∧ report.converged = true := by
  obtain ⟨damped, parsed⟩ := asks
  obtain ⟨report, outcome, stays⟩ := rests damped
  obtain ⟨document, reply⟩ := dispatch_of_ok parsed outcome
  exact ⟨report, document, reply, stays⟩

private theorem Rests.after (rests : d.Rests error) {texts : List String}
    (ask : ∀ text ∈ texts, Command.AsksSolve text) : d.after texts = d := by
  induction texts with
  | nil => rfl
  | cons text texts ih =>
    obtain ⟨first, others⟩ := List.forall_mem_cons.mp ask
    obtain ⟨-, same, -⟩ := rests.dispatch first
    change (d.dispatch text).document.after texts = d
    rw [same, ih others]

private theorem rests_of_report {text : String} (asks : Command.AsksSolve text) {report : SolveResult Float}
    (reported : (d.dispatch text).reply.report? = some report) (converged : report.converged = true) :
    (d.dispatch text).document.Rests report.error := by
  obtain ⟨damped, parsed⟩ := asks
  cases outcome : (d.execute (.solve damped)).outcome with
  | error e =>
    rw [(dispatch_of_error parsed outcome).2] at reported
    cases reported
  | ok update =>
    obtain ⟨document, reply⟩ := dispatch_of_ok parsed outcome
    rw [reply] at reported
    rw [document]
    exact rests_of_solve outcome reported converged

/-- Whatever document a session has, once the reply to a solve reports that it has converged, further
solves, damped or not, make no pass, report the same error and leave the document as it is. -/
theorem solve_stays_converged (d : Document Float) {text : String} (asks : Command.AsksSolve text)
    {report : SolveResult Float} (reported : (d.dispatch text).reply.report? = some report)
    (converged : report.converged = true) {texts : List String}
    (ask : ∀ text ∈ texts, Command.AsksSolve text) {next : String} (asksNext : Command.AsksSolve next) :
    let left := (d.dispatch text).document
    let later := left.after texts
    later = left ∧ (later.dispatch next).document = left ∧
      ∃ again, (later.dispatch next).reply = .update ⟨left, some again⟩ ∧
        again.iterations = 0 ∧ again.error = report.error ∧ again.converged = true := by
  intro left later
  have rests : left.Rests report.error := rests_of_report asks reported converged
  have same : later = left := rests.after ask
  obtain ⟨again, document, reply, idle⟩ := rests.dispatch asksNext
  rw [same]
  exact ⟨rfl, document, again, reply, idle⟩

section Settling

def settling : Document Float where
  cells := [⟨0, false⟩, ⟨2, false⟩]
  figures := [⟨⟨1⟩, .point ⟨0, 1⟩⟩]
  relations := [⟨.equalValues, [.bare ⟨⟨1⟩, 0⟩, .bare ⟨⟨1⟩, 1⟩]⟩]
  config := { Config.standard with tolerance := 1 }

theorem solve_stays_converged_settling :
    ∃ report, (settling.dispatch "SOLVE").reply.report? = some report ∧ report.converged = true ∧
      report.iterations ≠ 0 ∧
      let left := (settling.dispatch "SOLVE").document
      let later := left.after ["SOLVE_DAMPED", "SOLVE"]
      later = left ∧ (later.dispatch "SOLVE_DAMPED").document = left ∧
        ∃ again, (later.dispatch "SOLVE_DAMPED").reply = .update ⟨left, some again⟩ ∧
          again.iterations = 0 ∧ again.error = report.error ∧ again.converged = true := by
  have solved : (settling.dispatch "SOLVE").reply.report?.any
      (fun report => report.converged && report.iterations != 0) = true := by decide +kernel
  obtain ⟨report, reported, passes⟩ := (Option.any_eq_true _ _).mp solved
  obtain ⟨converged, some⟩ := Bool.and_eq_true_iff.mp passes
  have ask : ∀ text ∈ ["SOLVE_DAMPED", "SOLVE"], Command.AsksSolve text := by
    simp [Command.asksSolve_plain, Command.asksSolve_damped]
  exact ⟨report, reported, converged, bne_iff_ne.mp some, solve_stays_converged settling
    Command.asksSolve_plain reported converged ask Command.asksSolve_damped⟩

end Settling

end Document

end PlaneSketch
