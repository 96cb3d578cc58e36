import PlaneSketch.Proofs.Session.Execute
import PlaneSketch.Session.Request

/-! Single solve requests beside sessions. A request solves the sketch that its document is loaded as;
a session solves the sketch of a document that it has loaded and saved before. The two sketches mirror
each other, so the answers are the same. -/
namespace PlaneSketch

section Loaded

variable {α : Type} [Scalar α] {d : Document α} {sketch : Sketch α Relation} {t s : Store α}

private theorem Loaded.withConfig (loaded : Loaded d t sketch s) {config : Config α}
    (valid : config.validate = .ok ()) : Loaded { d with config } t { sketch with config } s :=
  ⟨valid, loaded.inside, loaded.ids, loaded.store, rfl, loaded.entities, loaded.relations⟩

/-- Loading what a loaded sketch is saved as gives a sketch that is solved with the same report and
saved as the same document afterwards. -/
private theorem Loaded.exists_reloaded (loaded : Loaded d t sketch s) (held : List EntityId) (damped : Bool)
    (u : Store α) :
    ∃ saved copy v e, sketch.save s = .ok saved ∧ saved.load u = .ok (copy, v) ∧
      (copy.solve held damped v).result = (sketch.solve held damped s).result ∧
      sketch.save (sketch.solve held damped s).store = .ok e ∧
      copy.save (copy.solve held damped v).store = .ok e := by
  obtain ⟨saved, success⟩ := loaded.exists_saved s
  have first := Sketch.save_eq_ok.mp success
  obtain ⟨copy, v, back, again, mirror⟩ := Sketch.exists_loaded loaded.sound first u
  obtain ⟨e, after, relations⟩ := first.exists_saved (sketch.solve held damped s).store
  have after' : copy.Saved (copy.solve held damped v).store e :=
    (mirror.solve held damped).saved after (relations ▸ again.recorded)
  exact ⟨saved, copy, v, e, success, load_eq_ok.mpr again, (mirror.result held damped).symm,
    Sketch.save_eq_ok.mpr after, Sketch.save_eq_ok.mpr after'⟩

end Loaded

namespace SolveRequest

open Execution

/-- A request for a document that loads is answered, and just as by a session, whatever that session
held before: it loads the document with the settings of the request and solves it. -/
theorem solve_as_session {d : Document Float} (accepted : ∃ opened, d.load Store.empty = .ok opened)
    {override : Option (Config Float)} (valid : ∀ config ∈ override, config.validate = .ok ())
    (damped : Bool) (before : Document Float) :
    ∃ response loaded, solve ⟨d, [], damped, override⟩ = .ok response ∧
      (before.execute (.load { d with config := override.getD d.config })).outcome =
        .ok ⟨loaded, none⟩ ∧
      (loaded.execute (.solve damped)).outcome = .ok ⟨response.document, some response.result⟩ := by
  obtain ⟨⟨sketch, s⟩, success⟩ := accepted
  have loaded := load_eq_ok.mp success
  let config := override.getD d.config
  have passes : config.validate = .ok () := by
    cases override with
    | none => exact loaded.valid
    | some config => exact valid config rfl
  have configured := loaded.withConfig passes
  obtain ⟨saved, copy, v, e, first, again, result, here, there⟩ :=
    configured.exists_reloaded [] damped Store.empty
  let solve := { sketch with config }.solve [] damped s
  refine ⟨⟨e, solve.result⟩, saved, ?_, ?_, ?_⟩
  · have same : override.getD sketch.config = config := by rw [loaded.config]
    refine bind_eq_ok.mpr ⟨(sketch, s), success, bind_eq_ok.mpr ⟨(), mapError_eq_ok.mpr ?_, ?_⟩⟩
    · exact same ▸ passes
    · refine bind_eq_ok.mpr ⟨e, ?_, ?_⟩
      · rw [same]
        exact here
      · rw [same]
        rfl
  · rw [Document.execute, opening_of_loaded configured]
    exact saving_of_save first
  · rw [Document.execute, opening_of_loaded (load_eq_ok.mp again)]
    exact (saving_of_save there).trans (by rw [result])

section Untidy

def untidy : Document Float where
  cells := [⟨5, false⟩, ⟨4, true⟩, ⟨3, false⟩]
  figures := [⟨⟨1⟩, .point ⟨2, 1⟩⟩]
  relations := [⟨.equalValues, [.bare ⟨⟨1⟩, 0⟩, .bare ⟨⟨1⟩, 1⟩]⟩]
  config := Config.standard

def hasty : Config Float := { Config.standard with maxIterations := 1 }

theorem solve_untidy_as_session :
    ∃ response loaded, solve ⟨untidy, [], true, some hasty⟩ = .ok response ∧
      (Document.empty.execute (.load { untidy with config := hasty })).outcome = .ok ⟨loaded, none⟩ ∧
      (loaded.execute (.solve true)).outcome = .ok ⟨response.document, some response.result⟩ := by
  have accepted : ∃ opened, untidy.load Store.empty = .ok opened := exists_of_isOk (by decide +kernel)
  refine solve_as_session accepted ?_ true Document.empty
  rintro config ⟨⟩
  exact Config.validate_eq_ok.mpr (by decide +kernel)

end Untidy

end SolveRequest

end PlaneSketch
