import PlaneSketch.Proofs.Document.Load
import PlaneSketch.Proofs.Sketch

/-! Saving a sketch and loading the document again. All variables are new and every position has one
of its own, but each stands for the variable that it was saved from: the new sketch mirrors the old
one, and solving both goes the same way. -/
namespace PlaneSketch

variable {α : Type}

/-- The variable that the one numbered `first + i` was saved from. -/
def backward (vs : List Variable) (first : Nat) (v : Variable) : Variable :=
  vs.getD (v.index - first) ⟨0⟩

private theorem map_backward (vs : List Variable) (first : Nat) :
    (Store.numbered first vs.length).map (backward vs first) = vs := by
  apply List.ext_getElem?
  intro i
  by_cases inside : i < vs.length
  · rw [List.getElem?_map, Store.getElem?_numbered inside]
    simp [backward, inside]
  · simp [Nat.le_of_not_lt inside]

private theorem Laid.entities_map {first : Nat} {records : List FigureRecord} {copies entities : List Entity}
    {number : Variable → Nat} {back : Variable → Variable} (laid : Laid first records copies)
    (recorded : records = entities.map fun e => ⟨e.id, e.figure.map number⟩)
    (names : (Store.numbered first (entities.flatMap fun e => e.figure.toList).length).map back =
      entities.flatMap fun e => e.figure.toList) :
    entities = copies.map (Entity.map back) := by
  induction laid generalizing entities with
  | nil =>
    cases entities with
    | nil => rfl
    | cons => cases recorded
  | @cons first record records figure copies kind positions _ ih =>
    cases entities with
    | nil => cases recorded
    | cons e entities =>
      obtain ⟨rfl, later⟩ := List.cons.inj recorded
      rw [List.flatMap_cons, List.length_append, ← Store.numbered_append, List.map_append] at names
      obtain ⟨here, names⟩ := List.append_inj names (by simp)
      rw [Figure.kind_map] at kind
      simp only [Figure.toList_map, List.length_map] at positions ih
      have same : e.figure = figure.map back := by
        apply Figure.ext_toList
        · rw [Figure.kind_map, kind]
        · rw [Figure.toList_map, positions, here]
      rw [List.map_cons, ← ih later names, Entity.map, ← same]

namespace Sketch

/-- A sketch that was put together as it should be: distinct ids, settings that pass, relations that
were built from operands, and variables of the store. -/
structure Sound [Scalar α] (sketch : Sketch α Relation) (s : Store α) : Prop where
  ids : sketch.ids.Nodup
  config : sketch.config.validate = .ok ()
  built : ∀ r ∈ sketch.relations, ∃ kind operands, Relation.build kind operands = .ok r
  live : ∀ v ∈ sketch.figureVariables, s.Live v

section Relations

variable {sketch copy : Sketch α Relation} {back : Variable → Variable} {r : Relation}
  {record : RelationRecord}

theorem buildRelation_eq_ok : sketch.buildRelation record = .ok r ↔
    ∃ found, List.Forall₂ (fun ref op => sketch.resolveOperand ref = .ok op) record.operands found ∧
      Relation.build record.kind found = .ok r := by
  rw [buildRelation, bind_eq_ok]
  simp only [mapM_eq_ok, mapError_eq_ok]

private theorem exists_buildRelation (ids : sketch.ids.Nodup)
    (entities : sketch.entities = copy.entities.map (Entity.map back))
    (built : ∃ kind operands, Relation.build kind operands = .ok r)
    (recorded : sketch.recordRelation r = .ok record) :
    ∃ again, copy.buildRelation record = .ok again ∧ again.map back = r := by
  obtain ⟨kind, refs⟩ := recordRelation_eq_ok.mp recorded
  obtain ⟨_, _, success⟩ := built
  obtain ⟨-, enough, -⟩ := Relation.build_eq_ok.mp success
  have resolved : ∃ found, List.Forall₂ (fun ref op => copy.resolveOperand ref = .ok op)
      record.operands found ∧
      List.Forall₂ Operand.StandsFor (found.map (Operand.map back)) r.operands := by
    revert refs
    generalize r.operands = ops, record.operands = refs
    intro refs
    induction refs with
    | nil => exact ⟨[], .nil, .nil⟩
    | cons head _ ih =>
      obtain ⟨found, leads, stands⟩ := exists_resolveOperand ids head
      rw [resolveOperand_map entities] at leads
      obtain ⟨op, here, rfl⟩ := map_eq_ok.mp leads
      obtain ⟨rest, later, others⟩ := ih
      exact ⟨op :: rest, .cons here later, .cons stands others⟩
  obtain ⟨found, resolved, stands⟩ := resolved
  obtain ⟨again, success, same⟩ := Relation.exists_build back
    (Relation.build_eq_ok.mpr ⟨kind.symm, enough, stands⟩)
  exact ⟨again, buildRelation_eq_ok.mpr ⟨found, resolved, success⟩, same⟩

private theorem recordRelation_of_buildRelation (nodup : sketch.figureVariables.Nodup)
    (success : sketch.buildRelation record = .ok r) : sketch.recordRelation r = .ok record := by
  obtain ⟨found, resolved, built⟩ := buildRelation_eq_ok.mp success
  obtain ⟨kind, -, stands⟩ := Relation.build_eq_ok.mp built
  refine recordRelation_eq_ok.mpr ⟨kind.symm, (forall₂_trans ?_ resolved stands).flip⟩
  exact fun ref op operand => recordOperand?_of_resolveOperand nodup

private theorem owned_subset_of_buildRelation (success : sketch.buildRelation record = .ok r) :
    r.owned ⊆ sketch.figureVariables := by
  obtain ⟨found, resolved, built⟩ := buildRelation_eq_ok.mp success
  obtain ⟨-, -, stands⟩ := Relation.build_eq_ok.mp built
  intro v named
  rw [Relation.owned_eq_operands] at named
  obtain ⟨operand, member, named⟩ := List.mem_flatMap.mp named
  obtain ⟨op, given, stands⟩ := exists_of_mem_right stands member
  obtain ⟨ref, -, success⟩ := exists_of_mem_right resolved given
  exact toList_subset_of_resolveOperand success (stands.toList_subset named)

end Relations

section Reload

variable [Scalar α] {sketch : Sketch α Relation} {s : Store α} {d : Document α}

theorem Saved.positions (saved : sketch.Saved s d) :
    (d.figures.flatMap fun r => r.shape.toList) = sketch.figureVariables.map (sketch.place s) := by
  rw [saved.figures, List.flatMap_map, figureVariables, List.map_flatMap]
  exact List.flatMap_congr fun e _ => Figure.toList_map _ e.figure

private theorem Saved.ids (saved : sketch.Saved s d) : d.figures.map FigureRecord.id = sketch.ids := by
  rw [saved.figures, List.map_map]
  rfl

private theorem Saved.inside (saved : sketch.Saved s d) :
    ∀ r ∈ d.figures, ∀ i ∈ r.shape.toList, i < d.cells.length := by
  intro r member i position
  have listed : i ∈ d.figures.flatMap fun r => r.shape.toList := List.mem_flatMap.mpr ⟨r, member, position⟩
  rw [saved.positions] at listed
  obtain ⟨v, named, rfl⟩ := List.mem_map.mp listed
  rw [saved.cells, List.length_map]
  exact place_lt s named

/-- The cells laid down for a document are seen through new variables as the saved ones were. -/
private theorem mirrors_laid (saved : sketch.Saved s d) (live : ∀ v ∈ sketch.figureVariables, s.Live v)
    (t : Store α) :
    Store.Mirrors (backward sketch.figureVariables (t.named.size + d.cells.length))
      (Store.numbered (t.named.size + d.cells.length) sketch.figureVariables.length)
      (t.laid d.cells (d.figures.flatMap fun r => r.shape.toList)) s := by
  let vs := sketch.figureVariables
  let back := backward vs (t.named.size + d.cells.length)
  let laid := t.laid d.cells (d.figures.flatMap fun r => r.shape.toList)
  have stands : ∀ v ∈ Store.numbered (t.named.size + d.cells.length) vs.length,
      back v ∈ vs ∧ laid.cellOf v = t.cells.size + sketch.place s (back v) := by
    intro v member
    obtain ⟨i, inside, same⟩ := List.getElem_of_mem member
    rw [Store.length_numbered] at inside
    have number : (Store.numbered (t.named.size + d.cells.length) vs.length)[i]? = _ :=
      Store.getElem?_numbered inside
    rw [List.getElem?_eq_getElem (by simpa using inside), same, Option.some.injEq] at number
    subst number
    have original : back ⟨t.named.size + d.cells.length + i⟩ = vs[i] := by simp [back, backward, inside]
    rw [original]
    refine ⟨List.getElem_mem inside, Store.cellOf_laid_position t d.cells _ ?_⟩
    rw [saved.positions, List.getElem?_map, List.getElem?_eq_getElem inside, Option.map_some]
  have bound : ∀ v ∈ vs, sketch.place s v < d.cells.length := by
    intro v member
    rw [saved.cells, List.length_map]
    exact place_lt s member
  refine ⟨⟨?_, ?_⟩, ?_, fun v member => live _ (stands v member).1⟩
  · intro v member
    have cell : d.cells[sketch.place s (back v)]? = some (s.cell (back v)) := by
      rw [saved.cells, List.getElem?_map, getElem?_place s (stands v member).1]
      rfl
    rw [Store.cell_eq, (stands v member).2, Store.getElem?_laid, cell]
    rfl
  · intro v first w second
    rw [Bool.eq_iff_iff, Store.isLinked_iff, Store.isLinked_iff, (stands v first).2,
      (stands w second).2, Nat.add_left_cancel_iff]
    exact place_eq_iff s (stands v first).1
  · intro v member
    rw [Store.Live, (stands v member).2, Store.size_cells_laid]
    exact Nat.add_lt_add_left (bound _ (stands v member).1) _

/-- A saved document loads beside any store, and the loaded sketch mirrors the saved one. -/
theorem exists_loaded (sound : sketch.Sound s) (saved : sketch.Saved s d) (t : Store α) :
    ∃ copy t' back, Loaded d t copy t' ∧ Mirrors back copy t' sketch s := by
  let first := t.named.size + d.cells.length
  obtain ⟨copies, laid⟩ := Laid.exists_entities first d.figures
  have count : (d.figures.flatMap fun r => r.shape.toList).length = sketch.figureVariables.length := by
    rw [saved.positions, List.length_map]
  have entities := laid.entities_map saved.figures (map_backward sketch.figureVariables first)
  have found : ∃ relations, List.Forall₂
      (fun record r => (⟨copies, [], d.config⟩ : Sketch α Relation).buildRelation record = .ok r)
      d.relations relations ∧
      relations.map (Relation.map (backward sketch.figureVariables first)) = sketch.relations := by
    apply exists_forall₂ ((List.forall₂_and_left _ _).mpr ⟨sound.built, saved.relations⟩)
    rintro r record ⟨built, recorded⟩
    exact exists_buildRelation sound.ids entities built recorded
  obtain ⟨relations, built, same⟩ := found
  refine ⟨⟨copies, relations, d.config⟩, _, backward sketch.figureVariables first,
    ⟨?_, saved.inside, ?_, rfl, rfl, laid, built⟩, ⟨entities, same.symm, saved.config.symm, ?_, ?_⟩⟩
  · rw [saved.config]
    exact sound.config
  · rw [saved.ids]
    exact sound.ids
  · intro r member
    obtain ⟨record, -, success⟩ := exists_of_mem_right built member
    exact owned_subset_of_buildRelation success
  · have mirror := mirrors_laid saved sound.live t
    rw [← count, ← laid.flatMap_toList] at mirror
    exact mirror

end Reload

end Sketch

section Reload

variable [Scalar α] {d : Document α} {sketch copy : Sketch α Relation} {s t : Store α}

theorem Loaded.recorded (loaded : Loaded d t copy s) :
    List.Forall₂ (fun r record => copy.recordRelation r = .ok record) copy.relations d.relations := by
  have nodup : copy.figureVariables.Nodup := by
    rw [Sketch.figureVariables, loaded.entities.flatMap_toList]
    exact Store.nodup_numbered _ _
  apply List.Forall₂.flip
  exact loaded.relations.imp fun record r => Sketch.recordRelation_of_buildRelation nodup

theorem Sketch.Saved.exists_saved (saved : sketch.Saved s d) (t : Store α) :
    ∃ e, sketch.Saved t e ∧ e.relations = d.relations :=
  ⟨⟨_, _, d.relations, sketch.config⟩, ⟨rfl, rfl, saved.relations, rfl⟩, rfl⟩

/-- Saving and loading again changes nothing that a solve could show: the document loads, is saved
as itself, and the two sketches give equal reports and equal documents however they are solved. -/
theorem Sketch.Sound.reload (sound : sketch.Sound s) (saved : sketch.save s = .ok d) (t : Store α) :
    ∃ copy t', d.load t = .ok (copy, t') ∧ copy.save t' = .ok d ∧
      ∀ held damped,
        (sketch.solve held damped s).fault = none ∧ (copy.solve held damped t').fault = none ∧
        (copy.solve held damped t').result = (sketch.solve held damped s).result ∧
        ∃ e, sketch.save (sketch.solve held damped s).store = .ok e ∧
          copy.save (copy.solve held damped t').store = .ok e := by
  have saved := Sketch.save_eq_ok.mp saved
  obtain ⟨copy, t', back, loaded, mirror⟩ := Sketch.exists_loaded sound saved t
  refine ⟨copy, t', load_eq_ok.mpr loaded, Sketch.save_eq_ok.mpr (mirror.saved saved loaded.recorded), ?_⟩
  intro held damped
  refine ⟨Relation.fault_relaxAtMost .., Relation.fault_relaxAtMost .., (mirror.result held damped).symm, ?_⟩
  obtain ⟨e, after, relations⟩ := saved.exists_saved (sketch.solve held damped s).store
  refine ⟨e, Sketch.save_eq_ok.mpr after, Sketch.save_eq_ok.mpr ?_⟩
  exact (mirror.solve held damped).saved after (relations ▸ loaded.recorded)

end Reload

section Shared

/-- A point that is also an end of a line and the center of an arc. The circle of the arc touches
the line, the ends of the line are linked in their heights, and a coordinate is pinned. -/
def sharedSketch : Sketch Float Relation where
  entities := [⟨⟨1⟩, .point ⟨⟨0⟩, ⟨1⟩⟩⟩, ⟨⟨2⟩, .line ⟨⟨⟨0⟩, ⟨1⟩⟩, ⟨⟨2⟩, ⟨3⟩⟩⟩⟩,
    ⟨⟨3⟩, .arc ⟨⟨⟨0⟩, ⟨1⟩⟩, ⟨4⟩, ⟨⟨2⟩, ⟨3⟩⟩, ⟨⟨3⟩, ⟨2⟩⟩⟩⟩]
  relations := [.tangentLine ⟨⟨⟨0⟩, ⟨1⟩⟩, ⟨⟨2⟩, ⟨3⟩⟩⟩ ⟨⟨⟨0⟩, ⟨1⟩⟩, ⟨4⟩⟩, .equalValues [⟨0⟩, ⟨2⟩]]
  config := Config.standard

def sharedStore : Store Float :=
  ⟨#[⟨1, true⟩, ⟨2, false⟩, ⟨3, false⟩, ⟨4, false⟩], #[0, 1, 2, 1, 3]⟩

def sharedDocument : Document Float where
  cells := [⟨1, true⟩, ⟨2, false⟩, ⟨3, false⟩, ⟨4, false⟩]
  figures := [⟨⟨1⟩, .point ⟨0, 1⟩⟩, ⟨⟨2⟩, .line ⟨⟨0, 1⟩, ⟨2, 1⟩⟩⟩,
    ⟨⟨3⟩, .arc ⟨⟨0, 1⟩, 3, ⟨2, 1⟩, ⟨1, 2⟩⟩⟩]
  relations := [⟨.tangentLine, [.figure ⟨⟨2⟩, none⟩, .figure ⟨⟨3⟩, none⟩]⟩,
    ⟨.equalValues, [.bare ⟨⟨1⟩, 0⟩, .bare ⟨⟨2⟩, 2⟩]⟩]
  config := Config.standard

private theorem sharedSketch_sound : sharedSketch.Sound sharedStore where
  ids := by decide
  config := rfl
  built := by
    intro r member
    simp only [sharedSketch, List.mem_cons, List.not_mem_nil, or_false] at member
    rcases member with rfl | rfl
    · exact ⟨.tangentLine, [.figure (.line _), .figure (.circle _)], rfl⟩
    · exact ⟨.equalValues, [.bare _, .bare _], rfl⟩
  live := by decide

private theorem save_sharedSketch : sharedSketch.save sharedStore = .ok sharedDocument := rfl

theorem reload_shared : ∃ copy t', sharedDocument.load sharedStore = .ok (copy, t') ∧
    copy.save t' = .ok sharedDocument ∧ ∀ held damped,
      (copy.solve held damped t').result = (sharedSketch.solve held damped sharedStore).result := by
  obtain ⟨copy, t', loaded, saved, solves⟩ :=
    sharedSketch_sound.reload save_sharedSketch sharedStore
  exact ⟨copy, t', loaded, saved, fun held damped => (solves held damped).2.2.1⟩

end Shared

end PlaneSketch
