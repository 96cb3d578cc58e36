import PlaneSketch.Document.Load
import PlaneSketch.Proofs.Shape
import PlaneSketch.Proofs.Store.Cells
import Mathlib.Data.List.Basic

/-! What loading a document does. Every cell of the document becomes a new cell, and every position
of a figure becomes a new variable that names one of them; the variables are numbered in the order
of the figures and of their positions. -/
namespace PlaneSketch

namespace Store

variable {α : Type}

/-- The store with new cells, a variable for each of them, and then a variable for each position. -/
def laid (t : Store α) (made : List (Cell α)) (positions : List Nat) : Store α where
  cells := t.cells ++ made.toArray
  named := t.named ++ (List.range' t.cells.size made.length).toArray ++
    (positions.map (t.cells.size + ·)).toArray

def numbered (first count : Nat) : List Variable := (List.range' first count).map Variable.mk

variable (t : Store α) (made : List (Cell α)) (positions : List Nat)

@[simp] theorem length_numbered (first count : Nat) : (numbered first count).length = count := by
  simp [numbered]

theorem numbered_append (first m n : Nat) :
    numbered first m ++ numbered (first + m) n = numbered first (m + n) := by
  rw [numbered, numbered, numbered, ← List.map_append, List.range'_append_1]

theorem nodup_numbered (first count : Nat) : (numbered first count).Nodup := by
  apply List.Nodup.map _ List.nodup_range'
  intro i j same
  exact Variable.mk.inj same

theorem getElem?_numbered {first count i : Nat} (inside : i < count) :
    (numbered first count)[i]? = some ⟨first + i⟩ := by
  simp [numbered, inside]

@[simp] theorem size_named_laid :
    (t.laid made positions).named.size = t.named.size + made.length + positions.length := by
  simp [laid]
  omega

@[simp] theorem size_cells_laid :
    (t.laid made positions).cells.size = t.cells.size + made.length := by
  simp [laid]

private theorem cellOf_laid_cell {i : Nat} (inside : i < made.length) :
    (t.laid made positions).cellOf ⟨t.named.size + i⟩ = t.cells.size + i := by
  have later : ¬t.named.size + i < t.named.size := by omega
  simp [cellOf, laid, Array.getElem?_append, inside, later]

theorem cellOf_laid_position {i j : Nat} (found : positions[j]? = some i) :
    (t.laid made positions).cellOf ⟨t.named.size + made.length + j⟩ = t.cells.size + i := by
  have later : ¬t.named.size + made.length + j < t.named.size := by omega
  have place : t.named.size + made.length + j - t.named.size = made.length + j := by omega
  have further : ¬made.length + j < made.length := by omega
  simp [cellOf, laid, Array.getElem?_append, later, place, further, found]

theorem getElem?_laid (i : Nat) : (t.laid made positions).cells[t.cells.size + i]? = made[i]? := by
  have later : ¬t.cells.size + i < t.cells.size := by omega
  simp [laid, Array.getElem?_append, later]

private theorem laid_laid (cell : Cell α) : (t.laid [cell] []).laid made [] = t.laid (cell :: made) [] := by
  simp only [laid, Store.mk.injEq]
  constructor
  · simp
  · apply Array.toList_inj.mp
    simp [List.range'_succ]

private theorem share_laid {m : Type → Type} [Monad m] {i : Nat} (inside : i < made.length) :
    share ⟨t.named.size + i⟩ (t.laid made positions) =
      (pure (⟨t.named.size + made.length + positions.length⟩, t.laid made (positions ++ [i])) : m _) := by
  rw [share, cellOf_laid_cell t made positions inside, size_named_laid]
  simp [laid]

private theorem mapM_fresh {ε : Type} :
    made.mapM (fun cell => fresh cell.value cell.constant) t =
      (.ok (numbered t.named.size made.length, t.laid made []) : Except ε _) := by
  induction made generalizing t with
  | nil => simp [laid, numbered]
  | cons cell made ih =>
    rw [List.mapM_cons]
    change (made.mapM (fun cell => fresh cell.value cell.constant) (t.laid [cell] []) >>=
      fun later => Except.ok (⟨t.named.size⟩ :: later.1, later.2)) = _
    rw [ih, laid_laid, ok_bind]
    simp [numbered, List.range'_succ, laid]

end Store

/-- Entities made of consecutive variables, one figure after the other. -/
inductive Laid : Nat → List FigureRecord → List Entity → Prop
  | nil (first : Nat) : Laid first [] []
  | cons {first : Nat} {record : FigureRecord} {records : List FigureRecord} {figure : Figure Variable}
    {entities : List Entity} (kind : figure.kind = record.shape.kind)
    (positions : figure.toList = Store.numbered first record.shape.toList.length)
    (rest : Laid (first + record.shape.toList.length) records entities) :
    Laid first (record :: records) (⟨record.id, figure⟩ :: entities)

namespace Laid

variable {first : Nat} {records : List FigureRecord} {entities : List Entity}

theorem exists_entities (first : Nat) (records : List FigureRecord) :
    ∃ entities, Laid first records entities := by
  induction records generalizing first with
  | nil => exact ⟨[], .nil first⟩
  | cons record records ih =>
    obtain ⟨figure, kind, positions⟩ := record.shape.exists_of_length
      (Store.numbered first record.shape.toList.length) (by simp)
    obtain ⟨entities, rest⟩ := ih (first + record.shape.toList.length)
    exact ⟨_, .cons kind positions rest⟩

theorem ids (laid : Laid first records entities) :
    entities.map Entity.id = records.map FigureRecord.id := by
  induction laid with
  | nil => rfl
  | cons _ _ _ ih => rw [List.map_cons, List.map_cons, ih]

theorem flatMap_toList (laid : Laid first records entities) :
    (entities.flatMap fun e => e.figure.toList) =
      Store.numbered first (records.flatMap fun r => r.shape.toList).length := by
  induction laid with
  | nil => rfl
  | cons _ positions _ ih =>
    rw [List.flatMap_cons, List.flatMap_cons, ih, positions, Store.numbered_append, List.length_append]

theorem find?_kind (laid : Laid first records entities) (id : EntityId) :
    (entities.find? fun e => e.id == id).map (fun e => e.figure.kind) =
      (records.find? fun r => r.id == id).map fun r => r.shape.kind := by
  induction laid with
  | nil => rfl
  | @cons _ record _ _ _ kind _ _ ih =>
    rw [List.find?_cons, List.find?_cons]
    cases record.id == id with
    | true => exact congrArg some kind
    | false => exact ih

end Laid

namespace Loading

variable {α ρ : Type} {t : Store α} {made : List (Cell α)}

theorem variableAt_laid (positions : List Nat) (i : Nat) :
    variableAt (Store.numbered t.named.size made.length) i (t.laid made positions) =
      if i < made.length then
        .ok (⟨t.named.size + made.length + positions.length⟩, t.laid made (positions ++ [i]))
      else .error (.unknownCell i) := by
  by_cases inside : i < made.length
  · rw [if_pos inside, variableAt, Store.getElem?_numbered inside]
    exact Store.share_laid t made positions inside
  · have missing : (Store.numbered t.named.size made.length)[i]? = none := by simpa using inside
    rw [if_neg inside, variableAt, missing]
    rfl

private theorem mapM_variableAt {indices positions : List Nat} {vs : List Variable} {s : Store α} :
    indices.mapM (variableAt (Store.numbered t.named.size made.length)) (t.laid made positions) =
        .ok (vs, s) ↔
      (∀ i ∈ indices, i < made.length) ∧
        vs = Store.numbered (t.named.size + made.length + positions.length) indices.length ∧
        s = t.laid made (positions ++ indices) := by
  induction indices generalizing positions vs s with
  | nil =>
    simp [Store.numbered, eq_comm]
  | cons i indices ih =>
    rw [List.mapM_cons]
    change (variableAt _ i (t.laid made positions) >>= fun here =>
      indices.mapM (variableAt _) here.2 >>= fun later =>
        Except.ok (here.1 :: later.1, later.2)) = _ ↔ _
    rw [variableAt_laid]
    by_cases inside : i < made.length
    · rw [if_pos inside, ok_bind, bind_eq_ok]
      constructor
      · rintro ⟨⟨later, s'⟩, success, same⟩
        cases same
        obtain ⟨others, rfl, rfl⟩ := ih.mp success
        refine ⟨List.forall_mem_cons.mpr ⟨inside, others⟩, ?_, by simp⟩
        simp [Store.numbered, List.range'_succ, Nat.add_assoc]
      · rintro ⟨all, rfl, rfl⟩
        refine ⟨_, ih.mpr ⟨(List.forall_mem_cons.mp all).2, rfl, rfl⟩, ?_⟩
        simp [Store.numbered, List.range'_succ, Nat.add_assoc]
    · rw [if_neg inside, error_bind]
      constructor
      · intro success
        cases success
      · rintro ⟨all, _⟩
        exact absurd (all i List.mem_cons_self) inside

private theorem insert_eq_ok {sketch sketch' : Sketch α ρ} {id : EntityId} {figure : Figure Variable} :
    sketch.insert id figure = .ok sketch' ↔
      id ∉ sketch.entities.map Entity.id ∧
        sketch' = { sketch with entities := sketch.entities ++ [⟨id, figure⟩] } := by
  have known : (sketch.figure? id).isSome = true ↔ id ∈ sketch.entities.map Entity.id := by
    simp [Sketch.figure?]
  rw [Sketch.insert]
  split
  case isTrue found => simp [known.mp found]
  case isFalse missing =>
    rw [known] at missing
    simp [missing, eq_comm]

theorem addFigure_eq (cells : List Variable) (sketch : Sketch α ρ) (record : FigureRecord)
    (s : Store α) :
    addFigure cells sketch record s = record.shape.mapM (variableAt cells) s >>= fun built =>
      (sketch.insert record.id built.1).map fun sketch => (sketch, built.2) := by
  rw [addFigure]
  change (record.shape.mapM (variableAt cells) s >>= fun built => _) = _
  congr 1

theorem addFigure_laid {sketch sketch' : Sketch α ρ} {record : FigureRecord} {positions : List Nat}
    {s : Store α} :
    addFigure (Store.numbered t.named.size made.length) sketch record (t.laid made positions) =
        .ok (sketch', s) ↔
      (∀ i ∈ record.shape.toList, i < made.length) ∧ record.id ∉ sketch.entities.map Entity.id ∧
        s = t.laid made (positions ++ record.shape.toList) ∧
          ∃ figure : Figure Variable, figure.kind = record.shape.kind ∧
            figure.toList = Store.numbered (t.named.size + made.length + positions.length)
              record.shape.toList.length ∧
            sketch' = { sketch with entities := sketch.entities ++ [⟨record.id, figure⟩] } := by
  rw [addFigure_eq, bind_eq_ok]
  constructor
  · rintro ⟨⟨figure, s'⟩, built, inserted⟩
    obtain ⟨_, added, same⟩ := map_eq_ok.mp inserted
    cases same
    obtain ⟨kind, visited⟩ := Figure.mapM_eq_ok.mp built
    obtain ⟨inside, numbers, rfl⟩ := mapM_variableAt.mp visited
    obtain ⟨unknown, rfl⟩ := insert_eq_ok.mp added
    exact ⟨inside, unknown, rfl, figure, kind, numbers, rfl⟩
  · rintro ⟨inside, unknown, rfl, figure, kind, numbers, rfl⟩
    have built := Figure.mapM_eq_ok.mpr ⟨kind, mapM_variableAt.mpr ⟨inside, numbers, rfl⟩⟩
    exact ⟨_, built, map_eq_ok.mpr ⟨_, insert_eq_ok.mpr ⟨unknown, rfl⟩, rfl⟩⟩

theorem newIds_cons {old : List EntityId} {record : FigureRecord} {records : List FigureRecord} :
    (((record :: records).map FigureRecord.id).Nodup ∧ ∀ r ∈ record :: records, r.id ∉ old) ↔
      record.id ∉ old ∧ (records.map FigureRecord.id).Nodup ∧ ∀ r ∈ records, r.id ∉ old ++ [record.id] := by
  have apart : (∀ r ∈ records, r.id ∉ old ++ [record.id]) ↔
      record.id ∉ records.map FigureRecord.id ∧ ∀ r ∈ records, r.id ∉ old := by
    simp only [List.mem_append, List.mem_singleton, not_or, List.mem_map, not_exists, not_and,
      ← forall_and]
    exact forall₂_congr fun r member => and_comm
  rw [apart, List.map_cons, List.nodup_cons, List.forall_mem_cons]
  tauto

/-- Figures are added one after the other as long as their cells exist and their ids are new. -/
theorem foldlM_addFigure {sketch sketch' : Sketch α ρ} {records : List FigureRecord}
    {positions : List Nat} {s : Store α} :
    records.foldlM (addFigure (Store.numbered t.named.size made.length)) sketch
        (t.laid made positions) = .ok (sketch', s) ↔
      (∀ r ∈ records, ∀ i ∈ r.shape.toList, i < made.length) ∧
        ((records.map FigureRecord.id).Nodup ∧
          ∀ r ∈ records, r.id ∉ sketch.entities.map Entity.id) ∧
        s = t.laid made (positions ++ records.flatMap fun r => r.shape.toList) ∧
        ∃ entities, Laid (t.named.size + made.length + positions.length) records entities ∧
          sketch' = { sketch with entities := sketch.entities ++ entities } := by
  induction records generalizing sketch positions with
  | nil =>
    constructor
    · intro success
      cases success
      exact ⟨by simp, by simp, by simp, [], .nil _, by simp⟩
    · rintro ⟨_, _, rfl, entities, laid, rfl⟩
      cases laid
      simp
  | cons record records ih =>
    rw [List.foldlM_cons]
    change (addFigure _ sketch record (t.laid made positions) >>= fun added =>
      records.foldlM (addFigure _) added.1 added.2) = _ ↔ _
    rw [bind_eq_ok]
    constructor
    · rintro ⟨⟨_, _⟩, first, later⟩
      obtain ⟨inside, unknown, rfl, figure, kind, numbers, rfl⟩ := addFigure_laid.mp first
      obtain ⟨others, new, rfl, entities, laid, rfl⟩ := ih.mp later
      rw [List.length_append, ← Nat.add_assoc] at laid
      rw [List.map_append] at new
      exact ⟨List.forall_mem_cons.mpr ⟨inside, others⟩, newIds_cons.mpr ⟨unknown, new⟩, by simp, _,
        .cons kind numbers laid, by simp⟩
    · rintro ⟨inside, new, rfl, entities, laid, rfl⟩
      obtain ⟨inside, others⟩ := List.forall_mem_cons.mp inside
      obtain ⟨unknown, new⟩ := newIds_cons.mp new
      cases laid with
      | cons kind numbers laid =>
        rw [Nat.add_assoc, ← List.length_append] at laid
        refine ⟨_, addFigure_laid.mpr ⟨inside, unknown, rfl, _, kind, numbers, rfl⟩, ih.mpr ?_⟩
        rw [List.map_append]
        exact ⟨others, new, by simp, _, laid, by simp⟩

end Loading

section Loaded

variable {α : Type} [Scalar α]

/-- What a document becomes when it is loaded beside the store `t`. -/
structure Loaded (d : Document α) (t : Store α) (sketch : Sketch α Relation) (s : Store α) : Prop where
  valid : d.config.validate = .ok ()
  inside : ∀ r ∈ d.figures, ∀ i ∈ r.shape.toList, i < d.cells.length
  ids : (d.figures.map FigureRecord.id).Nodup
  store : s = t.laid d.cells (d.figures.flatMap fun r => r.shape.toList)
  config : sketch.config = d.config
  entities : Laid (t.named.size + d.cells.length) d.figures sketch.entities
  relations : List.Forall₂ (fun record r => sketch.buildRelation record = .ok r) d.relations
    sketch.relations

theorem load_eq (d : Document α) (t : Store α) :
    d.load t = d.checkConfig >>= fun _ =>
      d.figures.foldlM (Loading.addFigure (Store.numbered t.named.size d.cells.length))
        (⟨[], [], d.config⟩ : Sketch α Relation) (t.laid d.cells []) >>= fun added =>
          (added.1.buildRelations d.relations).map fun relations =>
            ({ added.1 with relations }, added.2) := by
  rw [Document.load]
  cases checked : d.checkConfig with
  | error e => rfl
  | ok _ =>
    change ((d.cells.mapM fun cell => Store.fresh cell.value cell.constant : Loading α _) t >>=
      fun made => _) = _
    rw [Store.mapM_fresh, ok_bind, ok_bind]
    change (d.figures.foldlM (Loading.addFigure (Store.numbered t.named.size d.cells.length))
      (⟨[], [], d.config⟩ : Sketch α Relation) (t.laid d.cells []) >>= fun added => _) = _
    congr 1
    funext added
    cases added.1.buildRelations d.relations <;> rfl

/-- Loading succeeds exactly if the document is in order, and then there is one outcome. -/
theorem load_eq_ok {d : Document α} {t s : Store α} {sketch : Sketch α Relation} :
    d.load t = .ok (sketch, s) ↔ Loaded d t sketch s := by
  rw [load_eq, bind_eq_ok]
  constructor
  · rintro ⟨_, checked, success⟩
    obtain ⟨⟨added, s'⟩, figures, success⟩ := bind_eq_ok.mp success
    obtain ⟨relations, built, same⟩ := map_eq_ok.mp success
    cases same
    obtain ⟨inside, ⟨ids, _⟩, rfl, entities, laid, rfl⟩ := Loading.foldlM_addFigure.mp figures
    exact ⟨mapError_eq_ok.mp checked, inside, ids, rfl, rfl, laid, mapM_eq_ok.mp built⟩
  · rintro ⟨valid, inside, ids, rfl, config, laid, relations⟩
    obtain ⟨entities, built, _⟩ := sketch
    cases config
    have figures : d.figures.foldlM
        (Loading.addFigure (Store.numbered t.named.size d.cells.length))
        (⟨[], [], d.config⟩ : Sketch α Relation) (t.laid d.cells []) =
          .ok (⟨entities, [], d.config⟩, t.laid d.cells (d.figures.flatMap fun r => r.shape.toList)) :=
      Loading.foldlM_addFigure.mpr ⟨inside, ⟨ids, by simp⟩, rfl, entities, laid, rfl⟩
    have found : (⟨entities, [], d.config⟩ : Sketch α Relation).buildRelations d.relations = .ok built :=
      mapM_eq_ok.mpr relations
    exact ⟨(), mapError_eq_ok.mpr valid, bind_eq_ok.mpr ⟨_, figures, map_eq_ok.mpr ⟨built, found, rfl⟩⟩⟩

end Loaded

end PlaneSketch
