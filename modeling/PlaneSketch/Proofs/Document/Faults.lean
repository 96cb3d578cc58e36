import PlaneSketch.Proofs.Document.Load
import PlaneSketch.Proofs.Relation.Build
import PlaneSketch.Proofs.Relation.Demand

/-! What can be wrong with a document, judged by the document alone. Loading succeeds exactly if
nothing is; otherwise it fails with the first fault in the order of the document. -/
namespace PlaneSketch

variable {α : Type}

namespace Document

def shape? (d : Document α) (id : EntityId) : Option (Figure Nat) :=
  (d.figures.find? fun r => r.id == id).map FigureRecord.shape

/-- The operand refers to something of this sort that is in the document. -/
inductive Refers (d : Document α) : OperandRef → OperandSort → Prop
  | whole {id : EntityId} {shape : Figure Nat} (found : d.shape? id = some shape) :
    Refers d (.figure ⟨id, none⟩) (.figure shape.kind)
  | part {id : EntityId} {shape : Figure Nat} {part : Nat} (found : d.shape? id = some shape)
      (inside : part < shape.parts.length) :
    Refers d (.figure ⟨id, some part⟩) (.figure .point)
  | bare {id : EntityId} {shape : Figure Nat} {index : Nat} (found : d.shape? id = some shape)
      (inside : index < shape.toList.length) :
    Refers d (.bare ⟨id, index⟩) .bare

/-- A document in which every reference leads somewhere and every relation has the operands that its
kind demands. -/
structure WellFormed [Scalar α] (d : Document α) : Prop where
  config : d.config.validate = .ok ()
  cells : ∀ r ∈ d.figures, ∀ i ∈ r.shape.toList, i < d.cells.length
  ids : (d.figures.map FigureRecord.id).Nodup
  relations : ∀ r ∈ d.relations, ∃ sorts, List.Forall₂ d.Refers r.operands sorts ∧ r.kind.demand.MetBy sorts

/-- The sort of what an operand refers to, or what it misses. -/
def sortOf (d : Document α) : OperandRef → Except (SketchError α) OperandSort
  | .figure ⟨id, part⟩ =>
    match d.shape? id with
    | none => .error (.unknownFigure id)
    | some shape =>
      match part with
      | none => .ok (.figure shape.kind)
      | some part =>
        if part < shape.parts.length then .ok (.figure .point) else .error (.unknownPart id part)
  | .bare ⟨id, index⟩ =>
    match d.shape? id with
    | none => .error (.unknownFigure id)
    | some shape => if index < shape.toList.length then .ok .bare else .error (.unknownVariable id index)

/-- The faults of figures after those of the ids `known`: the cells that a figure misses, in the order
of its positions, and then its id if that was there before. -/
def figureFaults (cells : Nat) : List EntityId → List FigureRecord → List (SketchError α)
  | _, [] => []
  | known, r :: rest =>
    (r.shape.toList.filter fun i => decide (cells ≤ i)).map .unknownCell ++
      (if r.id ∈ known then [.duplicateFigure r.id] else []) ++ figureFaults cells (known ++ [r.id]) rest

/-- The faults of a relation: the operands that refer to nothing, then the number and the sorts of all. -/
def relationFaults (d : Document α) (r : RelationRecord) : List (SketchError α) :=
  r.operands.filterMap (fun ref => fault? (d.sortOf ref)) ++
    (r.kind.demand.faults (r.operands.filterMap fun ref => (d.sortOf ref).toOption)).map
      (.invalidOperands r.kind)

/-- All that is wrong with a document: with its settings, its figures and its relations, in order. -/
def faults [Scalar α] (d : Document α) : List (SketchError α) :=
  ((fault? d.config.validate).map .invalidConfig).toList ++ figureFaults d.cells.length [] d.figures ++
    d.relations.flatMap d.relationFaults

section Relations

variable {d : Document α}

private theorem sortOf_eq_ok {ref : OperandRef} {sort : OperandSort} :
    d.sortOf ref = .ok sort ↔ d.Refers ref sort := by
  constructor
  · intro success
    rcases ref with ⟨id, part⟩ | ⟨id, index⟩
    · cases found : d.shape? id with
      | none => simp [sortOf, found] at success
      | some shape =>
        cases part with
        | none =>
          simp only [sortOf, found, Except.ok.injEq] at success
          exact success ▸ .whole found
        | some part =>
          simp only [sortOf, found] at success
          split at success
          case isTrue inside =>
            cases success
            exact .part found inside
          case isFalse => cases success
    · cases found : d.shape? id with
      | none => simp [sortOf, found] at success
      | some shape =>
        simp only [sortOf, found] at success
        split at success
        case isTrue inside =>
          cases success
          exact .bare found inside
        case isFalse => cases success
  · rintro (found | ⟨found, inside⟩ | ⟨found, inside⟩)
    · simp only [sortOf, found]
    · simp only [sortOf, found, if_pos inside]
    · simp only [sortOf, found, if_pos inside]

theorem relationFaults_of_error {r : RelationRecord} {e : SketchError α}
    (failed : r.operands.mapM d.sortOf = .error e) : (d.relationFaults r).head? = some e := by
  have first : (r.operands.filterMap fun ref => fault? (d.sortOf ref)).head? = some e := by
    rw [List.head?_filterMap, ← fault?_mapM, failed, fault?_error]
  rw [relationFaults, List.head?_append, first, Option.some_or]

theorem relationFaults_of_ok {r : RelationRecord} {sorts : List OperandSort}
    (found : r.operands.mapM d.sortOf = .ok sorts) :
    d.relationFaults r = (r.kind.demand.faults sorts).map (.invalidOperands r.kind) := by
  have resolved := mapM_eq_ok.mp found
  have none : r.operands.filterMap (fun ref => fault? (d.sortOf ref)) = [] := by
    rw [List.filterMap_eq_nil_iff]
    intro ref member
    obtain ⟨sort, -, same⟩ := exists_of_mem_left resolved member
    rw [same, fault?_ok]
  have all : r.operands.filterMap (fun ref => (d.sortOf ref).toOption) = sorts := by
    clear found none
    generalize r.operands = operands at resolved
    induction resolved with
    | nil => rfl
    | cons head _ ih => rw [List.filterMap_cons, head, ih]; rfl
  rw [relationFaults, none, all, List.nil_append]

private theorem relationFaults_eq_nil {r : RelationRecord} :
    d.relationFaults r = [] ↔
      ∃ sorts, List.Forall₂ d.Refers r.operands sorts ∧ r.kind.demand.MetBy sorts := by
  have resolved : ∀ sorts, List.Forall₂ d.Refers r.operands sorts ↔ r.operands.mapM d.sortOf = .ok sorts := by
    intro sorts
    simp only [mapM_eq_ok, sortOf_eq_ok]
  simp only [resolved]
  cases visited : r.operands.mapM d.sortOf with
  | error e =>
    have first := relationFaults_of_error visited
    constructor
    · intro none
      rw [none] at first
      cases first
    · rintro ⟨sorts, success, -⟩
      cases success
  | ok sorts =>
    rw [relationFaults_of_ok visited, List.map_eq_nil_iff, Demand.faults_eq_nil]
    simp

end Relations

private theorem figureFaults_eq_nil {cells : Nat} {known : List EntityId} {records : List FigureRecord} :
    (figureFaults cells known records : List (SketchError α)) = [] ↔
      (∀ r ∈ records, ∀ i ∈ r.shape.toList, i < cells) ∧
        (records.map FigureRecord.id).Nodup ∧ ∀ r ∈ records, r.id ∉ known := by
  induction records generalizing known with
  | nil => simp [figureFaults]
  | cons r rest ih =>
    have inside : (r.shape.toList.filter fun i => decide (cells ≤ i)).map SketchError.unknownCell =
        ([] : List (SketchError α)) ↔ ∀ i ∈ r.shape.toList, i < cells := by
      simp [List.filter_eq_nil_iff]
    rw [Loading.newIds_cons, figureFaults, List.append_eq_nil_iff, List.append_eq_nil_iff, inside, ih,
      List.forall_mem_cons, ite_eq_right_iff]
    simp only [List.cons_ne_self, imp_false]
    tauto

variable [Scalar α] {d : Document α}

private theorem faults_eq_nil : d.faults = [] ↔ d.WellFormed := by
  have config : ((fault? d.config.validate).map (SketchError.invalidConfig (α := α))).toList = [] ↔
      d.config.validate = .ok () := by
    cases d.config.validate <;> simp
  rw [faults, List.append_eq_nil_iff, List.append_eq_nil_iff, config, figureFaults_eq_nil,
    List.flatMap_eq_nil_iff]
  simp only [relationFaults_eq_nil]
  constructor
  · rintro ⟨⟨valid, inside, ids, -⟩, relations⟩
    exact ⟨valid, inside, ids, relations⟩
  · rintro ⟨valid, inside, ids, relations⟩
    exact ⟨⟨valid, inside, ids, fun _ _ => List.not_mem_nil⟩, relations⟩

end Document

section Figures

variable {ρ : Type} {t : Store α} {made : List (Cell α)}

namespace Loading

private theorem fault?_mapM_variableAt (indices positions : List Nat) :
    fault? (indices.mapM (variableAt (Store.numbered t.named.size made.length)) (t.laid made positions)) =
      ((indices.filter fun i => decide (made.length ≤ i)).map SketchError.unknownCell).head? := by
  induction indices generalizing positions with
  | nil => rfl
  | cons i indices ih =>
    rw [List.mapM_cons]
    change fault? (variableAt _ i (t.laid made positions) >>= fun here =>
      indices.mapM (variableAt _) here.2 >>= fun later => Except.ok (here.1 :: later.1, later.2)) = _
    rw [variableAt_laid]
    by_cases inside : i < made.length
    · rw [if_pos inside, ok_bind, List.filter_cons_of_neg (by simpa using inside), ← ih (positions ++ [i])]
      cases indices.mapM (variableAt _) (t.laid made (positions ++ [i])) <;> rfl
    · rw [if_neg inside, List.filter_cons_of_pos (by simpa using inside)]
      rfl

private theorem fault?_insert (sketch : Sketch α ρ) (id : EntityId) (figure : Figure Variable) :
    fault? (sketch.insert id figure) =
      if id ∈ sketch.entities.map Entity.id then some (.duplicateFigure id) else none := by
  have known : (sketch.figure? id).isSome = true ↔ id ∈ sketch.entities.map Entity.id := by
    simp [Sketch.figure?]
  simp only [Sketch.insert, known]
  split <;> rfl

private theorem fault?_foldlM_addFigure (sketch : Sketch α ρ) (records : List FigureRecord)
    (positions : List Nat) :
    fault? (records.foldlM (addFigure (Store.numbered t.named.size made.length)) sketch
        (t.laid made positions)) =
      (Document.figureFaults made.length (sketch.entities.map Entity.id) records).head? := by
  induction records generalizing sketch positions with
  | nil => rfl
  | cons record records ih =>
    have one : fault? (addFigure (Store.numbered t.named.size made.length) sketch record
        (t.laid made positions)) = ((record.shape.toList.filter fun i => decide (made.length ≤ i)).map
          SketchError.unknownCell ++ if record.id ∈ sketch.entities.map Entity.id then
            [SketchError.duplicateFigure record.id] else []).head? := by
      rw [addFigure_eq, List.head?_append, ← fault?_mapM_variableAt, ← Figure.fault?_mapM]
      cases record.shape.mapM (variableAt _) (t.laid made positions) with
      | error e => rfl
      | ok built =>
        rw [ok_bind, fault?_map, fault?_insert]
        split <;> rfl
    rw [List.foldlM_cons, Document.figureFaults, List.head?_append, ← one]
    change fault? (addFigure _ sketch record (t.laid made positions) >>= fun added =>
      records.foldlM (addFigure _) added.1 added.2) = _
    cases added : addFigure (Store.numbered t.named.size made.length) sketch record (t.laid made positions) with
    | error e => rfl
    | ok next =>
      obtain ⟨-, -, rest, figure, -, -, entities⟩ := addFigure_laid.mp added
      rw [ok_bind, rest, entities, ih, List.map_append]
      rfl

end Loading

end Figures

section Loaded

variable {d : Document α} {first : Nat} {sketch : Sketch α Relation}

theorem Laid.figure?_cases (laid : Laid first d.figures sketch.entities) (id : EntityId) :
    (sketch.figure? id = none ∧ d.shape? id = none) ∨
      ∃ figure shape, sketch.figure? id = some figure ∧ d.shape? id = some shape ∧
        figure.kind = shape.kind := by
  have kinds : (sketch.figure? id).map Figure.kind = (d.shape? id).map Figure.kind := by
    rw [Sketch.figure?, Document.shape?, Option.map_map, Option.map_map]
    exact laid.find?_kind id
  cases known : d.shape? id with
  | none =>
    rw [known, Option.map_none, Option.map_eq_none_iff] at kinds
    exact .inl ⟨kinds, rfl⟩
  | some shape =>
    rw [known, Option.map_some] at kinds
    obtain ⟨figure, found, kind⟩ := Option.map_eq_some_iff.mp kinds
    exact .inr ⟨figure, shape, found, rfl, kind⟩

theorem Laid.sort_resolveOperand (laid : Laid first d.figures sketch.entities) (ref : OperandRef) :
    (sketch.resolveOperand ref).map Operand.sort = d.sortOf ref := by
  rcases ref with ⟨id, part⟩ | ⟨id, index⟩
  · rw [Sketch.resolveOperand, Sketch.resolveFigure, Document.sortOf]
    obtain ⟨missing, absent⟩ | ⟨figure, shape, found, known, kind⟩ := laid.figure?_cases id
    · simp only [missing, absent]
      rfl
    · simp only [found, known, ← kind]
      cases part with
      | none => rfl
      | some part =>
        simp only [← Figure.length_parts_eq kind]
        by_cases inside : part < figure.parts.length
        · rw [List.getElem?_eq_getElem inside, if_pos inside]
          rfl
        · rw [List.getElem?_eq_none (Nat.le_of_not_lt inside), if_neg inside]
          rfl
  · rw [Sketch.resolveOperand, Sketch.resolveVariable, Document.sortOf]
    obtain ⟨missing, absent⟩ | ⟨figure, shape, found, known, kind⟩ := laid.figure?_cases id
    · simp only [missing, absent]
      rfl
    · simp only [found, known, ← Figure.length_toList_eq kind]
      by_cases inside : index < figure.toList.length
      · rw [List.getElem?_eq_getElem inside, if_pos inside]
        rfl
      · rw [List.getElem?_eq_none (Nat.le_of_not_lt inside), if_neg inside]
        rfl

private theorem Laid.fault?_buildRelation (laid : Laid first d.figures sketch.entities) (r : RelationRecord) :
    fault? (sketch.buildRelation r) = (d.relationFaults r).head? := by
  have sorts : r.operands.mapM d.sortOf =
      (r.operands.mapM sketch.resolveOperand).map (List.map Operand.sort) := by
    have step : ∀ ref, d.sortOf (id ref) = (sketch.resolveOperand ref).map Operand.sort :=
      fun ref => (laid.sort_resolveOperand ref).symm
    rw [← Relation.mapM_map step, List.map_id]
  rw [Sketch.buildRelation]
  cases resolved : r.operands.mapM sketch.resolveOperand with
  | error e =>
    rw [resolved] at sorts
    rw [Document.relationFaults_of_error sorts]
    rfl
  | ok operands =>
    rw [resolved] at sorts
    rw [Document.relationFaults_of_ok sorts, ok_bind, fault?_mapError, Relation.fault?_build, List.head?_map]

end Loaded

namespace Document

variable [Scalar α] {d : Document α} {t : Store α}

private theorem fault?_load : fault? (d.load t) = d.faults.head? := by
  rw [load_eq, faults, List.append_assoc, List.head?_append, List.head?_append, Option.head?_toList]
  have config : fault? d.checkConfig = (fault? d.config.validate).map .invalidConfig :=
    fault?_mapError ..
  rw [← config]
  cases d.checkConfig with
  | error e => rfl
  | ok _ =>
    have figures : fault? (d.figures.foldlM (Loading.addFigure (Store.numbered t.named.size d.cells.length))
        (⟨[], [], d.config⟩ : Sketch α Relation) (t.laid d.cells [])) =
          (figureFaults d.cells.length [] d.figures).head? :=
      Loading.fault?_foldlM_addFigure _ d.figures []
    rw [ok_bind, fault?_ok, Option.none_or, ← figures]
    cases added : d.figures.foldlM (Loading.addFigure (Store.numbered t.named.size d.cells.length))
        (⟨[], [], d.config⟩ : Sketch α Relation) (t.laid d.cells []) with
    | error e => rfl
    | ok next =>
      obtain ⟨sketch, s⟩ := next
      obtain ⟨-, -, -, entities, laid, rfl⟩ := Loading.foldlM_addFigure.mp added
      rw [ok_bind, fault?_map, Sketch.buildRelations, fault?_mapM, fault?_ok, Option.none_or,
        List.head?_flatMap]
      exact Store.findSome?_congr fun r _ => Laid.fault?_buildRelation laid r

/-- A document loads exactly if it is well-formed, and otherwise fails with its first fault. -/
theorem load_first_fault (d : Document α) (t : Store α) :
    ((∃ opened, d.load t = .ok opened) ↔ d.WellFormed) ∧
      ∀ e, d.load t = .error e ↔ d.faults.head? = some e := by
  have first : fault? (d.load t) = d.faults.head? := fault?_load
  constructor
  · rw [← fault?_eq_none, first, List.head?_eq_none_iff, faults_eq_nil]
  · intro e
    rw [← fault?_eq_some, first]

end Document

end PlaneSketch
