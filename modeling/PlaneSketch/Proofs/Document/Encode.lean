import PlaneSketch.Document.Decode
import PlaneSketch.Document.Encode
import PlaneSketch.Proofs.EntityId
import PlaneSketch.Proofs.Json.Decode

/-! What is written of a document is read as that document, as long as its numbers can be written:
naturals of 64 bits and finite doubles. -/
namespace PlaneSketch

open Json Json.Decoder

theorem EntityId.decode_toJson (id : EntityId) : EntityId.decode id.toJson.tree = .ok id := by
  rw [EntityId.decode, EntityId.toJson, tree, string, ok_bind, EntityId.ofText?_text]
  rfl

namespace Cell

private theorem decode_toJson {cell : Cell Float} (finite : cell.value.isFinite = true) :
    Cell.decode cell.toJson.tree = .ok cell := by
  rw [Cell.decode, Cell.toJson, record_tree _ _ (by simp) (by simp)]
  simp only [List.foldlM_cons, List.foldlM_nil, float_tree finite, ok_bind]
  rfl

private theorem decode_toJson_infinite {cell : Cell Float} (infinite : cell.value.isFinite = false) :
    Cell.decode cell.toJson.tree = .error .mismatched := by
  rw [Cell.decode, Cell.toJson, record_tree _ _ (by simp) (by simp)]
  simp only [List.foldlM_cons, float_tree_infinite infinite, error_bind]

private theorem decode_list (cells : List (Cell Float)) :
    list Cell.decode (Json.arr (cells.map Cell.toJson)).tree =
      if cells.all fun cell => cell.value.isFinite then .ok cells else .error .mismatched := by
  rw [tree, list, itemTrees_eq, List.map_map]
  have decoded : (cells.map (tree ∘ Cell.toJson)).mapM Cell.decode =
      if cells.all fun cell => cell.value.isFinite then .ok cells else .error .mismatched := by
    induction cells with
    | nil => rfl
    | cons cell cells ih =>
      rw [List.map_cons, List.mapM_cons, ih, List.all_cons, Function.comp_apply]
      cases finite : cell.value.isFinite with
      | false =>
        rw [decode_toJson_infinite finite]
        rfl
      | true =>
        rw [decode_toJson finite, Bool.true_and, ok_bind]
        split <;> rfl
  rw [decoded]
  split <;> rfl

end Cell

/-- A natural of 64 bits. -/
def Small (n : Nat) : Prop := n < twoTo 64

namespace Point

def Fits (p : Point Nat) : Prop := Small p.x ∧ Small p.y

private theorem decode_toJson {p : Point Nat} (fits : p.Fits) :
    Point.decode (Figure.pointToJson p).tree = .ok p := by
  rw [Point.decode, Figure.pointToJson, record_tree _ _ (by simp) (by simp)]
  simp only [List.foldlM_cons, List.foldlM_nil, nat_tree fits.1, nat_tree fits.2, ok_bind]
  rfl

end Point

theorem plain_nat {n : Nat} (small : Small n) (depth : Nat) :
    (Json.nat n).tree.plain depth = true := by
  rw [Json.nat, tree, Tree.plain, Numeral.toFloat?, if_pos (Numeral.magnitude_ofNat_lt small)]
  rfl

namespace Figure

def Fits : Figure Nat → Prop
  | .point p => p.Fits
  | .line l => l.p0.Fits ∧ l.p1.Fits
  | .circle c => c.c.Fits ∧ Small c.r
  | .arc a => a.c.Fits ∧ Small a.r ∧ a.p0.Fits ∧ a.p1.Fits

theorem fits_iff (shape : Figure Nat) : shape.Fits ↔ ∀ i ∈ shape.toList, Small i := by
  cases shape <;>
    simp [Fits, toList, Point.Fits, Point.toList, Line.toList, Circle.toList, Arc.toList, or_imp,
      forall_and, and_assoc]

def members : Figure Nat → List (String × Json)
  | .point p => [("x", nat p.x), ("y", nat p.y)]
  | .line l => [("p0", pointToJson l.p0), ("p1", pointToJson l.p1)]
  | .circle c => [("c", pointToJson c.c), ("r", nat c.r)]
  | .arc a =>
    [("c", pointToJson a.c), ("r", nat a.r), ("p0", pointToJson a.p0), ("p1", pointToJson a.p1)]

theorem toJson_eq (shape : Figure Nat) :
    shape.toJson = .obj (("type", .str shape.kind.name) :: shape.members) := by
  cases shape <;> rfl

private theorem plain_point {p : Point Nat} (fits : p.Fits) {depth : Nat} (room : 0 < depth) :
    (pointToJson p).tree.plain depth = true := by
  simp [pointToJson, tree, memberTrees, Tree.plain, Tree.plainMembers, room,
    plain_nat fits.1, plain_nat fits.2]

variable {shape : Figure Nat}

private theorem plain_members (fits : shape.Fits) {depth : Nat} (room : 0 < depth) :
    ∀ entry ∈ shape.members, entry.1 ≠ "type" ∧ entry.2.tree.plain depth = true := by
  cases shape with
  | point p => simp [members, plain_nat fits.1, plain_nat fits.2]
  | line l => simp [members, plain_point fits.1 room, plain_point fits.2 room]
  | circle c => simp [members, plain_point fits.1 room, plain_nat fits.2]
  | arc a =>
    obtain ⟨center, radius, first, second⟩ := fits
    simp [members, plain_point center room, plain_nat radius, plain_point first room,
      plain_point second room]

private theorem decodeMember_other {room : Nat} {key : String} {t : Tree} (other : key ≠ "type")
    (plain : t.plain room = true) (state : Option FigureKind × List (Option String × Tree)) :
    decodeMember room state (some key, t) = .ok (state.1, state.2 ++ [(some key, t)]) := by
  unfold decodeMember
  split
  case h_1 same => cases same
  case h_2 same =>
    cases same
    exact absurd rfl other
  case h_3 same =>
    cases same
    rw [if_pos plain]

private theorem foldlM_decodeMember {room : Nat} {entries : List (String × Json)}
    (others : ∀ entry ∈ entries, entry.1 ≠ "type" ∧ entry.2.tree.plain room = true)
    (kind : Option FigureKind) (before : List (Option String × Tree)) :
    (memberTrees entries).foldlM (decodeMember room) (kind, before) =
      .ok (kind, before ++ memberTrees entries) := by
  induction entries generalizing before with
  | nil =>
    rw [memberTrees, List.append_nil]
    rfl
  | cons entry entries ih =>
    obtain ⟨key, value⟩ := entry
    obtain ⟨⟨other, plain⟩, others⟩ := List.forall_mem_cons.mp others
    rw [memberTrees, List.foldlM_cons, decodeMember_other other plain, ok_bind, ih others,
      List.append_assoc]
    rfl

private theorem decodeKind_name (kind : FigureKind) : decodeKind (.str (some kind.name)) = .ok kind := by
  cases kind <;> rfl

private theorem decodeFields_members (fits : shape.Fits) :
    decodeFields shape.kind (Json.obj shape.members).tree = .ok shape := by
  rw [decodeFields]
  cases shape with
  | point p =>
    rw [members, record_tree _ _ (by simp) (by simp [kind, fieldNames])]
    simp only [List.foldlM_cons, List.foldlM_nil, Fields.read, nat_tree fits.1, nat_tree fits.2, ok_bind]
    rfl
  | line l =>
    rw [members, record_tree _ _ (by simp) (by simp [kind, fieldNames])]
    simp only [List.foldlM_cons, List.foldlM_nil, Fields.read, Point.decode_toJson fits.1,
      Point.decode_toJson fits.2, ok_bind]
    rfl
  | circle c =>
    rw [members, record_tree _ _ (by simp) (by simp [kind, fieldNames])]
    simp only [List.foldlM_cons, List.foldlM_nil, Fields.read, Point.decode_toJson fits.1,
      nat_tree fits.2, ok_bind]
    rfl
  | arc a =>
    obtain ⟨center, radius, first, second⟩ := fits
    rw [members, record_tree _ _ (by simp) (by simp [kind, fieldNames])]
    simp only [List.foldlM_cons, List.foldlM_nil, Fields.read, Point.decode_toJson center,
      nat_tree radius, Point.decode_toJson first, Point.decode_toJson second, ok_bind]
    rfl

private theorem decode_toJson (fits : shape.Fits) {room : Nat} (enough : 1 < room) :
    Figure.decode room shape.toJson.tree = .ok shape := by
  have fields := foldlM_decodeMember (plain_members fits (Nat.sub_pos_of_lt enough)) (some shape.kind) []
  have kinds : decodeMember (room - 1) (none, []) (some "type", .str (some shape.kind.name)) =
      .ok (some shape.kind, []) := by
    rw [decodeMember, decodeKind_name]
    rfl
  rw [toJson_eq, tree, memberTrees, tree, decode, if_neg (by omega), List.foldlM_cons, kinds]
  simp only [ok_bind, fields]
  exact decodeFields_members fits

end Figure

private theorem VariableRef.decode_toJson {ref : VariableRef} (small : Small ref.index) :
    VariableRef.decode ref.toJson.tree = .ok ref := by
  rw [VariableRef.decode, VariableRef.toJson, record_tree _ _ (by simp) (by simp)]
  simp only [List.foldlM_cons, List.foldlM_nil, nat_tree small, EntityId.decode_toJson, ok_bind]
  rfl

private theorem FigureRef.decode_toJson {ref : FigureRef} (small : ∀ part ∈ ref.part, Small part) :
    FigureRef.decode ref.toJson.tree = .ok ref := by
  obtain ⟨id, part⟩ := ref
  cases part with
  | none =>
    rw [FigureRef.decode, FigureRef.toJson, record_tree _ _ (by simp) (by simp)]
    simp only [Option.elim_none, List.foldlM_cons, List.foldlM_nil, EntityId.decode_toJson, ok_bind]
    rfl
  | some part =>
    rw [FigureRef.decode, FigureRef.toJson, record_tree _ _ (by simp) (by simp)]
    have found : optional nat (Json.nat part).tree = .ok (some part) := by
      have read := nat_tree (small part rfl)
      rw [Json.nat, tree] at read ⊢
      rw [Decoder.optional, read]
      · rfl
      · exact Tree.noConfusion
    simp only [Option.elim_some, List.foldlM_cons, List.foldlM_nil, EntityId.decode_toJson, found, ok_bind]
    rfl

namespace OperandRef

def Fits : OperandRef → Prop
  | .figure ref => ∀ part ∈ ref.part, Small part
  | .bare ref => Small ref.index

private theorem decode_toJson {ref : OperandRef} (fits : ref.Fits) :
    OperandRef.decode ref.toJson.tree = .ok ref := by
  cases ref with
  | figure ref =>
    rw [OperandRef.decode, OperandRef.toJson, choice_tree rfl, FigureRef.decode_toJson fits]
    rfl
  | bare ref =>
    rw [OperandRef.decode, OperandRef.toJson, choice_tree rfl, VariableRef.decode_toJson fits]
    rfl

end OperandRef

private theorem RelationKind.decode_tag (kind : RelationKind) :
    RelationKind.decode (Json.str kind.tag).tree = .ok kind := by
  cases kind <;> rfl

private theorem RelationRecord.decode_toJson {record : RelationRecord}
    (fits : ∀ ref ∈ record.operands, ref.Fits) :
    RelationRecord.decode record.toJson.tree = .ok record := by
  have operands : list OperandRef.decode (Json.arr (record.operands.map OperandRef.toJson)).tree =
      .ok record.operands :=
    list_tree (List.forall₂_same.mpr fun ref member => OperandRef.decode_toJson (fits ref member))
  rw [RelationRecord.decode, RelationRecord.toJson, record_tree _ _ (by simp) (by simp)]
  simp only [List.foldlM_cons, List.foldlM_nil, RelationKind.decode_tag, operands, ok_bind]
  rfl

private theorem FigureRecord.decode_toJson {record : FigureRecord} (fits : record.shape.Fits) {depth : Nat}
    (shallow : depth + 2 < nestingLimit) : FigureRecord.decode depth record.toJson.tree = .ok record := by
  have shape : Figure.decode (nestingLimit - depth - 1) record.shape.toJson.tree = .ok record.shape :=
    Figure.decode_toJson fits (by omega)
  rw [FigureRecord.decode, FigureRecord.toJson, record_tree _ _ (by simp) (by simp)]
  simp only [List.foldlM_cons, List.foldlM_nil, EntityId.decode_toJson, shape, ok_bind]
  rfl

structure Config.Fits (config : Config Float) : Prop where
  passes : Small config.maxIterations
  tolerance : config.tolerance.isFinite = true
  relaxation : config.relaxation.isFinite = true
  dampedRelaxation : config.dampedRelaxation.isFinite = true

private theorem Config.decode_toJson {config : Config Float} (fits : config.Fits) :
    Config.decode config.toJson.tree = .ok config := by
  rw [Config.decode, Config.toJson, record_tree _ _ (by simp) (by simp)]
  simp only [List.foldlM_cons, List.foldlM_nil, nat_tree fits.passes, float_tree fits.tolerance,
    float_tree fits.relaxation, float_tree fits.dampedRelaxation, ok_bind]
  rfl

namespace Document

/-- All numbers of the document can be written, the values of its cells aside. -/
structure Fits (d : Document Float) : Prop where
  figures : ∀ r ∈ d.figures, r.shape.Fits
  relations : ∀ r ∈ d.relations, ∀ ref ∈ r.operands, ref.Fits
  config : d.config.Fits

def finite (d : Document Float) : Bool := d.cells.all fun cell => cell.value.isFinite

private theorem decode_toJson {d : Document Float} (fits : d.Fits) :
    Document.decode 0 d.toJson.tree = if d.finite then .ok d else .error .mismatched := by
  have figures : list (FigureRecord.decode (0 + 2)) (Json.arr (d.figures.map FigureRecord.toJson)).tree =
      .ok d.figures :=
    list_tree (List.forall₂_same.mpr fun r member =>
      FigureRecord.decode_toJson (fits.figures r member) (by decide))
  have relations : list RelationRecord.decode (Json.arr (d.relations.map RelationRecord.toJson)).tree =
      .ok d.relations :=
    list_tree (List.forall₂_same.mpr fun r member => RelationRecord.decode_toJson (fits.relations r member))
  rw [Document.decode, toJson, record_tree _ _ (by simp) (by simp)]
  simp only [List.foldlM_cons, List.foldlM_nil, Cell.decode_list, figures, relations,
    Config.decode_toJson fits.config]
  rw [finite]
  cases d.cells.all fun cell => cell.value.isFinite <;> rfl

theorem written_map {κ : Type} {f : κ → Json} (xs : List κ) (written : ∀ x, (f x).Written) :
    ItemsWritten (xs.map f) :=
  itemsWritten_of_forall (List.forall_mem_map.mpr fun x _ => written x)

private theorem written_point (p : Point Nat) : (Figure.pointToJson p).Written :=
  ⟨written_nat p.x, written_nat p.y, trivial⟩

private theorem written_figure (r : FigureRecord) : r.toJson.Written := by
  refine ⟨trivial, ?_, trivial⟩
  rw [Figure.toJson_eq]
  refine ⟨trivial, ?_⟩
  cases r.shape with
  | point p => exact written_point p
  | line l => exact ⟨written_point l.p0, written_point l.p1, trivial⟩
  | circle c => exact ⟨written_point c.c, written_nat c.r, trivial⟩
  | arc a => exact ⟨written_point a.c, written_nat a.r, written_point a.p0, written_point a.p1, trivial⟩

private theorem written_operand (ref : OperandRef) : ref.toJson.Written := by
  cases ref with
  | figure ref =>
    obtain ⟨id, part⟩ := ref
    cases part with
    | none => exact ⟨⟨trivial, trivial⟩, trivial⟩
    | some part => exact ⟨⟨trivial, written_nat part, trivial⟩, trivial⟩
  | bare ref => exact ⟨⟨trivial, written_nat ref.index, trivial⟩, trivial⟩

private theorem written_relation (r : RelationRecord) : r.toJson.Written :=
  ⟨trivial, written_map _ written_operand, trivial⟩

private theorem written_config (config : Config Float) : config.toJson.Written :=
  ⟨written_nat _, written_float _, written_float _, written_float _, trivial⟩

private theorem written_toJson (d : Document Float) : d.toJson.Written :=
  ⟨written_map _ fun cell => ⟨written_float cell.value, trivial, trivial⟩, written_map _ written_figure,
    written_map _ written_relation, written_config d.config, trivial⟩

/-- What is written of a document is accepted as that document exactly if its cells have finite
values. -/
theorem ofText_text {d : Document Float} (fits : d.Fits) :
    Document.ofText d.toJson.text = if d.finite then .ok d else .error .mismatched := by
  rw [ofText, decode_text _ d.written_toJson, decode_toJson fits]

end Document

end PlaneSketch
