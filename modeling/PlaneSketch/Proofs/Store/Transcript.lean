import PlaneSketch.Proofs.Shape
import PlaneSketch.Proofs.Store.Touch
import PlaneSketch.Store.Copy

/-! The pairs of originals and copies while copies are being made. Each step adds variables and cells to a
store and leaves those that were there alone; a copy gets a cell of its own, or the cell of the copy that was
made of the same cell before. -/
namespace PlaneSketch.Store

variable {α : Type}

/-- The variables and cells of `s` are in `t`, as they were. -/
structure Grown (s t : Store α) : Prop where
  closed : t.Closed
  named : s.named.size ≤ t.named.size
  cells : s.cells.size ≤ t.cells.size
  cellOf : ∀ v : Variable, v.index < s.named.size → t.cellOf v = s.cellOf v
  contents : ∀ i < s.cells.size, t.cells[i]? = s.cells[i]?

namespace Grown

variable {s t u : Store α}

theorem refl (closed : s.Closed) : Grown s s :=
  ⟨closed, Nat.le_refl _, Nat.le_refl _, fun _ _ => rfl, fun _ _ => rfl⟩

theorem trans (first : Grown s t) (second : Grown t u) : Grown s u where
  closed := second.closed
  named := Nat.le_trans first.named second.named
  cells := Nat.le_trans first.cells second.cells
  cellOf v old := (second.cellOf v (Nat.lt_of_lt_of_le old first.named)).trans (first.cellOf v old)
  contents i old := (second.contents i (Nat.lt_of_lt_of_le old first.cells)).trans (first.contents i old)

theorem cell [Scalar α] (grown : Grown s t) {v : Variable} (old : v.index < s.named.size) (live : s.Live v) :
    t.cell v = s.cell v := by
  rw [cell_eq, cell_eq, grown.cellOf v old, grown.contents _ live]

theorem unchanged [Scalar α] (grown : Grown s t) (closed : s.Closed) {earlier : List Variable}
    (old : ∀ v ∈ earlier, v.index < s.named.size) : Unchanged earlier s t := by
  refine ⟨fun v there => grown.cell (old v there) (closed v (old v there)), fun v first w second => ?_⟩
  change t.isLinked v w = s.isLinked v w
  rw [isLinked, isLinked, grown.cellOf v (old v first), grown.cellOf w (old w second)]

theorem unlinked (grown : Grown s t) (closed : s.Closed) {v w : Variable} (own : s.cells.size ≤ t.cellOf v)
    (old : w.index < s.named.size) : t.isLinked v w = false := by
  rw [Bool.eq_false_iff, ne_eq, isLinked_iff, grown.cellOf w old]
  exact Nat.ne_of_gt (Nat.lt_of_lt_of_le (closed w old) own)

theorem push (closed : s.Closed) {cells : Array (Cell α)} {label : Nat} (more : s.cells.size ≤ cells.size)
    (kept : ∀ i < s.cells.size, cells[i]? = s.cells[i]?) (inside : label < cells.size) :
    Grown s ⟨cells, s.named.push label⟩ where
  closed v bound := by
    rw [Array.size_push] at bound
    rw [Live]
    rcases Nat.lt_succ_iff_lt_or_eq.mp bound with old | last
    · rw [s.cellOf_push old]
      exact Nat.lt_of_lt_of_le (closed v old) more
    · obtain rfl : v = ⟨s.named.size⟩ := congrArg Variable.mk last
      rw [s.cellOf_push_last]
      exact inside
  named := by simp
  cells := more
  cellOf v old := s.cellOf_push old ..
  contents := kept

theorem fresh (closed : s.Closed) (cell : Cell α) :
    Grown s ⟨s.cells.push cell, s.named.push s.cells.size⟩ := by
  apply Grown.push closed
  · simp
  · exact fun i old => by simp [Array.getElem?_push, Nat.ne_of_lt old]
  · simp

private theorem share (closed : s.Closed) {w : Variable} (inside : w.index < s.named.size) :
    Grown s ⟨s.cells, s.named.push (s.cellOf w)⟩ :=
  .push closed (Nat.le_refl _) (fun _ _ => rfl) (closed w inside)

end Grown

private theorem run_map {β γ : Type} (f : β → γ) (action : StateT Copies (StateM (Store α)) β)
    (entries : Copies) (s : Store α) :
    (f <$> action) entries s = ((f (action entries s).1.1, (action entries s).1.2), (action entries s).2) :=
  rfl

private theorem run_mapM_cons {β γ : Type} {action : β → StateT Copies (StateM (Store α)) γ} {x : β}
    {xs : List β} {y : γ} {ys : List γ} {entries more all : Copies} {s t u : Store α}
    (made : action x entries s = ((y, more), t)) (visited : xs.mapM action more t = ((ys, all), u)) :
    (x :: xs).mapM action entries s = ((y :: ys, all), u) := by
  rw [List.mapM_cons]
  simp only [bind, StateT.bind, made, visited]
  rfl

variable [Scalar α]

/-- Pairs of an original in `s` and its copy in `t`. The copies have cells of their own, shared as the
originals share theirs. -/
structure Transcript (s : Store α) (pairs : List (Variable × Variable)) (t : Store α) : Prop where
  grown : Grown s t
  inside : ∀ pair ∈ pairs, pair.2.index < t.named.size
  own : ∀ pair ∈ pairs, s.cells.size ≤ t.cellOf pair.2
  shared : ∀ first ∈ pairs, ∀ second ∈ pairs,
    t.cellOf first.2 = t.cellOf second.2 ↔ s.cellOf first.1 = s.cellOf second.1
  cell : ∀ pair ∈ pairs, t.cell pair.2 = s.cell pair.1

namespace Transcript

variable {s t u : Store α} {pairs : List (Variable × Variable)}

private theorem nil (closed : s.Closed) : Transcript s [] s where
  grown := .refl closed
  inside _ member := nomatch member
  own _ member := nomatch member
  shared _ member := nomatch member
  cell _ member := nomatch member

private theorem onward (transcript : Transcript s pairs t) (further : Grown t u) : Transcript s pairs u where
  grown := transcript.grown.trans further
  inside pair member := Nat.lt_of_lt_of_le (transcript.inside pair member) further.named
  own pair member := by
    rw [further.cellOf _ (transcript.inside pair member)]
    exact transcript.own pair member
  shared first left second right := by
    rw [further.cellOf _ (transcript.inside first left), further.cellOf _ (transcript.inside second right)]
    exact transcript.shared first left second right
  cell pair member := by
    have inside := transcript.inside pair member
    rw [further.cell inside (transcript.grown.closed _ inside)]
    exact transcript.cell pair member

theorem concat (transcript : Transcript s pairs t) {v copied : Variable} (inside : copied.index < t.named.size)
    (own : s.cells.size ≤ t.cellOf copied) (cell : t.cell copied = s.cell v)
    (shared : ∀ pair ∈ pairs, t.cellOf copied = t.cellOf pair.2 ↔ s.cellOf v = s.cellOf pair.1) :
    Transcript s (pairs ++ [(v, copied)]) t where
  grown := transcript.grown
  inside := List.forall_mem_append.mpr ⟨transcript.inside, by simpa using inside⟩
  own := List.forall_mem_append.mpr ⟨transcript.own, by simpa using own⟩
  shared := by
    simp only [List.forall_mem_append, List.forall_mem_singleton]
    refine ⟨fun first member => ⟨transcript.shared first member, ?_⟩, shared, trivial⟩
    rw [eq_comm, shared first member, eq_comm]
  cell := List.forall_mem_append.mpr ⟨transcript.cell, by simpa using cell⟩

end Transcript

/-- A transcript whose entries are its first pair for each cell of an original. -/
structure Copying (s : Store α) (pairs : List (Variable × Variable)) (entries : Copies) (t : Store α) : Prop
    extends Transcript s pairs t where
  found : ∀ entry ∈ entries, ∃ v, s.cellOf v = entry.1 ∧ (v, entry.2) ∈ pairs
  known : ∀ pair ∈ pairs, ∃ entry ∈ entries, entry.1 = s.cellOf pair.1

namespace Copying

variable {s t u : Store α} {pairs : List (Variable × Variable)} {entries : Copies}

theorem start (closed : s.Closed) : Copying s [] [] s where
  toTranscript := .nil closed
  found _ member := nomatch member
  known _ member := nomatch member

theorem onward (copying : Copying s pairs entries t) (further : Grown t u) : Copying s pairs entries u where
  toTranscript := copying.toTranscript.onward further
  found := copying.found
  known := copying.known

private theorem shareAgain (copying : Copying s pairs entries t) {v : Variable} {entry : Nat × Variable}
    (member : entry ∈ entries) (same : entry.1 = s.cellOf v) :
    Copying s (pairs ++ [(v, ⟨t.named.size⟩)]) entries ⟨t.cells, t.named.push (t.cellOf entry.2)⟩ := by
  obtain ⟨w, source, pair⟩ := copying.found entry member
  have inside := copying.inside _ pair
  have onward := copying.onward (Grown.share copying.grown.closed inside)
  have cellOf_copied := t.cellOf_push_last t.cells (t.cellOf entry.2)
  have cellOf_first := t.cellOf_push inside t.cells (t.cellOf entry.2)
  have copied := cellOf_copied.trans cellOf_first.symm
  have originals : s.cellOf w = s.cellOf v := source.trans same
  refine ⟨onward.concat ?_ ?_ ?_ ?_, ?_, ?_⟩
  · simp
  · rw [copied]
    exact onward.own _ pair
  · rw [cell_eq, copied, ← cell_eq, onward.cell _ pair, cell_eq, cell_eq, originals]
  · intro other listed
    rw [copied, onward.shared _ pair other listed, originals]
  · intro entry member
    obtain ⟨x, names, listed⟩ := copying.found entry member
    exact ⟨x, names, List.mem_append_left _ listed⟩
  · exact List.forall_mem_append.mpr ⟨copying.known, fun _ last => ⟨entry, member, by simpa [List.mem_singleton.mp last] using same⟩⟩

private theorem copyFirst (copying : Copying s pairs entries t) {v : Variable} (old : v.index < s.named.size)
    (live : s.Live v) (new : ∀ entry ∈ entries, entry.1 ≠ s.cellOf v) :
    Copying s (pairs ++ [(v, ⟨t.named.size⟩)]) (entries ++ [(s.cellOf v, ⟨t.named.size⟩)])
      ⟨t.cells.push (t.cell v), t.named.push t.cells.size⟩ := by
  have closed := copying.grown.closed
  have onward := copying.onward (Grown.fresh closed (t.cell v))
  have copied := t.cellOf_push_last (t.cells.push (t.cell v)) t.cells.size
  refine ⟨onward.concat ?_ ?_ ?_ ?_, ?_, ?_⟩
  · simp
  · rw [copied]
    exact copying.grown.cells
  · rw [cell_eq, copied, ← copying.grown.cell old live]
    simp
  · intro other listed
    obtain ⟨entry, member, source⟩ := copying.known other listed
    have inside := copying.inside other listed
    have there : t.cellOf other.2 < t.cells.size := closed _ inside
    rw [copied, t.cellOf_push inside]
    constructor
    · exact fun same => absurd same (Nat.ne_of_gt there)
    · exact fun same => absurd (source.trans same.symm) (new entry member)
  · refine List.forall_mem_append.mpr ⟨fun entry member => ?_, ?_⟩
    · obtain ⟨x, names, listed⟩ := copying.found entry member
      exact ⟨x, names, List.mem_append_left _ listed⟩
    · simpa using ⟨v, rfl, .inr rfl⟩
  · refine List.forall_mem_append.mpr ⟨fun pair listed => ?_, ?_⟩
    · obtain ⟨entry, member, source⟩ := copying.known pair listed
      exact ⟨entry, List.mem_append_left _ member, source⟩
    · simp

theorem copyThrough (copying : Copying s pairs entries t) (closed : s.Closed) {v : Variable}
    (old : v.index < s.named.size) :
    Copying s (pairs ++ [(v, (t.copyThrough entries v).copied)]) (t.copyThrough entries v).entries
      (t.copyThrough entries v).vars := by
  rw [copyThrough_eq, copying.grown.cellOf v old]
  cases seen : entries.find? fun entry => entry.1 == s.cellOf v with
  | some entry =>
    have same : entry.1 = s.cellOf v := by simpa using List.find?_some seen
    exact copying.shareAgain (List.mem_of_find?_eq_some seen) same
  | none =>
    have new : ∀ entry ∈ entries, entry.1 ≠ s.cellOf v := by simpa using seen
    exact copying.copyFirst old (closed v old) new

theorem step (copying : Copying s pairs entries t) (closed : s.Closed) {v : Variable}
    (old : v.index < s.named.size) :
    ∃ copied more u, copyAmong v entries t = ((copied, more), u) ∧ Copying s (pairs ++ [(v, copied)]) more u :=
  ⟨_, _, _, rfl, copying.copyThrough closed old⟩

private theorem mapM (copying : Copying s pairs entries t) (closed : s.Closed) {vs : List Variable}
    (old : ∀ v ∈ vs, v.index < s.named.size) :
    ∃ copies more u, vs.mapM copyAmong entries t = ((copies, more), u) ∧ copies.length = vs.length ∧
      Copying s (pairs ++ vs.zip copies) more u := by
  induction vs generalizing pairs entries t with
  | nil => exact ⟨[], entries, t, rfl, rfl, by simpa using copying⟩
  | cons v vs ih =>
    obtain ⟨first, rest⟩ := List.forall_mem_cons.mp old
    obtain ⟨copied, more, u, made, further⟩ := copying.step closed first
    obtain ⟨copies, all, last, visited, length, finished⟩ := ih further rest
    exact ⟨copied :: copies, all, last, run_mapM_cons made visited, congrArg Nat.succ length, by simpa using finished⟩

theorem figure (copying : Copying s pairs entries t) (closed : s.Closed) {figure : Figure Variable}
    (old : ∀ v ∈ figure.toList, v.index < s.named.size) :
    ∃ copy more u, figure.mapM copyAmong entries t = ((copy, more), u) ∧ copy.kind = figure.kind ∧
      Copying s (pairs ++ figure.toList.zip copy.toList) more u := by
  obtain ⟨copies, more, u, visited, -, finished⟩ := copying.mapM closed old
  rcases made : figure.mapM copyAmong entries t with ⟨⟨copy, others⟩, w⟩
  have visit : (((copy.kind, copy.toList), others), w) = (((figure.kind, copies), more), u) := by
    have both := congrFun (congrFun (Figure.map_mapM copyAmong figure) entries) t
    rw [run_map, run_map, made, visited] at both
    exact both
  simp only [Prod.mk.injEq] at visit
  obtain ⟨⟨⟨kind, rfl⟩, rfl⟩, rfl⟩ := visit
  exact ⟨copy, _, _, rfl, kind, finished⟩

theorem point (copying : Copying s pairs entries t) (closed : s.Closed) {p : Point Variable}
    (old : ∀ v ∈ p.toList, v.index < s.named.size) :
    ∃ copy more u, p.mapM copyAmong entries t = ((copy, more), u) ∧
      Copying s (pairs ++ p.toList.zip copy.toList) more u := by
  obtain ⟨x, first, u, madeX, afterX⟩ := copying.step closed (old p.x List.mem_cons_self)
  obtain ⟨y, second, w, madeY, afterY⟩ :=
    afterX.step closed (old p.y (List.mem_cons_of_mem p.x List.mem_cons_self))
  refine ⟨⟨x, y⟩, second, w, ?_, by simpa [Point.toList] using afterY⟩
  rw [Point.mapM]
  simp only [bind, StateT.bind, madeX, madeY]
  rfl

theorem figures (copying : Copying s pairs entries t) (closed : s.Closed) {figures : List (Figure Variable)}
    (old : ∀ v ∈ figures.flatMap Figure.toList, v.index < s.named.size) :
    ∃ copies more u, figures.mapM (Figure.mapM copyAmong) entries t = ((copies, more), u) ∧
      copies.map Figure.kind = figures.map Figure.kind ∧
      (copies.flatMap Figure.toList).length = (figures.flatMap Figure.toList).length ∧
      Copying s (pairs ++ (figures.flatMap Figure.toList).zip (copies.flatMap Figure.toList)) more u := by
  induction figures generalizing pairs entries t with
  | nil => exact ⟨[], entries, t, rfl, rfl, rfl, by simpa using copying⟩
  | cons figure figures ih =>
    rw [List.flatMap_cons] at old
    obtain ⟨first, rest⟩ := List.forall_mem_append.mp old
    obtain ⟨copy, more, u, made, kind, further⟩ := copying.figure closed first
    obtain ⟨copies, all, last, visited, kinds, lengths, finished⟩ := ih further rest
    have length := Figure.length_toList_eq kind
    refine ⟨copy :: copies, all, last, run_mapM_cons made visited, congrArg₂ List.cons kind kinds, ?_, ?_⟩
    · rw [List.flatMap_cons, List.flatMap_cons, List.length_append, List.length_append, length, lengths]
    · rw [List.flatMap_cons, List.flatMap_cons, List.zip_append length.symm, ← List.append_assoc]
      exact finished

end Copying

end PlaneSketch.Store
