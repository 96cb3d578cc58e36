import PlaneSketch.Binary64
import PlaneSketch.Proofs.Store.Transcript
import PlaneSketch.Store.Placement

/-! Copies made in one go. They are linked as their originals are, hold what these held, and have nothing
to do with the variables that were there before, whatever happens to either of them later. -/
namespace PlaneSketch

open Keeping

/-- The copies of some variables, one for each, next to the variables that were there `earlier`. -/
structure CopiedApart {α σ ε : Type} [Keeping α σ ε] (earlier originals copies : List Variable)
    (before after : σ) : Prop where
  count : copies.length = originals.length
  linked : ∀ first ∈ originals.zip copies, ∀ second ∈ originals.zip copies,
    linked after first.2 second.2 = linked before first.1 second.1
  cell : ∀ pair ∈ originals.zip copies, cell after pair.2 = cell before pair.1
  apart : ∀ copied ∈ copies, ∀ v ∈ earlier, Keeping.linked after copied v = false
  kept : Unchanged earlier before after
  /-- Also after acts on either side, an act on one side does nothing to the other one. -/
  later : ∀ mixed touches : List (Touch α),
    (∀ act ∈ mixed, act.variables ⊆ copies ∨ act.variables ⊆ earlier) →
      let now := touchAll after mixed
      ((∀ act ∈ touches, act.variables ⊆ copies) → Unchanged earlier now (touchAll now touches)) ∧
        ((∀ act ∈ touches, act.variables ⊆ earlier) → Unchanged copies now (touchAll now touches))

namespace Store

variable {α : Type}

theorem copying_eq {β : Type} {action : StateT Copies (StateM (Store α)) β} {s t : Store α} {x : β}
    {entries : Copies} (made : action [] s = ((x, entries), t)) : copying action s = (x, t) := by
  change ((action [] s).1.1, (action [] s).2) = (x, t)
  rw [made]

variable [Scalar α]

namespace Transcript

variable {s t : Store α} {earlier originals copies : List Variable}

private theorem apart (transcript : Transcript s (originals.zip copies) t) (closed : s.Closed)
    (count : copies.length = originals.length) (old : ∀ v ∈ earlier, v.index < s.named.size) :
    Apart copies earlier t := by
  have listed : ∀ copied ∈ copies, ∃ pair ∈ originals.zip copies, pair.2 = copied := by
    intro copied member
    rw [← List.map_snd_zip (Nat.le_of_eq count)] at member
    exact List.mem_map.mp member
  refine ⟨transcript.grown.closed, ?_, ?_, ?_⟩
  · intro copied member
    obtain ⟨pair, paired, rfl⟩ := listed copied member
    exact transcript.inside pair paired
  · exact fun v member => Nat.lt_of_lt_of_le (old v member) transcript.grown.named
  · intro copied member v there
    obtain ⟨pair, paired, rfl⟩ := listed copied member
    exact transcript.grown.unlinked closed (transcript.own pair paired) (old v there)

theorem copiedApart (transcript : Transcript s (originals.zip copies) t) (closed : s.Closed)
    (count : copies.length = originals.length) (old : ∀ v ∈ earlier, v.index < s.named.size) :
    CopiedApart earlier originals copies s t := by
  have apart := transcript.apart closed count old
  refine ⟨count, ?_, transcript.cell, apart.unlinked, transcript.grown.unchanged closed old, ?_⟩
  · intro first left second right
    change t.isLinked first.2 second.2 = s.isLinked first.1 second.1
    rw [Bool.eq_iff_iff, isLinked_iff, isLinked_iff]
    exact transcript.shared first left second right
  · intro mixed touches either
    have still := apart.touchEither either
    exact ⟨fun within => (still.touchAll within).2, fun within => (still.symm.touchAll within).2⟩

end Transcript

section Together

variable {s : Store α} {earlier : List Variable}

private theorem exists_copyFigures (closed : s.Closed) (old : ∀ v ∈ earlier, v.index < s.named.size)
    {figures : List (Figure Variable)} (among : figures.flatMap Figure.toList ⊆ earlier) :
    ∃ copies t, copyFigures figures s = (copies, t) ∧ copies.map Figure.kind = figures.map Figure.kind ∧
      CopiedApart earlier (figures.flatMap Figure.toList) (copies.flatMap Figure.toList) s t := by
  obtain ⟨copies, entries, t, made, kinds, count, copied⟩ :=
    (Copying.start closed).figures closed fun v member => old v (among member)
  exact ⟨copies, t, copying_eq made, kinds, copied.copiedApart closed count old⟩

theorem exists_copyFigure (closed : s.Closed) (old : ∀ v ∈ earlier, v.index < s.named.size)
    {figure : Figure Variable} (among : figure.toList ⊆ earlier) :
    ∃ copy t, copyFigure figure s = (copy, t) ∧ copy.kind = figure.kind ∧
      CopiedApart earlier figure.toList copy.toList s t := by
  obtain ⟨copy, entries, t, made, kind, copied⟩ :=
    (Copying.start closed).figure closed fun v member => old v (among member)
  exact ⟨copy, t, copying_eq made, kind, copied.copiedApart closed (Figure.length_toList_eq kind) old⟩

theorem exists_lineThrough (closed : s.Closed) (old : ∀ v ∈ earlier, v.index < s.named.size)
    {p0 p1 : Point Variable} (among : p0.toList ++ p1.toList ⊆ earlier) :
    ∃ l t, lineThrough p0 p1 s = (l, t) ∧ CopiedApart earlier (p0.toList ++ p1.toList) l.toList s t := by
  obtain ⟨copy, t, made, kind, copied⟩ :=
    exists_copyFigure closed old (show (Figure.line ⟨p0, p1⟩).toList ⊆ earlier from among)
  have line : copyFigure (.line ⟨p0, p1⟩) s = (.line (lineThrough p0 p1 s).1, (lineThrough p0 p1 s).2) := rfl
  rw [line] at made
  cases made
  exact ⟨_, _, rfl, copied⟩

private theorem exists_arcThrough (closed : s.Closed) (old : ∀ v ∈ earlier, v.index < s.named.size)
    {c p0 p1 : Point Variable} (among : c.toList ++ p0.toList ++ p1.toList ⊆ earlier) :
    ∃ a t, arcThrough c p0 p1 s = (a, t) ∧
      CopiedApart earlier (c.toList ++ p0.toList ++ p1.toList) (a.c.toList ++ a.p0.toList ++ a.p1.toList) s t := by
  have inside : ∀ v ∈ c.toList ++ p0.toList ++ p1.toList, v.index < s.named.size :=
    fun v member => old v (among member)
  obtain ⟨ends, last⟩ := List.forall_mem_append.mp inside
  obtain ⟨centre, first⟩ := List.forall_mem_append.mp ends
  let radius := (s.point c).distance (s.point p0)
  obtain ⟨copyC, entriesC, t, madeC, afterC⟩ := (Copying.start closed).point closed centre
  have afterR := afterC.onward (Grown.fresh afterC.grown.closed ⟨radius, false⟩)
  obtain ⟨copy0, entries0, u, made0, after0⟩ := afterR.point closed first
  obtain ⟨copy1, entries1, w, made1, after1⟩ := after0.point closed last
  refine ⟨⟨copyC, ⟨t.named.size⟩, copy0, copy1⟩, w, ?_, after1.copiedApart closed rfl old⟩
  let r : StateM (Store α) Variable := fresh radius false
  let action : StateT Copies (StateM (Store α)) (Arc Variable) := do
    return ⟨← c.mapM copyAmong, ← r, ← p0.mapM copyAmong, ← p1.mapM copyAmong⟩
  have madeR : (liftM r : StateT Copies (StateM (Store α)) Variable) entriesC t =
      ((⟨t.named.size⟩, entriesC), ⟨t.cells.push ⟨radius, false⟩, t.named.push t.cells.size⟩) := rfl
  have made : action [] s = ((⟨copyC, ⟨t.named.size⟩, copy0, copy1⟩, entries1), w) := by
    simp only [action, bind, StateT.bind, madeC, madeR, made0, made1]
    rfl
  exact copying_eq made

end Together

section Programs

variable {s : Store α} {w : Workspace (Store α) (Nat × Variable)} {pairs : List (Variable × Variable)} {map : Nat}

private theorem Copying.exists_run {requests : List (Nat × Variable)}
    (copying : Copying s pairs (w.maps map) w.vars) (closed : s.Closed)
    (asked : ∀ request ∈ requests, w.handles[request.1]? = some request.2 ∧ request.2.index < s.named.size) :
    let u := w.run (requests.map fun request => .copyThrough map request.1)
    ∃ copies, u.handles = w.handles ++ copies ∧ copies.length = (requests.map Prod.snd).length ∧
      Transcript s (pairs ++ (requests.map Prod.snd).zip copies) u.vars := by
  induction requests generalizing pairs w with
  | nil =>
    refine ⟨[], (List.append_nil _).symm, rfl, ?_⟩
    rw [List.map_nil, List.zip_nil_left, List.append_nil]
    exact copying.toTranscript
  | cons request requests ih =>
    obtain ⟨⟨held, old⟩, rest⟩ := List.forall_mem_cons.mp asked
    let made := w.vars.copyThrough (w.maps map) request.2
    let next := w.step (.copyThrough map request.1)
    have stepped : next.vars = made.vars ∧ next.handles = w.handles ++ [made.copied] ∧
        next.maps map = made.entries := by
      simp only [next, Workspace.step, held]
      exact ⟨rfl, rfl, if_pos trivial⟩
    obtain ⟨vars, handles, entries⟩ := stepped
    have copied : Copying s (pairs ++ [(request.2, made.copied)]) (next.maps map) next.vars := by
      rw [vars, entries]
      exact copying.copyThrough closed old
    have later : ∀ other ∈ requests,
        next.handles[other.1]? = some other.2 ∧ other.2.index < s.named.size := by
      intro other member
      obtain ⟨known, inside⟩ := rest other member
      rw [handles, List.getElem?_append_left (List.getElem?_eq_some_iff.mp known).1]
      exact ⟨known, inside⟩
    obtain ⟨copies, listed, count, transcript⟩ := ih copied later
    refine ⟨made.copied :: copies, ?_, congrArg Nat.succ count, ?_⟩
    · rw [handles, List.append_assoc] at listed
      exact listed
    · rw [List.append_assoc] at transcript
      exact transcript

end Programs

end Store

section Forests

variable {α : Type} [Scalar α] {f g : Forest α} {earlier originals copies : List Variable}

private theorem CopiedApart.of_flatten (copied : CopiedApart earlier originals copies f.flatten g.flatten)
    (closed : g.Closed) (inside : ∀ v ∈ copies ++ earlier, v.index < g.held.size) :
    CopiedApart earlier originals copies f g := by
  have unchanged : ∀ {vs : List Variable} {f g : Forest α}, Unchanged vs f.flatten g.flatten → Unchanged vs f g := by
    intro vs f g shown
    simp only [Unchanged, Workspace.cell_keeping, Workspace.linked_keeping]
    exact shown
  obtain ⟨insideC, insideE⟩ := List.forall_mem_append.mp inside
  refine ⟨copied.count, ?_, ?_, ?_, unchanged copied.kept, ?_⟩
  · simp only [Workspace.linked_keeping]
    exact copied.linked
  · simp only [Workspace.cell_keeping]
    exact copied.cell
  · simp only [Workspace.linked_keeping]
    exact copied.apart
  · intro mixed touches either now
    have touched : ∀ act ∈ mixed, ∀ v ∈ act.variables, v.index < g.held.size := by
      intro act member v there
      rcases either act member with within | within
      · exact insideC v (within there)
      · exact insideE v (within there)
    have mid := Forest.follows_touchAll closed touched
    obtain ⟨among, before⟩ := copied.later mixed touches either
    rw [← mid.flatten] at among before
    refine ⟨fun within => unchanged ?_, fun within => unchanged ?_⟩
    · have later := Forest.follows_touchAll mid.closed fun act member v there =>
        Nat.lt_of_lt_of_le (insideC v (within act member there)) mid.continues.held
      rw [later.flatten]
      exact among within
    · have later := Forest.follows_touchAll mid.closed fun act member v there =>
        Nat.lt_of_lt_of_le (insideE v (within act member there)) mid.continues.held
      rw [later.flatten]
      exact before within

/-- Whatever a program has done to the forest, what it copies through a new link map is apart. -/
private theorem exists_copies_forest (acts : List (Act α)) (map : Nat) (requests : List (Nat × Variable)) :
    let w : Workspace (Forest α) Forest.Entry := Workspace.start.run acts
    w.maps map = [] → (∀ request ∈ requests, w.handles[request.1]? = some request.2) →
      let u := w.run (requests.map fun request => .copyThrough map request.1)
      ∃ copies, u.handles = w.handles ++ copies ∧
        CopiedApart w.handles (requests.map Prod.snd) copies w.vars u.vars := by
  intro w new held u
  obtain ⟨-, seen⟩ := Workspace.rooted_run acts
  obtain ⟨rootedU, seenU⟩ := Workspace.rooted_run (acts ++ requests.map fun request => .copyThrough map request.1)
  have kept : Store.Kept w.flatten := by
    rw [seen]
    exact Store.Kept.run acts
  have split {σ ε : Type} [Keeping α σ ε] : (Workspace.start.run
      (acts ++ requests.map fun request => .copyThrough map request.1) : Workspace σ ε) =
        (Workspace.start.run acts).run (requests.map fun request => .copyThrough map request.1) :=
    List.foldl_append
  rw [split] at rootedU
  rw [split, split, ← seen] at seenU
  have copying : Store.Copying w.flatten.vars [] (w.flatten.maps map) w.flatten.vars := by
    have unused : w.flatten.maps map = [] :=
      congrArg (List.map fun entry : Forest.Entry => (entry.source, entry.first)) new
    rw [unused]
    exact .start kept.live
  obtain ⟨copies, handles, count, transcript⟩ := copying.exists_run kept.live fun request member =>
    ⟨held request member, kept.handles _ (List.mem_of_getElem? (held request member))⟩
  rw [← seenU] at handles transcript
  have copied := transcript.copiedApart kept.live count kept.handles
  refine ⟨copies, handles, copied.of_flatten rootedU.closed fun v member => rootedU.handles v ?_⟩
  change v ∈ u.flatten.handles
  rw [handles]
  exact List.mem_append.mpr (List.mem_append.mp member).symm

end Forests

namespace Store

variable {α : Type} [Scalar α]

/-- Figures copied in one go are linked among each other as the originals are, hold what these hold, and are
apart from all that was there, now and after anything done on either side. A copy of one figure, a line
through two points and the points of an arc are made so, too; and so is what a program copies through a new
link map, however its merges have chained the cells by then. -/
theorem copies_apart (s : Store α) (earlier : List Variable) (closed : s.Closed)
    (old : ∀ v ∈ earlier, v.index < s.named.size) :
    (∀ figures : List (Figure Variable), figures.flatMap Figure.toList ⊆ earlier →
      ∃ copies t, copyFigures figures s = (copies, t) ∧ copies.map Figure.kind = figures.map Figure.kind ∧
        CopiedApart earlier (figures.flatMap Figure.toList) (copies.flatMap Figure.toList) s t) ∧
    (∀ figure : Figure Variable, figure.toList ⊆ earlier →
      ∃ copy t, copyFigure figure s = (copy, t) ∧ copy.kind = figure.kind ∧
        CopiedApart earlier figure.toList copy.toList s t) ∧
    (∀ p0 p1 : Point Variable, p0.toList ++ p1.toList ⊆ earlier →
      ∃ l t, lineThrough p0 p1 s = (l, t) ∧ CopiedApart earlier (p0.toList ++ p1.toList) l.toList s t) ∧
    (∀ c p0 p1 : Point Variable, c.toList ++ p0.toList ++ p1.toList ⊆ earlier →
      ∃ a t, arcThrough c p0 p1 s = (a, t) ∧ CopiedApart earlier (c.toList ++ p0.toList ++ p1.toList)
        (a.c.toList ++ a.p0.toList ++ a.p1.toList) s t) ∧
    ∀ (acts : List (Act α)) (map : Nat) (requests : List (Nat × Variable)),
      let w : Workspace (Forest α) Forest.Entry := Workspace.start.run acts
      w.maps map = [] → (∀ request ∈ requests, w.handles[request.1]? = some request.2) →
        let u := w.run (requests.map fun request => .copyThrough map request.1)
        ∃ copies, u.handles = w.handles ++ copies ∧
          CopiedApart w.handles (requests.map Prod.snd) copies w.vars u.vars :=
  ⟨fun _ among => exists_copyFigures closed old among, fun _ among => exists_copyFigure closed old among,
    fun _ _ among => exists_lineThrough closed old among, fun _ _ _ among => exists_arcThrough closed old among,
    exists_copies_forest⟩

def cornerStore : Store Float := ⟨#[⟨1, false⟩, ⟨2, true⟩, ⟨3, false⟩], #[0, 1, 2, 1, 0, 1, 0]⟩

def cornerFigures : List (Figure Variable) := [.line ⟨⟨⟨0⟩, ⟨1⟩⟩, ⟨⟨2⟩, ⟨3⟩⟩⟩, .point ⟨⟨4⟩, ⟨5⟩⟩]

theorem copies_apart_corner :
    ∃ copies t, copyFigures cornerFigures cornerStore = (copies, t) ∧
      copies.flatMap Figure.toList = [⟨7⟩, ⟨8⟩, ⟨9⟩, ⟨10⟩, ⟨11⟩, ⟨12⟩] ∧
      (t.isLinked ⟨7⟩ ⟨11⟩ = true ∧ t.isLinked ⟨8⟩ ⟨10⟩ = true ∧ t.isLinked ⟨7⟩ ⟨9⟩ = false) ∧
      (∀ v ∈ [⟨7⟩, ⟨8⟩, ⟨9⟩, ⟨10⟩, ⟨11⟩, ⟨12⟩], t.isLinked v ⟨6⟩ = false) ∧
      (((t.setValue ⟨7⟩ 5).link ⟨7⟩ ⟨8⟩).cell ⟨6⟩).value = 1 := by
  have closed : cornerStore.Closed := by decide
  let earlier : List Variable := (List.range 7).map Variable.mk
  obtain ⟨together, -⟩ := copies_apart cornerStore earlier closed (by decide)
  obtain ⟨copies, t, made, -, copied⟩ := together cornerFigures (by decide)
  have listed : copies.flatMap Figure.toList = [⟨7⟩, ⟨8⟩, ⟨9⟩, ⟨10⟩, ⟨11⟩, ⟨12⟩] :=
    congrArg (fun made => made.1.flatMap Figure.toList) made.symm
  rw [listed] at copied
  have linked := copied.linked
  refine ⟨copies, t, made, listed, ⟨?_, ?_, ?_⟩, ?_, ?_⟩
  · exact linked (⟨0⟩, ⟨7⟩) (by decide) (⟨4⟩, ⟨11⟩) (by decide)
  · exact linked (⟨1⟩, ⟨8⟩) (by decide) (⟨3⟩, ⟨10⟩) (by decide)
  · exact linked (⟨0⟩, ⟨7⟩) (by decide) (⟨2⟩, ⟨9⟩) (by decide)
  · exact fun v member => copied.apart v member ⟨6⟩ (by decide)
  · obtain ⟨among, -⟩ := copied.later [] [.write ⟨7⟩ (.value 5), .link ⟨7⟩ ⟨8⟩] (by simp)
    have same := (among (by decide)).1 ⟨6⟩ (by decide)
    have before := copied.kept.1 ⟨6⟩ (by decide)
    exact congrArg Cell.value (same.trans before)

end Store

end PlaneSketch
