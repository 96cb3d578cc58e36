import PlaneSketch.Proofs.Store.Labels
import PlaneSketch.Proofs.Store.Mirror
import PlaneSketch.Store.History

/-! Linked variables are one partition. Whatever a program has done, variables are linked exactly if
links and shared copies lead from one to the other; a class has one cell, a write changes the cell of
its class, and a link makes two classes one. -/
namespace PlaneSketch

open Keeping

/-- The cell of two merged classes: constant if either was, with the value of the first one if only
that one was constant and of the second one otherwise. -/
def Cell.merged {α : Type} (first second : Cell α) : Cell α where
  value := if first.constant && !second.constant then first.value else second.value
  constant := first.constant || second.constant

section Partition

variable {α σ ε : Type} [Keeping α σ ε]

/-- The handles show the same cells and links as before. -/
def Unchanged (handles : List Variable) (before after : σ) : Prop :=
  (∀ x ∈ handles, cell after x = cell before x) ∧
    ∀ x ∈ handles, ∀ y ∈ handles, linked after x y = linked before x y

/-- The class of `v` has a new cell; the other classes and all links are as before. -/
def ClassWritten (handles : List Variable) (v : Variable) (f : Cell α → Cell α) (before after : σ) :
    Prop :=
  (∀ x ∈ handles, cell after x = if linked before v x then f (cell before x) else cell before x) ∧
    ∀ x ∈ handles, ∀ y ∈ handles, linked after x y = linked before x y

/-- The classes of `v` and `w` are one, with one cell; the other classes are as before. -/
def ClassesMerged (handles : List Variable) (v w : Variable) (before after : σ) : Prop :=
  (∀ x ∈ handles, cell after x =
      if linked before v x || linked before w x then (cell before v).merged (cell before w)
      else cell before x) ∧
    ∀ x ∈ handles, ∀ y ∈ handles, linked after x y =
      (linked before x y ||
        (linked before v x || linked before w x) && (linked before v y || linked before w y))

variable [Scalar α]

/-- Linked variables are a partition, and the acts on it do what they say. -/
structure Partition (w : Workspace σ ε) : Prop where
  linked_iff : ∀ x ∈ w.handles, ∀ y ∈ w.handles, linked w.vars x y = true ↔ Joined w.joined x y
  cell_eq : ∀ x ∈ w.handles, ∀ y ∈ w.handles, linked w.vars x y = true → cell w.vars x = cell w.vars y
  read : ∀ a, Unchanged w.handles w.vars (w.step (.read a)).vars
  write : ∀ a v write, w.handles[a]? = some v →
    ClassWritten w.handles v write.apply w.vars (w.step (.write a write)).vars
  link : ∀ a b v u, w.handles[a]? = some v → w.handles[b]? = some u → linked w.vars v u = false →
    ClassesMerged w.handles v u w.vars (w.step (.link a b)).vars
  relink : ∀ a b v u, w.handles[a]? = some v → w.handles[b]? = some u → linked w.vars v u = true →
    Unchanged w.handles w.vars (w.step (.link a b)).vars

end Partition

namespace Store

section Labels

variable {α : Type} (s : Store α)

theorem cellOf_push {v : Variable} (old : v.index < s.named.size) (cells : Array (Cell α)) (label : Nat) :
    (⟨cells, s.named.push label⟩ : Store α).cellOf v = s.cellOf v := by
  simp [cellOf, Array.getElem?_push, Nat.ne_of_lt old]

theorem cellOf_push_last (cells : Array (Cell α)) (label : Nat) :
    (⟨cells, s.named.push label⟩ : Store α).cellOf ⟨s.named.size⟩ = label := by
  simp [cellOf]

theorem cellOf_rename {v : Variable} (old : v.index < s.named.size) (source target : Nat) :
    (s.rename source target).cellOf v = if s.cellOf v = source then target else s.cellOf v := by
  simp [cellOf, rename, old]

theorem updateCell_updateCell (i : Nat) (f g : Cell α → Cell α) :
    (s.updateCell i f).updateCell i g = s.updateCell i (g ∘ f) := by
  refine ext_getElem? rfl fun j => ?_
  simp only [updateCell, Array.getElem?_modify]
  split
  · rw [Option.map_map]
  · rfl

private theorem updateCell_self {i : Nat} {f : Cell α → Cell α}
    (same : ∀ cell, s.cells[i]? = some cell → f cell = cell) : s.updateCell i f = s := by
  refine ext_getElem? rfl fun j => ?_
  rw [getElem?_updateCell]
  split
  case isTrue here =>
    subst here
    cases present : s.cells[i]? with
    | none => rfl
    | some cell => rw [Option.map_some, same cell present]
  case isFalse => rfl

variable [Scalar α]

theorem write_eq (v : Variable) (write : Write α) :
    s.write v write = s.updateCell (s.cellOf v) write.apply := by
  cases write <;> rfl

theorem cellOf_link {x : Variable} (old : x.index < s.named.size) (v w : Variable) :
    (s.link v w).cellOf x = if s.cellOf x = s.cellOf v then s.cellOf w else s.cellOf x := by
  rw [link]
  split
  case isTrue linked =>
    rw [isLinked_iff] at linked
    split
    case isTrue here => rw [here, linked]
    case isFalse => rfl
  case isFalse =>
    split
    · exact cellOf_rename _ old _ _
    · exact cellOf_rename _ old _ _

theorem size_link (v w : Variable) :
    (s.link v w).named.size = s.named.size ∧ (s.link v w).cells.size = s.cells.size := by
  rw [link]
  split
  · exact ⟨rfl, rfl⟩
  · split
    · simp [rename, setConstant, setValue, updateCell]
    · simp [rename]

theorem isLinked_link {x y : Variable} (oldX : x.index < s.named.size) (oldY : y.index < s.named.size)
    (v w : Variable) :
    (s.link v w).isLinked x y = (s.isLinked x y ||
      (s.isLinked v x || s.isLinked w x) && (s.isLinked v y || s.isLinked w y)) := by
  rw [Bool.eq_iff_iff]
  simp only [Bool.or_eq_true, Bool.and_eq_true, isLinked_iff, s.cellOf_link oldX, s.cellOf_link oldY]
  constructor
  · intro same
    split at same <;> split at same <;> omega
  · intro joined
    split <;> split <;> omega

private theorem link_eq {v w : Variable} (apart : s.isLinked v w = false) :
    s.link v w = (s.updateCell (s.cellOf w) fun _ => (s.cell v).merged (s.cell w)).rename (s.cellOf v)
      (s.cellOf w) := by
  rw [link, if_neg (by simp [apart])]
  refine congrArg (fun kept : Store α => kept.rename (s.cellOf v) (s.cellOf w)) ?_
  split
  case isTrue takes =>
    simp only [isConstant, Bool.and_eq_true, Bool.not_eq_true'] at takes
    have merged : (s.cell v).merged (s.cell w) = ⟨s.value v, true⟩ := by
      simp [Cell.merged, takes, value]
    rw [merged]
    exact s.updateCell_updateCell (s.cellOf w) _ _
  case isFalse leaves =>
    symm
    apply s.updateCell_self
    intro cell present
    have here : s.cell w = cell := by rw [cell_eq, present, Option.getD_some]
    simp only [isConstant, here] at leaves
    rw [here, Cell.merged, if_neg leaves]
    cases first : (s.cell v).constant with
    | false => rfl
    | true =>
      have second : cell.constant = true := by simpa [first] using leaves
      rw [← second, Bool.or_self]

theorem cell_link {v w x : Variable} (apart : s.isLinked v w = false) (live : s.Live w)
    (old : x.index < s.named.size) :
    (s.link v w).cell x =
      if s.isLinked v x || s.isLinked w x then (s.cell v).merged (s.cell w) else s.cell x := by
  have names : (s.link v w).cellOf x = if s.cellOf x = s.cellOf v then s.cellOf w else s.cellOf x :=
    s.cellOf_link old v w
  have cells : (s.link v w).cells = (s.updateCell (s.cellOf w) fun _ => (s.cell v).merged (s.cell w)).cells := by
    rw [s.link_eq apart]
    rfl
  have present : s.cells[s.cellOf w]? = some s.cells[s.cellOf w] := Array.getElem?_eq_getElem live
  rw [cell_eq, names, cells, getElem?_updateCell]
  by_cases hereV : s.cellOf v = s.cellOf x
  · simp [isLinked, hereV, present]
  · by_cases hereW : s.cellOf w = s.cellOf x
    · rw [if_neg (Ne.symm hereV), if_pos hereW, ← hereW, present]
      simp [isLinked, hereW]
    · rw [if_neg (Ne.symm hereV), if_neg hereW, ← cell_eq]
      simp [isLinked, hereV, hereW]

end Labels

section Workspaces

variable {α : Type}

/-- A cell that has been copied through the map is shared, any other one is copied now. -/
theorem copyThrough_eq [Scalar α] (s : Store α) (copies : Copies) (v : Variable) :
    s.copyThrough copies v =
      match copies.find? fun entry => entry.1 == s.cellOf v with
      | some entry =>
        ⟨⟨s.named.size⟩, some entry.2, copies, ⟨s.cells, s.named.push (s.cellOf entry.2)⟩⟩
      | none =>
        ⟨⟨s.named.size⟩, none, copies ++ [(s.cellOf v, ⟨s.named.size⟩)],
          ⟨s.cells.push (s.cell v), s.named.push s.cells.size⟩⟩ := by
  rw [copyThrough]
  cases found : copies.find? fun entry => entry.1 == s.cellOf v <;>
  · simp only [copyAmong, StateT.run, bind, StateT.bind, get, getThe, MonadStateOf.get, StateT.get,
      pure, found]
    rfl

/-- What holds of a workspace at any time: its variables are there, and their labels follow the
pairs that were joined. -/
structure Kept (w : Workspace (Store α) (Nat × Variable)) : Prop where
  live : ∀ v : Variable, v.index < w.vars.named.size → w.vars.Live v
  handles : ∀ v ∈ w.handles, v.index < w.vars.named.size
  firsts : ∀ map, ∀ entry ∈ w.maps map, entry.2.index < w.vars.named.size
  labels : Labels w.vars.cellOf w.vars.named.size w.joined

namespace Kept

variable {w : Workspace (Store α) (Nat × Variable)}

private theorem start [Scalar α] : Kept (Workspace.start : Workspace (Store α) (Nat × Variable)) where
  live _ inside := absurd inside (Nat.not_lt_zero _)
  handles _ member := absurd member List.not_mem_nil
  firsts _ _ member := absurd member List.not_mem_nil
  labels := .nil _

theorem fresh (kept : Kept w) (cell : Cell α) {maps : Nat → List (Nat × Variable)}
    (firsts : ∀ map, ∀ entry ∈ maps map, entry.2.index < w.vars.named.size + 1) :
    Kept { w with
      vars := ⟨w.vars.cells.push cell, w.vars.named.push w.vars.cells.size⟩
      handles := w.handles ++ [⟨w.vars.named.size⟩]
      maps } where
  live v inside := by
    rw [Array.size_push] at inside
    rw [Live, Array.size_push]
    rcases Nat.lt_succ_iff_lt_or_eq.mp inside with old | last
    · rw [w.vars.cellOf_push old]
      exact Nat.lt_succ_of_lt (kept.live v old)
    · obtain rfl : v = ⟨w.vars.named.size⟩ := congrArg Variable.mk last
      rw [w.vars.cellOf_push_last]
      exact Nat.lt_succ_self _
  handles v member := by
    rw [Array.size_push]
    rcases List.mem_append.mp member with old | last
    · exact Nat.lt_succ_of_lt (kept.handles v old)
    · cases List.mem_singleton.mp last
      exact Nat.lt_succ_self _
  firsts map entry member := by
    rw [Array.size_push]
    exact firsts map entry member
  labels := by
    rw [Array.size_push]
    apply kept.labels.fresh
    · exact fun v old => w.vars.cellOf_push old _ _
    · intro v old
      rw [w.vars.cellOf_push old, w.vars.cellOf_push_last]
      exact Nat.ne_of_lt (kept.live v old)

private theorem share (kept : Kept w) {u : Variable} (old : u.index < w.vars.named.size)
    (maps : Nat → List (Nat × Variable))
    (firsts : ∀ map, ∀ entry ∈ maps map, entry.2.index < w.vars.named.size) :
    Kept { w with
      vars := ⟨w.vars.cells, w.vars.named.push (w.vars.cellOf u)⟩
      handles := w.handles ++ [⟨w.vars.named.size⟩]
      maps
      joined := w.joined ++ [(⟨w.vars.named.size⟩, u)] } where
  live v inside := by
    rw [Array.size_push] at inside
    rcases Nat.lt_succ_iff_lt_or_eq.mp inside with earlier | last
    · rw [Live, w.vars.cellOf_push earlier]
      exact kept.live v earlier
    · obtain rfl : v = ⟨w.vars.named.size⟩ := congrArg Variable.mk last
      rw [Live, w.vars.cellOf_push_last]
      exact kept.live u old
  handles v member := by
    rw [Array.size_push]
    rcases List.mem_append.mp member with earlier | last
    · exact Nat.lt_succ_of_lt (kept.handles v earlier)
    · cases List.mem_singleton.mp last
      exact Nat.lt_succ_self _
  firsts map entry member := by
    rw [Array.size_push]
    exact Nat.lt_succ_of_lt (firsts map entry member)
  labels := by
    rw [Array.size_push]
    apply kept.labels.share _ old
    · exact w.vars.cellOf_push_last _ _
    · exact fun v earlier => w.vars.cellOf_push earlier _ _

private theorem link [Scalar α] (kept : Kept w) {v u : Variable} (first : v.index < w.vars.named.size)
    (second : u.index < w.vars.named.size) :
    Kept { w with vars := w.vars.link v u, joined := w.joined ++ [(v, u)] } where
  live x inside := by
    rw [(w.vars.size_link v u).1] at inside
    rw [Live, w.vars.cellOf_link inside, (w.vars.size_link v u).2]
    split
    · exact kept.live u second
    · exact kept.live x inside
  handles x member := by
    rw [(w.vars.size_link v u).1]
    exact kept.handles x member
  firsts map entry member := by
    rw [(w.vars.size_link v u).1]
    exact kept.firsts map entry member
  labels := by
    rw [(w.vars.size_link v u).1]
    exact (kept.labels.rename first second).congr fun x inside => w.vars.cellOf_link inside v u

private theorem write (kept : Kept w) {s : Store α} (names : SameNames w.vars s) :
    Kept { w with vars := s } where
  live v inside := names.live (kept.live v (names.named ▸ inside))
  handles v member := by
    rw [names.named]
    exact kept.handles v member
  firsts map entry member := by
    rw [names.named]
    exact kept.firsts map entry member
  labels := by
    rw [names.named]
    exact kept.labels.congr fun v _ => names.cellOf v

private theorem copyThrough [Scalar α] (kept : Kept w) (map a : Nat) :
    Kept (w.step (.copyThrough map a)) := by
  rw [Workspace.step]
  split
  case h_1 v found =>
    have made := w.vars.copyThrough_eq (w.maps map) v
    cases known : (w.maps map).find? fun entry => entry.1 == w.vars.cellOf v with
    | none =>
      rw [known] at made
      simp only [Keeping.copyThrough, made, Option.toList_none, List.map_nil, List.append_nil]
      apply kept.fresh
      intro other entry member
      split at member
      · rcases List.mem_append.mp member with old | last
        · exact Nat.lt_succ_of_lt (kept.firsts map entry old)
        · cases List.mem_singleton.mp last
          exact Nat.lt_succ_self _
      · exact Nat.lt_succ_of_lt (kept.firsts other entry member)
    | some earlier =>
      rw [known] at made
      simp only [Keeping.copyThrough, made, Option.toList_some, List.map_cons, List.map_nil]
      apply kept.share (kept.firsts map earlier (List.mem_of_find?_eq_some known))
      intro other entry member
      split at member
      · exact kept.firsts map entry member
      · exact kept.firsts other entry member
  case h_2 => exact kept

private theorem step [Scalar α] (kept : Kept w) (act : Act α) : Kept (w.step act) := by
  cases act with
  | create cell => exact kept.fresh cell fun map entry member => Nat.lt_succ_of_lt (kept.firsts map entry member)
  | clone a =>
    refine ⟨kept.live, ?_, kept.firsts, kept.labels⟩
    intro v member
    rcases List.mem_append.mp member with old | again
    · exact kept.handles v old
    · exact kept.handles v (List.mem_of_getElem? (Option.mem_toList.mp again))
  | link a b =>
    rw [Workspace.step]
    split
    case h_1 v u first second =>
      exact kept.link (kept.handles v (List.mem_of_getElem? first)) (kept.handles u (List.mem_of_getElem? second))
    case h_2 => exact kept
  | copy a =>
    rw [Workspace.step]
    split
    case h_1 v found =>
      exact kept.fresh ⟨w.vars.value v, w.vars.isConstant v⟩
        fun map entry member => Nat.lt_succ_of_lt (kept.firsts map entry member)
    case h_2 => exact kept
  | copyThrough map a => exact kept.copyThrough map a
  | write a write =>
    rw [Workspace.step]
    split
    case h_1 v found =>
      apply kept.write
      change SameNames w.vars (w.vars.write v write)
      rw [write_eq]
      exact w.vars.sameNames_updateCell _ _
    case h_2 => exact kept
  | read a =>
    rw [Workspace.step]
    split <;> exact kept

theorem run [Scalar α] (acts : List (Act α)) :
    Kept (Workspace.start.run acts : Workspace (Store α) (Nat × Variable)) := by
  have steps : ∀ (acts : List (Act α)) (w : Workspace (Store α) (Nat × Variable)), Kept w →
      Kept (w.run acts) := by
    intro acts
    induction acts with
    | nil => exact fun _ kept => kept
    | cons act acts ih => exact fun w kept => ih (w.step act) (kept.step act)
  exact steps acts _ start

theorem partition [Scalar α] (kept : Kept w) : Partition w where
  linked_iff x first y second := by
    change w.vars.isLinked x y = true ↔ _
    rw [isLinked_iff]
    exact kept.labels.iff x y (kept.handles x first) (kept.handles y second)
  cell_eq x _ y _ same := by
    change w.vars.isLinked x y = true at same
    change w.vars.cell x = w.vars.cell y
    rw [cell_eq, cell_eq, isLinked_iff.mp same]
  read a := by
    rw [Workspace.step]
    split <;> exact ⟨fun _ _ => rfl, fun _ _ _ _ => rfl⟩
  write a v write found := by
    have after : (w.step (.write a write)).vars = w.vars.updateCell (w.vars.cellOf v) write.apply := by
      rw [Workspace.step, found]
      exact w.vars.write_eq v write
    rw [after]
    constructor
    · intro x member
      change (w.vars.updateCell _ _).cell x = if w.vars.isLinked v x then _ else _
      rw [cell_updateCell _ _ _ (kept.live x (kept.handles x member))]
      simp only [isLinked_iff]
      rfl
    · exact fun x _ y _ => (w.vars.sameNames_updateCell _ _).isLinked x y
  link a b v u first second apart := by
    have after : (w.step (.link a b)).vars = w.vars.link v u := by
      rw [Workspace.step, first, second]
      rfl
    have live := kept.live u (kept.handles u (List.mem_of_getElem? second))
    rw [after]
    constructor
    · exact fun x member => w.vars.cell_link apart live (kept.handles x member)
    · exact fun x first y second =>
        w.vars.isLinked_link (kept.handles x first) (kept.handles y second) v u
  relink a b v u first second same := by
    have after : (w.step (.link a b)).vars = w.vars := by
      rw [Workspace.step, first, second]
      exact if_pos same
    rw [after]
    exact ⟨fun _ _ => rfl, fun _ _ _ _ => rfl⟩

end Kept

end Workspaces

end Store

end PlaneSketch
