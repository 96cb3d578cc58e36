import PlaneSketch.Proofs.Store.Partition

/-! A forest of cells is a store seen through its roots. Looking up shortens ways but leads to the
same roots, and every act on the forest is the same act on the store. -/
namespace PlaneSketch.Forest

variable {α : Type}

section Roots

variable (f : Forest α)

theorem root_eq_self {i : Nat} (ends : parent f.nodes i = none) : f.root i = i := by
  rw [root]
  split
  case h_1 => rfl
  case h_2 forwards => simp [ends] at forwards

theorem root_eq_root {i j : Nat} (forwards : parent f.nodes i = some j) : f.root i = f.root j := by
  rw [root]
  split
  case h_1 ends => simp [ends] at forwards
  case h_2 other => rw [Option.some.inj (forwards.symm.trans other)]

private theorem root_root (i : Nat) : f.root (f.root i) = f.root i := f.root_eq_self (f.parent_root i)

variable {f} {g : Forest α}

theorem root_congr (same : parent g.nodes = parent f.nodes) : g.root = f.root := by
  funext i
  induction i using f.acyclic.induction with
  | _ i ih =>
    cases forwards : parent f.nodes i with
    | none => rw [f.root_eq_self forwards, g.root_eq_self (same ▸ forwards)]
    | some j => rw [f.root_eq_root forwards, g.root_eq_root (same ▸ forwards), ih j forwards]

private theorem root_merge {source : Nat} (ends : parent f.nodes source = none)
    (inside : source < f.nodes.size) (target i : Nat) :
    (f.merge source target).root i = if f.root i = source then f.root target else f.root i := by
  rw [merge]
  split
  case isTrue same => split <;> simp_all
  case isFalse apart =>
    let merged : Forest α := ⟨forward f.nodes source (f.root target), f.held,
      acyclic_forward f.acyclic apart (f.parent_root target)⟩
    have step : ∀ i, parent merged.nodes i = if source = i then some (f.root target) else parent f.nodes i := by
      intro i
      rw [parent_forward]
      split
      case isTrue here => rw [← here, Array.getElem?_eq_getElem inside, Option.map_some]
      case isFalse => rfl
    have target_ends : merged.root (f.root target) = f.root target := by
      apply merged.root_eq_self
      rw [step, if_neg apart]
      exact f.parent_root target
    change merged.root i = _
    induction i using f.acyclic.induction with
    | _ i ih =>
      by_cases here : source = i
      · subst here
        rw [merged.root_eq_root (by rw [step, if_pos rfl]), target_ends, if_pos (f.root_eq_self ends)]
      · cases forwards : parent f.nodes i with
        | none =>
          rw [f.root_eq_self forwards, if_neg (Ne.symm here),
            merged.root_eq_self (by rw [step, if_neg here, forwards])]
        | some j =>
          rw [f.root_eq_root forwards, merged.root_eq_root (by rw [step, if_neg here, forwards]),
            ih j forwards]

end Roots

/-- The store that a forest is seen as. -/
def flatten (f : Forest α) : Store α := ⟨f.nodes.map Node.toCell, f.held.map f.root⟩

section Flatten

variable (f : Forest α)

theorem cellOf_flatten (v : Variable) : f.flatten.cellOf v = f.rootOf v := by
  simp [Store.cellOf, flatten, rootOf]

theorem isLinked_flatten (v w : Variable) : f.flatten.isLinked v w = (f.rootOf v == f.rootOf w) := by
  rw [Store.isLinked, cellOf_flatten, cellOf_flatten]

theorem cell_flatten [Scalar α] (v : Variable) : f.flatten.cell v = f.cell v := by
  rw [Store.cell_eq, cellOf_flatten]
  simp [flatten, cell]

theorem root_lookUp (v : Variable) : (f.lookUp v).root = f.root := root_congr rfl

theorem root_hold (node : Nat) : (f.hold node).2.root = f.root := root_congr rfl

theorem root_grow (cell : Cell α) : (f.grow cell).root = f.root := root_congr (parent_push f.nodes cell)

theorem root_change (i : Nat) (g : Cell α → Cell α) : (f.change i g).root = f.root :=
  root_congr (parent_modify f.nodes i g)

theorem flatten_lookUp (v : Variable) : (f.lookUp v).flatten = f.flatten := by
  apply congrArg₂ Store.mk rfl
  apply Array.ext_getElem?
  intro i
  rw [root_lookUp]
  simp only [lookUp, Array.getElem?_map, Array.getElem?_modify]
  split
  · rw [Option.map_map]
    congr 1
    funext j
    exact f.root_root j
  · rfl

theorem rootOf_lookUp (v w : Variable) : (f.lookUp v).rootOf w = f.rootOf w := by
  rw [← cellOf_flatten, ← cellOf_flatten, flatten_lookUp]

private theorem cell_lookUp [Scalar α] (v w : Variable) : (f.lookUp v).cell w = f.cell w := by
  rw [← cell_flatten, ← cell_flatten, flatten_lookUp]

theorem flatten_hold (node : Nat) :
    (f.hold node).2.flatten = ⟨f.flatten.cells, f.flatten.named.push (f.root node)⟩ := by
  rw [flatten, root_hold]
  simp [flatten, hold]

theorem parent_size : parent f.nodes f.nodes.size = none := by
  simp [parent]

theorem flatten_fresh (cell : Cell α) :
    (f.fresh cell).2.flatten =
      ⟨f.flatten.cells.push cell, f.flatten.named.push f.flatten.cells.size⟩ := by
  rw [fresh, flatten_hold, root_grow, f.root_eq_self f.parent_size, flatten, root_grow]
  simp [flatten, grow]

theorem flatten_change (i : Nat) (g : Cell α → Cell α) :
    (f.change i g).flatten = f.flatten.updateCell i g := by
  rw [flatten, root_change]
  refine Store.ext_getElem? rfl fun j => ?_
  rw [Store.getElem?_updateCell]
  simp only [flatten, change, Array.getElem?_map, Array.getElem?_modify]
  split
  · rw [Option.map_map, Option.map_map]
    rfl
  · rfl

end Flatten

/-- All nodes that are held or merged into are there. -/
structure Closed (f : Forest α) : Prop where
  held : ∀ i ∈ f.held, i < f.nodes.size
  merged : ∀ i j, parent f.nodes i = some j → j < f.nodes.size

namespace Closed

variable {f : Forest α}

theorem root_lt (closed : Closed f) {i : Nat} (inside : i < f.nodes.size) : f.root i < f.nodes.size := by
  induction i using f.acyclic.induction with
  | _ i ih =>
    cases forwards : parent f.nodes i with
    | none =>
      rw [f.root_eq_self forwards]
      exact inside
    | some j =>
      rw [f.root_eq_root forwards]
      exact ih j forwards (closed.merged i j forwards)

theorem rootOf_lt (closed : Closed f) {v : Variable} (old : v.index < f.held.size) :
    f.rootOf v < f.nodes.size := by
  have held : f.rootOf v = f.root f.held[v.index] := by simp [rootOf, old]
  rw [held]
  exact closed.root_lt (closed.held _ (Array.getElem_mem old))

end Closed

theorem parent_rootOf (f : Forest α) {v : Variable} (old : v.index < f.held.size) :
    parent f.nodes (f.rootOf v) = none := by
  have held : f.rootOf v = f.root f.held[v.index] := by simp [rootOf, old]
  rw [held]
  exact f.parent_root _

/-- `g` came from `f`: nothing is lost, and what led to the root of a variable still does. -/
structure Continues (f g : Forest α) : Prop where
  nodes : f.nodes.size ≤ g.nodes.size
  held : f.held.size ≤ g.held.size
  same : ∀ i v, i < f.nodes.size → v.index < f.held.size → f.root i = f.rootOf v → g.root i = g.rootOf v

namespace Continues

variable {f g h : Forest α}

theorem refl (f : Forest α) : Continues f f := ⟨Nat.le_refl _, Nat.le_refl _, fun _ _ _ _ same => same⟩

theorem trans (first : Continues f g) (second : Continues g h) : Continues f h where
  nodes := Nat.le_trans first.nodes second.nodes
  held := Nat.le_trans first.held second.held
  same i v inside old leads := second.same i v (Nat.lt_of_lt_of_le inside first.nodes)
    (Nat.lt_of_lt_of_le old first.held) (first.same i v inside old leads)

end Continues

section Steps

variable {f : Forest α}

theorem closed_lookUp (closed : Closed f) (v : Variable) : Closed (f.lookUp v) where
  held i member := by
    obtain ⟨j, inside, rfl⟩ := Array.getElem_of_mem member
    simp only [lookUp, Array.size_modify] at inside
    simp only [lookUp, Array.getElem_modify]
    split
    · exact closed.root_lt (closed.held _ (Array.getElem_mem inside))
    · exact closed.held _ (Array.getElem_mem inside)
  merged := closed.merged

theorem continues_lookUp (v : Variable) : Continues f (f.lookUp v) where
  nodes := Nat.le_refl _
  held := by simp [lookUp]
  same i w _ _ leads := by
    rw [rootOf_lookUp, ← leads, root_lookUp]

theorem closed_hold (closed : Closed f) {node : Nat} (inside : node < f.nodes.size) :
    Closed (f.hold node).2 where
  held i member := by
    rcases Array.mem_push.mp member with old | rfl
    · exact closed.held i old
    · exact inside
  merged := closed.merged

private theorem rootOf_hold (node : Nat) {v : Variable} (old : v.index < f.held.size) :
    (f.hold node).2.rootOf v = f.rootOf v := by
  have size : v.index < f.flatten.named.size := by simpa [flatten] using old
  rw [← cellOf_flatten, flatten_hold, Store.cellOf_push _ size, ← cellOf_flatten]

theorem continues_hold (node : Nat) : Continues f (f.hold node).2 where
  nodes := Nat.le_refl _
  held := by simp [hold]
  same i v _ old leads := by
    rw [rootOf_hold node old, ← leads, root_hold]

theorem closed_grow (closed : Closed f) (cell : Cell α) : Closed (f.grow cell) where
  held i member := by
    rw [grow, Array.size_push]
    exact Nat.lt_succ_of_lt (closed.held i member)
  merged i j forwards := by
    rw [grow, parent_push] at forwards
    rw [grow, Array.size_push]
    exact Nat.lt_succ_of_lt (closed.merged i j forwards)

theorem continues_grow (cell : Cell α) : Continues f (f.grow cell) where
  nodes := by simp [grow]
  held := Nat.le_refl _
  same i v _ _ leads := by
    rw [rootOf, root_grow]
    exact leads

theorem closed_change (closed : Closed f) (i : Nat) (g : Cell α → Cell α) : Closed (f.change i g) where
  held j member := by
    rw [change, Array.size_modify]
    exact closed.held j member
  merged j k forwards := by
    rw [change, parent_modify] at forwards
    rw [change, Array.size_modify]
    exact closed.merged j k forwards

theorem continues_change (i : Nat) (g : Cell α → Cell α) : Continues f (f.change i g) where
  nodes := by simp [change]
  held := Nat.le_refl _
  same j v _ _ leads := by
    rw [rootOf, root_change]
    exact leads

/-- Merge the root of a variable into another root, which the variable holds from then on. -/
def redirect (f : Forest α) (v : Variable) (target : Nat) : Forest α :=
  { f.merge (f.rootOf v) target with held := f.held.modify v.index fun _ => target }

variable {v : Variable} {target : Nat}

theorem root_redirect (closed : Closed f) (old : v.index < f.held.size) (i : Nat) :
    (f.redirect v target).root i = if f.root i = f.rootOf v then f.root target else f.root i := by
  have same : (f.redirect v target).root = (f.merge (f.rootOf v) target).root := root_congr rfl
  rw [same, root_merge (f.parent_rootOf old) (closed.rootOf_lt old)]

theorem flatten_redirect (closed : Closed f) (old : v.index < f.held.size)
    (ends : f.root target = target) :
    (f.redirect v target).flatten = f.flatten.rename (f.rootOf v) target := by
  have held : f.rootOf v = f.root f.held[v.index] := by simp [rootOf, old]
  have cells : (f.redirect v target).nodes.map Node.toCell = f.nodes.map Node.toCell := by
    apply Array.ext_getElem?
    intro i
    simp only [redirect, merge]
    split
    · rfl
    · simp only [forward, Array.getElem?_map, Array.getElem?_modify]
      split
      · rw [Option.map_map]
        rfl
      · rfl
  have named : (f.redirect v target).held.map (f.redirect v target).root =
      (f.held.map f.root).map fun cell => if cell = f.rootOf v then target else cell := by
    apply Array.ext_getElem?
    intro i
    simp only [Array.getElem?_map, redirect, Array.getElem?_modify, Option.map_map]
    split
    case isTrue here =>
      subst here
      have self : (f.redirect v target).root target = target := by
        rw [root_redirect closed old, ends]
        split <;> rfl
      have renamed : (fun cell => if cell = f.rootOf v then target else cell) (f.root f.held[v.index]) =
          target := if_pos held.symm
      rw [Array.getElem?_eq_getElem old]
      exact congrArg some (self.trans renamed.symm)
    case isFalse =>
      congr 1
      funext j
      have moved : (f.redirect v target).root j = _ := root_redirect closed old j
      rw [ends] at moved
      exact moved
  exact congrArg₂ Store.mk cells named

theorem size_redirect : (f.redirect v target).nodes.size = f.nodes.size ∧
    (f.redirect v target).held.size = f.held.size := by
  constructor
  · simp only [redirect, merge]
    split
    · rfl
    · exact Array.size_modify
  · exact Array.size_modify

private theorem closed_redirect (closed : Closed f) (inside : target < f.nodes.size)
    (ends : f.root target = target) :
    Closed (f.redirect v target) where
  held i member := by
    rw [size_redirect.1]
    obtain ⟨j, within, rfl⟩ := Array.getElem_of_mem member
    simp only [redirect, Array.size_modify] at within
    simp only [redirect, Array.getElem_modify]
    split
    · exact inside
    · exact closed.held _ (Array.getElem_mem within)
  merged i j forwards := by
    rw [size_redirect.1]
    simp only [redirect, merge] at forwards
    split at forwards
    · exact closed.merged i j forwards
    · rw [parent_forward] at forwards
      split at forwards
      · obtain ⟨_, -, rfl⟩ := Option.map_eq_some_iff.mp forwards
        rw [ends]
        exact inside
      · exact closed.merged i j forwards

private theorem continues_redirect (closed : Closed f) (old : v.index < f.held.size)
    (ends : f.root target = target) : Continues f (f.redirect v target) where
  nodes := Nat.le_of_eq size_redirect.1.symm
  held := Nat.le_of_eq size_redirect.2.symm
  same i x _ known leads := by
    have size : x.index < f.flatten.named.size := by simpa [flatten] using known
    have renamed : (f.redirect v target).rootOf x =
        if f.rootOf x = f.rootOf v then target else f.rootOf x := by
      rw [← cellOf_flatten, flatten_redirect closed old ends, Store.cellOf_rename _ size,
        cellOf_flatten]
    rw [root_redirect closed old, renamed, leads, ends]

end Steps

section Link

variable [Scalar α]

/-- The forest in which the root of `w` has taken over what only `v` holds constant. -/
def keep (f : Forest α) (v w : Variable) : Forest α :=
  if (f.cell v).constant && !(f.cell w).constant then
    f.change (f.rootOf w) fun _ => ⟨(f.cell v).value, true⟩
  else f

theorem link_eq (f : Forest α) (v w : Variable) :
    f.link v w = if f.rootOf v = f.rootOf w then (f.lookUp v).lookUp w
      else (((f.lookUp v).lookUp w).keep v w).redirect v (f.rootOf w) := by
  have root : (((f.lookUp v).lookUp w).keep v w).rootOf v = f.rootOf v := by
    rw [keep]
    split
    · rw [rootOf, root_change]
      exact (rootOf_lookUp _ w v).trans (f.rootOf_lookUp v v)
    · exact (rootOf_lookUp _ w v).trans (f.rootOf_lookUp v v)
  rw [link, redirect, root]
  simp only [rootOf_lookUp, keep, cell_lookUp]
  split
  · rfl
  · split <;> rfl

variable {f : Forest α} {v w : Variable}

private theorem flatten_keep : (f.keep v w).flatten =
    if f.flatten.isConstant v && !f.flatten.isConstant w then
      (f.flatten.setValue w (f.flatten.value v)).setConstant w true else f.flatten := by
  simp only [keep, Store.isConstant, Store.value, cell_flatten]
  split
  · rw [flatten_change, ← cellOf_flatten]
    change _ = (f.flatten.updateCell (f.flatten.cellOf w) _).updateCell (f.flatten.cellOf w) _
    rw [Store.updateCell_updateCell]
    rfl
  · rfl

private theorem keep_cases (motive : Forest α → Prop) (same : motive f)
    (changed : ∀ i g, motive (f.change i g)) : motive (f.keep v w) := by
  rw [keep]
  split
  · exact changed _ _
  · exact same

/-- What a link needs of the forest it starts from, after both variables have been looked up. -/
theorem link_steps (closed : Closed f) (first : v.index < f.held.size) (second : w.index < f.held.size) :
    let g := ((f.lookUp v).lookUp w).keep v w
    Closed g ∧ Continues f g ∧ v.index < g.held.size ∧ f.rootOf w < g.nodes.size ∧
      g.root (f.rootOf w) = f.rootOf w ∧ g.rootOf v = f.rootOf v := by
  intro g
  have seen : Closed ((f.lookUp v).lookUp w) := closed_lookUp (closed_lookUp closed v) w
  have went : Continues f ((f.lookUp v).lookUp w) := (continues_lookUp v).trans (continues_lookUp w)
  have closed_g : Closed g := keep_cases Closed seen (closed_change seen)
  have continues_g : Continues f g :=
    keep_cases (Continues f) went fun i h => went.trans (continues_change i h)
  have root : g.root = f.root := by
    have looked : ((f.lookUp v).lookUp w).root = f.root := by rw [root_lookUp, root_lookUp]
    exact keep_cases (fun g => g.root = f.root) looked fun i h => (root_change _ i h).trans looked
  have rootOf : g.rootOf v = f.rootOf v := by
    have looked : ((f.lookUp v).lookUp w).rootOf v = f.rootOf v := by rw [rootOf_lookUp, rootOf_lookUp]
    apply keep_cases (fun g => g.rootOf v = f.rootOf v) looked
    intro i h
    rw [Forest.rootOf, root_change]
    exact looked
  refine ⟨closed_g, continues_g, Nat.lt_of_lt_of_le first continues_g.held,
    Nat.lt_of_lt_of_le (closed.rootOf_lt second) continues_g.nodes, ?_, rootOf⟩
  rw [root]
  exact f.root_eq_self (f.parent_rootOf second)

theorem closed_link (closed : Closed f) (first : v.index < f.held.size) (second : w.index < f.held.size) :
    Closed (f.link v w) := by
  obtain ⟨closed_g, _, _, inside, ends, _⟩ := link_steps closed first second
  rw [link_eq]
  split
  · exact closed_lookUp (closed_lookUp closed v) w
  · exact closed_redirect closed_g inside ends

theorem continues_link (closed : Closed f) (first : v.index < f.held.size)
    (second : w.index < f.held.size) : Continues f (f.link v w) := by
  obtain ⟨closed_g, continues_g, old, _, ends, _⟩ := link_steps closed first second
  rw [link_eq]
  split
  · exact (continues_lookUp v).trans (continues_lookUp w)
  · exact continues_g.trans (continues_redirect closed_g old ends)

theorem flatten_link (closed : Closed f) (first : v.index < f.held.size) (second : w.index < f.held.size) :
    (f.link v w).flatten = f.flatten.link v w := by
  obtain ⟨closed_g, _, old, _, ends, own⟩ := link_steps closed first second
  rw [link_eq, Store.link]
  simp only [Store.isLinked_iff, cellOf_flatten]
  split
  · rw [flatten_lookUp, flatten_lookUp]
  · rw [flatten_redirect closed_g old ends, own, flatten_keep, flatten_lookUp, flatten_lookUp]

end Link

end PlaneSketch.Forest
