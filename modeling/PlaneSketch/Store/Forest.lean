import PlaneSketch.Store

/-! Variables over a forest of cells. Linking lets the root of one cell forward to the root of the
other, and only roots are read and written; a variable that is looked up remembers the root that was
found. A `Store` keeps of a forest which root each variable leads to. -/
namespace PlaneSketch

structure Node (α : Type) extends Cell α where
  /-- The node that this one was merged into. -/
  mergedInto : Option Nat

namespace Forest

variable {α : Type}

def parent (nodes : Array (Node α)) (i : Nat) : Option Nat := (nodes[i]?).bind Node.mergedInto

/-- No node is merged into itself on whatever way. -/
def Acyclic (nodes : Array (Node α)) : Prop := WellFounded fun j i => parent nodes i = some j

theorem acyclic_empty : Acyclic (#[] : Array (Node α)) :=
  ⟨fun _ => ⟨_, fun _ forwards => by cases forwards⟩⟩

theorem parent_push (nodes : Array (Node α)) (cell : Cell α) :
    parent (nodes.push ⟨cell, none⟩) = parent nodes := by
  funext i
  rw [parent, parent, Array.getElem?_push]
  split
  case isTrue last => simp [last]
  case isFalse => rfl

theorem parent_modify (nodes : Array (Node α)) (i : Nat) (f : Cell α → Cell α) :
    parent (nodes.modify i fun node => { node with toCell := f node.toCell }) = parent nodes := by
  funext j
  rw [parent, parent, Array.getElem?_modify]
  split
  · rw [Option.bind_map]
    rfl
  · rfl

def forward (nodes : Array (Node α)) (source target : Nat) : Array (Node α) :=
  nodes.modify source fun node => { node with mergedInto := some target }

theorem parent_forward (nodes : Array (Node α)) (source target i : Nat) :
    parent (forward nodes source target) i =
      if source = i then (nodes[i]?).map fun _ => target else parent nodes i := by
  rw [parent, parent, forward, Array.getElem?_modify]
  split
  · cases nodes[i]? <;> rfl
  · rfl

theorem acyclic_forward {nodes : Array (Node α)} (acyclic : Acyclic nodes) {source target : Nat}
    (apart : source ≠ target) (root : parent nodes target = none) :
    Acyclic (forward nodes source target) := by
  have target_ends : Acc (fun j i => parent (forward nodes source target) i = some j) target := by
    refine ⟨_, fun j forwards => ?_⟩
    rw [parent_forward, if_neg apart, root] at forwards
    cases forwards
  refine ⟨fun i => ?_⟩
  induction i using acyclic.induction with
  | _ i ih =>
    refine ⟨_, fun j forwards => ?_⟩
    rw [parent_forward] at forwards
    split at forwards
    · obtain ⟨_, -, rfl⟩ := Option.map_eq_some_iff.mp forwards
      exact target_ends
    · exact ih j forwards

end Forest

structure Forest (α : Type) where
  nodes : Array (Node α)
  /-- The node that each variable was last seen to hold. -/
  held : Array Nat
  acyclic : Forest.Acyclic nodes

namespace Forest

variable {α : Type}

def empty : Forest α := ⟨#[], #[], acyclic_empty⟩

/-- Follow the merges from a node up to where they end. -/
def root (f : Forest α) (i : Nat) : Nat :=
  match _forwards : parent f.nodes i with
  | none => i
  | some j => f.root j
termination_by f.acyclic.wrap i
decreasing_by exact _forwards

def rootOf (f : Forest α) (v : Variable) : Nat := ((f.held[v.index]?).map f.root).getD 0

/-- Look a variable up; it holds the root from now on. -/
def lookUp (f : Forest α) (v : Variable) : Forest α :=
  { f with held := f.held.modify v.index f.root }

def hold (f : Forest α) (node : Nat) : Variable × Forest α :=
  (⟨f.held.size⟩, { f with held := f.held.push node })

def grow (f : Forest α) (cell : Cell α) : Forest α where
  nodes := f.nodes.push ⟨cell, none⟩
  held := f.held
  acyclic := by
    rw [Acyclic, parent_push]
    exact f.acyclic

def fresh (f : Forest α) (cell : Cell α) : Variable × Forest α := (f.grow cell).hold f.nodes.size

def change (f : Forest α) (i : Nat) (g : Cell α → Cell α) : Forest α where
  nodes := f.nodes.modify i fun node => { node with toCell := g node.toCell }
  held := f.held
  acyclic := by
    rw [Acyclic, parent_modify]
    exact f.acyclic

theorem parent_root (f : Forest α) (i : Nat) : parent f.nodes (f.root i) = none := by
  induction i using f.acyclic.induction with
  | _ i ih =>
    rw [root]
    split
    case h_1 ends => exact ends
    case h_2 j forwards => exact ih j forwards

/-- Merge a root into the root of another node, unless it is the same one. -/
def merge (f : Forest α) (source target : Nat) : Forest α :=
  if apart : source = f.root target then f
  else ⟨forward f.nodes source (f.root target), f.held, acyclic_forward f.acyclic apart (f.parent_root target)⟩

variable [Scalar α]

/-- The contents of the root that a variable leads to. -/
def cell (f : Forest α) (v : Variable) : Cell α :=
  ((f.nodes[f.rootOf v]?).map Node.toCell).getD ⟨0, false⟩

/-- Merge the root of `v` into that of `w`, which takes over a value that only `v` holds constant. -/
def link (f : Forest α) (v w : Variable) : Forest α :=
  let f := (f.lookUp v).lookUp w
  let target := f.rootOf w
  if f.rootOf v = target then f
  else
    let kept := if (f.cell v).constant && !(f.cell w).constant then
      f.change target fun _ => ⟨(f.cell v).value, true⟩ else f
    { kept.merge (f.rootOf v) target with held := f.held.modify v.index fun _ => target }

def copy (f : Forest α) (v : Variable) : Variable × Forest α := (f.lookUp v).fresh (f.cell v)

end Forest

end PlaneSketch
