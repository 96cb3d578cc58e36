import PlaneSketch.Proofs.Store.Forest

/-! Programs over a forest and over a store. Act by act, the store stays what the forest is seen as;
so linked variables are one partition in the forest as well, and each way in it ends at one root. -/
namespace PlaneSketch

namespace Forest

variable {α : Type} {f : Forest α}

theorem closed_fresh (closed : Closed f) (cell : Cell α) : Closed (f.fresh cell).2 :=
  closed_hold (closed_grow closed cell) (by simp [grow])

theorem continues_fresh (cell : Cell α) : Continues f (f.fresh cell).2 :=
  (continues_grow cell).trans (continues_hold _)

structure Entry.Leads (f : Forest α) (entry : Entry) : Prop where
  node : entry.node < f.nodes.size
  first : entry.first.index < f.held.size
  same : f.root entry.node = f.rootOf entry.first

theorem Entry.Leads.onward {g : Forest α} {entry : Entry} (leads : entry.Leads f)
    (continues : Continues f g) : entry.Leads g where
  node := Nat.lt_of_lt_of_le leads.node continues.nodes
  first := Nat.lt_of_lt_of_le leads.first continues.held
  same := continues.same _ _ leads.node leads.first leads.same

private theorem leads_fresh (source : Nat) (cell : Cell α) :
    Entry.Leads (f.fresh cell).2 ⟨source, f.nodes.size, (f.fresh cell).1⟩ where
  node := by simp [fresh, hold, grow]
  first := by simp [fresh, hold, grow]
  same := by
    have size : (f.fresh cell).1 = ⟨f.flatten.named.size⟩ := by simp [fresh, hold, grow, flatten]
    have own : (f.fresh cell).2.root f.nodes.size = f.nodes.size := by
      rw [fresh, root_hold, root_grow]
      exact f.root_eq_self f.parent_size
    rw [own, ← cellOf_flatten, flatten_fresh, size, Store.cellOf_push_last]
    simp [flatten]

end Forest

namespace Workspace

open Forest (Entry Closed Continues)

variable {α : Type}

def flatten (w : Workspace (Forest α) Entry) : Workspace (Store α) (Nat × Variable) where
  vars := w.vars.flatten
  handles := w.handles
  maps map := (w.maps map).map fun entry => (entry.source, entry.first)
  joined := w.joined

/-- What holds of a forest at any time: handles and link maps only refer to what is there. -/
structure Rooted (w : Workspace (Forest α) Entry) : Prop where
  closed : w.vars.Closed
  handles : ∀ v ∈ w.handles, v.index < w.vars.held.size
  entries : ∀ map, ∀ entry ∈ w.maps map, entry.Leads w.vars

variable {w : Workspace (Forest α) Entry}

namespace Rooted

theorem onward (rooted : Rooted w) {f : Forest α} (closed : Closed f) (continues : Continues w.vars f)
    (joined : List (Variable × Variable)) : Rooted { w with vars := f, joined } where
  closed := closed
  handles v member := Nat.lt_of_lt_of_le (rooted.handles v member) continues.held
  entries map entry member := (rooted.entries map entry member).onward continues

theorem addHandle (rooted : Rooted w) {v : Variable} (old : v.index < w.vars.held.size) :
    Rooted { w with handles := w.handles ++ [v] } where
  closed := rooted.closed
  handles x member := by
    rcases List.mem_append.mp member with earlier | last
    · exact rooted.handles x earlier
    · cases List.mem_singleton.mp last
      exact old
  entries := rooted.entries

private theorem addEntry (rooted : Rooted w) (map : Nat) {entries : List Entry}
    (leads : ∀ entry ∈ entries, entry.Leads w.vars) :
    Rooted { w with maps := fun other => if other = map then entries else w.maps other } where
  closed := rooted.closed
  handles := rooted.handles
  entries other entry member := by
    change entry ∈ if other = map then entries else w.maps other at member
    split at member
    · exact leads entry member
    · exact rooted.entries other entry member

end Rooted

variable [Scalar α]

theorem copyThrough_of_some {v : Variable} {entries : List Entry} {f : Forest α} {entry : Entry}
    (known : (entries.find? fun entry => entry.source == f.rootOf v) = some entry) :
    f.copyThrough entries v =
      ⟨((f.lookUp v).hold entry.node).1, some entry.first, entries, ((f.lookUp v).hold entry.node).2⟩ := by
  rw [Forest.copyThrough, known]

theorem copyThrough_of_none {v : Variable} {entries : List Entry} {f : Forest α}
    (unknown : (entries.find? fun entry => entry.source == f.rootOf v) = none) :
    f.copyThrough entries v =
      ⟨(f.copy v).1, none, entries ++ [⟨f.rootOf v, f.nodes.size, (f.copy v).1⟩], (f.copy v).2⟩ := by
  rw [Forest.copyThrough, unknown]

private theorem rooted_copyThrough (rooted : Rooted w) (map a : Nat) :
    Rooted (w.step (.copyThrough map a)) := by
  rw [step]
  split
  case h_1 v found =>
    have seen := Forest.closed_lookUp rooted.closed v
    cases known : (w.maps map).find? fun entry => entry.source == w.vars.rootOf v with
    | some entry =>
      have leads := rooted.entries map entry (List.mem_of_find?_eq_some known)
      have further : Continues w.vars ((w.vars.lookUp v).hold entry.node).2 :=
        (Forest.continues_lookUp v).trans (Forest.continues_hold entry.node)
      have grown := rooted.onward (Forest.closed_hold seen leads.node) further w.joined
      have held := grown.addHandle (v := ⟨w.vars.held.size⟩) (by simp [Forest.hold, Forest.lookUp])
      have shared := held.addEntry map fun entry member =>
        (rooted.entries map entry member).onward further
      simp only [Keeping.copyThrough, copyThrough_of_some known]
      exact ⟨shared.closed, by simpa [Forest.hold, Forest.lookUp] using shared.handles, shared.entries⟩
    | none =>
      have further : Continues w.vars (w.vars.copy v).2 :=
        (Forest.continues_lookUp v).trans (Forest.continues_fresh (w.vars.cell v))
      have grown := rooted.onward (Forest.closed_fresh seen (w.vars.cell v)) further w.joined
      have held := grown.addHandle (v := (w.vars.copy v).1) (by simp [Forest.copy, Forest.fresh, Forest.hold, Forest.grow])
      simp only [Keeping.copyThrough, copyThrough_of_none known, Option.toList_none, List.map_nil,
        List.append_nil]
      apply held.addEntry map
      intro entry member
      rcases List.mem_append.mp member with old | last
      · exact (rooted.entries map entry old).onward further
      · cases List.mem_singleton.mp last
        exact Forest.leads_fresh _ _
  case h_2 => exact rooted

private theorem rooted_step (rooted : Rooted w) (act : Act α) : Rooted (w.step act) := by
  cases act with
  | create cell =>
    have grown := rooted.onward (Forest.closed_fresh rooted.closed cell) (Forest.continues_fresh cell) w.joined
    exact grown.addHandle (by simp [Forest.fresh, Forest.hold, Forest.grow])
  | clone a =>
    rw [step]
    cases found : w.handles[a]? with
    | none => simpa using rooted
    | some v => exact rooted.addHandle (rooted.handles v (List.mem_of_getElem? found))
  | link a b =>
    rw [step]
    split
    case h_1 v u first second =>
      have oldV := rooted.handles v (List.mem_of_getElem? first)
      have oldU := rooted.handles u (List.mem_of_getElem? second)
      exact rooted.onward (Forest.closed_link rooted.closed oldV oldU)
        (Forest.continues_link rooted.closed oldV oldU) _
    case h_2 => exact rooted
  | copy a =>
    rw [step]
    split
    case h_1 v found =>
      have grown := rooted.onward
        (Forest.closed_fresh (Forest.closed_lookUp rooted.closed v) (w.vars.cell v))
        ((Forest.continues_lookUp v).trans (Forest.continues_fresh (w.vars.cell v))) w.joined
      exact grown.addHandle (by simp [Forest.fresh, Forest.hold, Forest.grow])
    case h_2 => exact rooted
  | copyThrough map a => exact rooted_copyThrough rooted map a
  | write a write =>
    rw [step]
    split
    case h_1 v found =>
      exact rooted.onward (Forest.closed_change (Forest.closed_lookUp rooted.closed v) _ _)
        ((Forest.continues_lookUp v).trans (Forest.continues_change _ _)) _
    case h_2 => exact rooted
  | read a =>
    rw [step]
    split
    case h_1 v found =>
      exact rooted.onward (Forest.closed_lookUp rooted.closed v) (Forest.continues_lookUp v) _
    case h_2 => exact rooted

theorem fresh_flatten (f : Forest α) (cell : Cell α) :
    Keeping.fresh f.flatten cell = ((f.fresh cell).1, (f.fresh cell).2.flatten) := by
  rw [Forest.flatten_fresh]
  have size : f.flatten.named.size = f.held.size := by simp [Forest.flatten]
  change ((⟨f.flatten.named.size⟩, _) : Variable × Store α) = _
  rw [size]
  rfl

private theorem copy_flatten (f : Forest α) (v : Variable) :
    Keeping.copy f.flatten v = ((f.copy v).1, (f.copy v).2.flatten) := by
  have copied : (f.copy v) = (f.lookUp v).fresh (f.cell v) := rfl
  rw [copied, ← fresh_flatten, Forest.flatten_lookUp, ← Forest.cell_flatten]
  rfl

private theorem copyThrough_flatten {f : Forest α} {entries : List Entry}
    (leads : ∀ entry ∈ entries, entry.Leads f) (v : Variable) :
    f.flatten.copyThrough (entries.map fun entry => (entry.source, entry.first)) v =
      ⟨(f.copyThrough entries v).copied, (f.copyThrough entries v).sharing,
        (f.copyThrough entries v).entries.map fun entry => (entry.source, entry.first),
        (f.copyThrough entries v).vars.flatten⟩ := by
  have size : f.flatten.named.size = f.held.size := by simp [Forest.flatten]
  rw [Store.copyThrough_eq, List.find?_map, Forest.cellOf_flatten]
  simp only [Function.comp_def]
  cases known : entries.find? fun entry => entry.source == f.rootOf v with
  | some entry =>
    have same := (leads entry (List.mem_of_find?_eq_some known)).same
    rw [copyThrough_of_some known, Forest.flatten_hold, Forest.flatten_lookUp, Forest.root_lookUp, same,
      size]
    simp [Forest.hold, Forest.lookUp, Forest.cellOf_flatten]
  | none =>
    have copied : (f.copy v) = (f.lookUp v).fresh (f.cell v) := rfl
    rw [copyThrough_of_none known, copied, Forest.flatten_fresh, Forest.flatten_lookUp, size,
      Forest.cell_flatten]
    simp [Forest.fresh, Forest.hold, Forest.grow, Forest.lookUp]

/-- An act on the forest is the same act on the store it is seen as. -/
theorem flatten_step (rooted : Rooted w) (act : Act α) : (w.step act).flatten = w.flatten.step act := by
  cases act with
  | create cell =>
    simp only [step, flatten, fresh_flatten]
    rfl
  | clone a => rfl
  | link a b =>
    simp only [step, flatten]
    split
    case h_1 v u first second =>
      have oldV := rooted.handles v (List.mem_of_getElem? first)
      have oldU := rooted.handles u (List.mem_of_getElem? second)
      simp only [Keeping.link, Forest.flatten_link rooted.closed oldV oldU]
    case h_2 => rfl
  | copy a =>
    simp only [step, flatten]
    split
    case h_1 v found =>
      simp only [copy_flatten]
      rfl
    case h_2 => rfl
  | copyThrough map a =>
    simp only [step, flatten]
    split
    case h_1 v found =>
      have made := copyThrough_flatten (rooted.entries map) v
      simp only [Keeping.copyThrough, made, Workspace.mk.injEq, true_and, and_true]
      funext other
      split <;> rfl
    case h_2 => rfl
  | write a write =>
    simp only [step, flatten]
    split
    case h_1 v found =>
      simp only [Keeping.write, Store.write_eq, Forest.flatten_change, Forest.flatten_lookUp,
        Forest.cellOf_flatten]
    case h_2 => rfl
  | read a =>
    simp only [step, flatten]
    split
    case h_1 v found => simp only [Keeping.read, Forest.flatten_lookUp]
    case h_2 => rfl

private theorem rooted_start : Rooted (start : Workspace (Forest α) Entry) where
  closed := ⟨fun _ member => absurd member (by simp [start, Keeping.blank, Forest.empty]),
    fun _ _ forwards => by simp [start, Keeping.blank, Forest.empty, Forest.parent] at forwards⟩
  handles _ member := absurd member List.not_mem_nil
  entries _ _ member := absurd member List.not_mem_nil

private theorem flatten_start : (start : Workspace (Forest α) Entry).flatten = start := by
  simp [flatten, start, Keeping.blank, Forest.flatten, Forest.empty, Store.empty]

/-- Whatever a program has done, the store it would have is what its forest is seen as. -/
theorem rooted_run (acts : List (Act α)) :
    Rooted (start.run acts : Workspace (Forest α) Entry) ∧
      (start.run acts : Workspace (Forest α) Entry).flatten = start.run acts := by
  have steps : ∀ (acts : List (Act α)) (w : Workspace (Forest α) Entry), Rooted w →
      Rooted (w.run acts) ∧ (w.run acts).flatten = w.flatten.run acts := by
    intro acts
    induction acts with
    | nil => exact fun w rooted => ⟨rooted, rfl⟩
    | cons act acts ih =>
      intro w rooted
      obtain ⟨later, same⟩ := ih (w.step act) (rooted_step rooted act)
      rw [flatten_step rooted] at same
      exact ⟨later, same⟩
  obtain ⟨rooted, same⟩ := steps acts start rooted_start
  rw [flatten_start] at same
  exact ⟨rooted, same⟩

section Views

variable {f g : Forest α} {handles : List Variable}

theorem cell_keeping (f : Forest α) (v : Variable) : Keeping.cell f v = Keeping.cell f.flatten v :=
  (f.cell_flatten v).symm

theorem linked_keeping (f : Forest α) (v u : Variable) :
    Keeping.linked f v u = Keeping.linked f.flatten v u :=
  (f.isLinked_flatten v u).symm

private theorem partition_of_flatten (rooted : Rooted w) (partition : Partition w.flatten) : Partition w := by
  have step := fun act => congrArg Workspace.vars (flatten_step rooted act)
  refine ⟨?_, ?_, ?_, ?_, ?_, ?_⟩
  · intro x first y second
    rw [linked_keeping]
    exact partition.linked_iff x first y second
  · intro x first y second same
    rw [linked_keeping] at same
    rw [cell_keeping, cell_keeping _ y]
    exact partition.cell_eq x first y second same
  · intro a
    have shown := partition.read a
    rw [← step] at shown
    simp only [Unchanged, cell_keeping, linked_keeping]
    exact shown
  · intro a v write found
    have shown := partition.write a v write found
    rw [← step] at shown
    simp only [ClassWritten, cell_keeping, linked_keeping]
    exact shown
  · intro a b v u first second apart
    rw [linked_keeping] at apart
    have shown := partition.link a b v u first second apart
    rw [← step] at shown
    simp only [ClassesMerged, cell_keeping, linked_keeping]
    exact shown
  · intro a b v u first second same
    rw [linked_keeping] at same
    have shown := partition.relink a b v u first second same
    rw [← step] at shown
    simp only [Unchanged, cell_keeping, linked_keeping]
    exact shown

end Views

end Workspace

namespace Forest

variable {α : Type} {f : Forest α}

/-- Following the merges from what a variable holds ends at a node that is not merged. -/
def EndsAt (f : Forest α) (v : Variable) (r : Nat) : Prop :=
  ∃ i, f.held[v.index]? = some i ∧
    Relation.ReflTransGen (fun i j => parent f.nodes i = some j) i r ∧
    ∃ node, f.nodes[r]? = some node ∧ node.mergedInto = none

private theorem reaches_root (f : Forest α) (i : Nat) :
    Relation.ReflTransGen (fun i j => parent f.nodes i = some j) i (f.root i) := by
  induction i using f.acyclic.induction with
  | _ i ih =>
    cases forwards : parent f.nodes i with
    | none =>
      rw [f.root_eq_self forwards]
    | some j =>
      rw [f.root_eq_root forwards]
      exact .head forwards (ih j forwards)

private theorem root_of_reaches {i r : Nat}
    (reaches : Relation.ReflTransGen (fun i j => parent f.nodes i = some j) i r)
    (ends : parent f.nodes r = none) : r = f.root i := by
  induction reaches using Relation.ReflTransGen.head_induction_on with
  | refl => exact (f.root_eq_self ends).symm
  | head forwards _ ih => exact ih.trans (f.root_eq_root forwards).symm

/-- Every way ends, and at one root only. -/
private theorem Closed.existsUnique_endsAt (closed : Closed f) {v : Variable} (old : v.index < f.held.size) :
    ∃! r, f.EndsAt v r := by
  have held : f.held[v.index]? = some f.held[v.index] := Array.getElem?_eq_getElem old
  have inside : f.root f.held[v.index] < f.nodes.size :=
    closed.root_lt (closed.held _ (Array.getElem_mem old))
  refine ⟨f.root f.held[v.index], ⟨_, held, f.reaches_root _, _, Array.getElem?_eq_getElem inside, ?_⟩, ?_⟩
  · have ends := f.parent_root f.held[v.index]
    rw [parent, Array.getElem?_eq_getElem inside] at ends
    exact ends
  · rintro r ⟨i, found, reaches, node, present, root⟩
    cases held.symm.trans found
    apply root_of_reaches reaches
    rw [parent, present]
    exact root

end Forest

/-- After any acts in any order, each variable leads to one root, linked variables are the partition
that the links and shared copies make, and a store would show the same. -/
theorem Workspace.forest_partition {α : Type} [Scalar α] (acts : List (Act α)) :
    let w : Workspace (Forest α) Forest.Entry := Workspace.start.run acts
    (∀ v ∈ w.handles, ∃! r, w.vars.EndsAt v r) ∧ Partition w ∧
      w.flatten = (Workspace.start.run acts : Workspace (Store α) (Nat × Variable)) ∧ Partition w.flatten := by
  intro w
  obtain ⟨rooted, same⟩ := Workspace.rooted_run acts
  have partition : Partition w.flatten := by
    change Partition (Workspace.flatten (Workspace.start.run acts))
    rw [same]
    exact (Store.Kept.run acts).partition
  exact ⟨fun v member => rooted.closed.existsUnique_endsAt (rooted.handles v member),
    Workspace.partition_of_flatten rooted partition, same, partition⟩

end PlaneSketch
