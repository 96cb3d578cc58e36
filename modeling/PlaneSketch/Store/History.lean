import PlaneSketch.Store.Copy
import PlaneSketch.Store.Forest

/-! Everything a program can do with variables, act by act. The program has handles and link maps;
the variables behind them are kept in a store or in a forest. -/
namespace PlaneSketch

inductive Write (α : Type)
  | value (value : α)
  | shift (delta : α)
  | constant (constant : Bool)

def Write.apply {α : Type} [Scalar α] : Write α → Cell α → Cell α
  | .value x, cell => { cell with value := x }
  | .shift x, cell => { cell with value := cell.value + x }
  | .constant flag, cell => { cell with constant := flag }

/-- An act refers to handles and link maps by their numbers. -/
inductive Act (α : Type)
  | create (cell : Cell α)
  /-- Another handle of the same variable. -/
  | clone (a : Nat)
  | link (a b : Nat)
  | copy (a : Nat)
  /-- Copy through a link map: what is copied from one cell shares one cell. -/
  | copyThrough (map a : Nat)
  | write (a : Nat) (write : Write α)
  | read (a : Nat)

structure Copied (σ ε : Type) where
  copied : Variable
  /-- An earlier copy of the same cell, which the new one shares its cell with. -/
  sharing : Option Variable
  entries : List ε
  vars : σ

/-- A way to keep variables, with the entries of its link maps. -/
class Keeping (α : outParam Type) (σ : Type) (ε : outParam Type) where
  blank : σ
  fresh : σ → Cell α → Variable × σ
  link : σ → Variable → Variable → σ
  copy : σ → Variable → Variable × σ
  copyThrough : σ → List ε → Variable → Copied σ ε
  write : σ → Variable → Write α → σ
  read : σ → Variable → σ
  cell : σ → Variable → Cell α
  linked : σ → Variable → Variable → Bool

namespace Store

variable {α : Type} [Scalar α]

def write (s : Store α) (v : Variable) : Write α → Store α
  | .value x => s.setValue v x
  | .shift x => s.shift v x
  | .constant flag => s.setConstant v flag

def copyThrough (s : Store α) (copies : Copies) (v : Variable) : Copied (Store α) (Nat × Variable) :=
  let ((copied, entries), vars) := (copyAmong v).run copies s
  ⟨copied, (copies.find? fun entry => entry.1 == s.cellOf v).map Prod.snd, entries, vars⟩

instance : Keeping α (Store α) (Nat × Variable) where
  blank := empty
  fresh s cell := Store.fresh (m := Id) cell.value cell.constant s
  link := link
  copy s v := copy v s
  copyThrough := copyThrough
  write := write
  read s _ := s
  cell := cell
  linked := isLinked

end Store

namespace Forest

variable {α : Type} [Scalar α]

/-- What a link map remembers of a copied cell: its root at the time and the node of the copy. -/
structure Entry where
  source : Nat
  node : Nat
  /-- The variable that the copy was made for. -/
  first : Variable

def copyThrough (f : Forest α) (entries : List Entry) (v : Variable) : Copied (Forest α) Entry :=
  match entries.find? fun entry => entry.source == f.rootOf v with
  | some entry =>
    let (copied, vars) := (f.lookUp v).hold entry.node
    ⟨copied, some entry.first, entries, vars⟩
  | none =>
    let (copied, vars) := f.copy v
    ⟨copied, none, entries ++ [⟨f.rootOf v, f.nodes.size, copied⟩], vars⟩

instance : Keeping α (Forest α) Entry where
  blank := empty
  fresh := fresh
  link := link
  copy := copy
  copyThrough := copyThrough
  write f v write := (f.lookUp v).change (f.rootOf v) write.apply
  read := lookUp
  cell := cell
  linked f v w := f.rootOf v == f.rootOf w

end Forest

inductive Touch (α : Type)
  | write (v : Variable) (write : Write α)
  | link (v w : Variable)

def Touch.variables {α : Type} : Touch α → List Variable
  | .write v _ => [v]
  | .link v w => [v, w]

def Keeping.touch {α σ ε : Type} [Keeping α σ ε] (s : σ) : Touch α → σ
  | .write v w => write s v w
  | .link v w => link s v w

def Keeping.touchAll {α σ ε : Type} [Keeping α σ ε] (s : σ) (touches : List (Touch α)) : σ :=
  touches.foldl touch s

structure Workspace (σ ε : Type) where
  vars : σ
  handles : List Variable
  maps : Nat → List ε
  /-- The variables that were linked or made to share a cell through a link map. -/
  joined : List (Variable × Variable)

namespace Workspace

variable {α σ ε : Type} [Keeping α σ ε]

def start : Workspace σ ε := ⟨Keeping.blank, [], fun _ => [], []⟩

/-- An act with a handle that the program does not have does nothing. -/
def step (w : Workspace σ ε) : Act α → Workspace σ ε
  | .create cell =>
    let (v, vars) := Keeping.fresh w.vars cell
    { w with vars, handles := w.handles ++ [v] }
  | .clone a => { w with handles := w.handles ++ w.handles[a]?.toList }
  | .link a b =>
    match w.handles[a]?, w.handles[b]? with
    | some v, some u =>
      { w with vars := Keeping.link w.vars v u, joined := w.joined ++ [(v, u)] }
    | _, _ => w
  | .copy a =>
    match w.handles[a]? with
    | some v =>
      let (copied, vars) := Keeping.copy w.vars v
      { w with vars, handles := w.handles ++ [copied] }
    | none => w
  | .copyThrough map a =>
    match w.handles[a]? with
    | some v =>
      let made := Keeping.copyThrough w.vars (w.maps map) v
      { vars := made.vars
        handles := w.handles ++ [made.copied]
        maps := fun other => if other = map then made.entries else w.maps other
        joined := w.joined ++ made.sharing.toList.map fun earlier => (made.copied, earlier) }
    | none => w
  | .write a write =>
    match w.handles[a]? with
    | some v => { w with vars := Keeping.write w.vars v write }
    | none => w
  | .read a =>
    match w.handles[a]? with
    | some v => { w with vars := Keeping.read w.vars v }
    | none => w

def run (w : Workspace σ ε) (acts : List (Act α)) : Workspace σ ε := acts.foldl step w

end Workspace

end PlaneSketch
