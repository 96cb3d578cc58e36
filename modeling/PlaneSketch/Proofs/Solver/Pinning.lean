import PlaneSketch.Proofs.Sketch.Edit
import PlaneSketch.Proofs.Store.Guard
import PlaneSketch.Solver.Pinning

/-! Pins are taken off as they were put on. Each guard remembers the flags that the guards below it left, so
dropping guards in reverse order leads back through the same flags; what happens in between may change
values, never flags. -/
namespace PlaneSketch

variable {α ρ : Type}

theorem Store.Moved.sameFlags {vs : List Variable} {s t : Store α} (moved : Store.Moved vs s t) :
    Store.SameFlags s t :=
  ⟨moved.names, moved.constants⟩

namespace PinAct

private theorem nested_ofSolve (factor : α) (relations : List ρ) (pinned : List Variable) (passes : Nat) :
    Nested (ofSolve factor relations pinned passes) := by
  have level : ∀ passes, (List.replicate passes (.pass factor relations : PinAct α ρ)).foldlM depth 1 = some 1 := by
    intro passes
    induction passes with
    | zero => rfl
    | succ passes ih => exact ih
  rw [Nested, ofSolve, List.foldlM_cons, depth, Option.bind_eq_bind, Option.bind_some,
    List.foldlM_append, level]
  rfl

end PinAct

variable [Scalar α]

/-- Each of the guards was made on top of those below it, the lowest one on the flags of `base`, and nothing
but guards has changed flags since. -/
inductive Stacked (base : Store α) : List Guard → Store α → Prop
  | bottom {t : Store α} (same : Store.SameFlags base t) : Stacked base [] t
  | pin {guards : List Guard} {u t : Store α} {vs : List Variable} (below : Stacked base guards u)
      (held : Store.SameFlags (u.hold (u.guardFor vs)) t) : Stacked base (u.guardFor vs :: guards) t

namespace Stacked

variable {base t u : Store α} {guard : Guard} {guards : List Guard}

theorem onward (stacked : Stacked base guards t) (same : Store.SameFlags t u) : Stacked base guards u := by
  cases stacked with
  | bottom before => exact .bottom (before.trans same)
  | pin below held => exact .pin below (held.trans same)

theorem release (stacked : Stacked base (guard :: guards) t) : Stacked base guards (t.release guard) := by
  cases stacked with
  | @pin _ u _ vs below held =>
    have names : Store.SameNames u t := (u.sameNames_hold _).trans held.toSameNames
    exact below.onward ⟨names.trans (t.sameNames_release _), Store.constantAt_release u t vs names held.flags⟩

private theorem names (stacked : Stacked base guards t) : Store.SameNames base t := by
  induction stacked with
  | bottom same => exact same.toSameNames
  | @pin _ u _ _ _ held ih => exact (ih.trans (u.sameNames_hold _)).trans held.toSameNames

private theorem constant (stacked : Stacked base guards t) {i : Nat}
    (constant : base.constantAt i = some true) : t.constantAt i = some true := by
  induction stacked with
  | bottom same => exact (same.flags i).trans constant
  | @pin _ u _ _ _ held ih =>
    rw [held.flags, Store.constantAt_hold, ih]
    split <;> rfl

end Stacked

namespace Pinning

/-- The program has `own` guards of its own on top of `outer`, made on the flags of `base`. -/
def Over (base : Store α) (outer : List Guard) (own : Nat) (p : Pinning α) : Prop :=
  ∃ inner, inner.length = own ∧ p.guards = inner ++ outer ∧ Stacked base inner p.store

variable {base : Store α} {outer : List Guard} {own next : Nat} {p : Pinning α}

private theorem Over.onward (above : Over base outer own p) {s : Store α} (same : Store.SameFlags p.store s) :
    Over base outer own { p with store := s } := by
  obtain ⟨inner, count, guards, stacked⟩ := above
  exact ⟨inner, count, guards, stacked.onward same⟩

private theorem Over.pin (above : Over base outer own p) (vs : List Variable) :
    Over base outer (own + 1) ⟨(p.store.pin vs).2, (p.store.pin vs).1 :: p.guards⟩ := by
  obtain ⟨inner, count, guards, stacked⟩ := above
  rw [Store.pin_eq, guards]
  exact ⟨p.store.guardFor vs :: inner, congrArg (· + 1) count, rfl, .pin stacked (.refl _)⟩

private theorem Over.done (above : Over base outer 0 p) :
    p.guards = outer ∧ Store.SameFlags base p.store := by
  obtain ⟨inner, none, guards, stacked⟩ := above
  obtain rfl := List.length_eq_zero_iff.mp none
  cases stacked with
  | bottom same => exact ⟨guards, same⟩

section Acts

variable [Constraint α ρ]

private theorem Over.drop (above : Over base outer (own + 1) p) :
    Over base outer own (p.step (.drop : PinAct α ρ)) := by
  obtain ⟨inner, count, guards, stacked⟩ := above
  obtain ⟨guard, inner, rfl⟩ := List.exists_cons_of_length_eq_add_one count
  rw [step, guards]
  exact ⟨inner, Nat.succ.inj count, rfl, stacked.release⟩

/-- An act other than dropping someone else's guard keeps the guards stacked. -/
private theorem Over.step (above : Over base outer own p) {act : PinAct α ρ}
    (depth : act.depth own = some next) : Over base outer next (p.step act) := by
  cases act with
  | assign v value =>
    cases depth
    exact above.onward ⟨p.store.sameNames_updateCell _ _, p.store.constantAt_setValue v value⟩
  | shift v delta =>
    cases depth
    exact above.onward ⟨p.store.sameNames_updateCell _ _, p.store.constantAt_shift v delta⟩
  | pass factor relations =>
    cases depth
    rw [Pinning.step]
    split
    case h_1 store passed => exact above.onward (moved_relax factor relations passed).sameFlags
    case h_2 => exact above
  | solve config relations pinned damped =>
    cases depth
    exact above.onward (moved_relaxHolding config relations pinned damped p.store).1.sameFlags
  | pin vs =>
    cases depth
    exact above.pin vs
  | drop =>
    cases own with
    | zero => cases depth
    | succ own =>
      cases depth
      exact above.drop

private theorem Over.run (above : Over base outer own p) {acts : List (PinAct α ρ)}
    (depth : acts.foldlM PinAct.depth own = some next) : Over base outer next (p.run acts) := by
  induction acts generalizing own p with
  | nil =>
    cases depth
    exact above
  | cons act acts ih =>
    obtain ⟨between, first, rest⟩ := Option.bind_eq_some_iff.mp depth
    exact ih (above.step first) rest

private theorem exists_passes_relaxAtMost (relations : List ρ) (tolerance factor : α) (guards : List Guard)
    (n : Nat) (run : Run α) :
    ∃ k, (⟨run.store, guards⟩ : Pinning α).run (List.replicate k (.pass factor relations)) =
      ⟨(relaxAtMost relations tolerance factor n run).store, guards⟩ := by
  induction n generalizing run with
  | zero => exact ⟨0, rfl⟩
  | succ n ih =>
    rw [relaxAtMost]
    split
    · split
      case h_1 => exact ⟨0, rfl⟩
      case h_2 store passed =>
        obtain ⟨k, led⟩ := ih { run with store, passErrors := totalError store relations :: run.passErrors }
        have first : (⟨run.store, guards⟩ : Pinning α).step (.pass factor relations) = ⟨store, guards⟩ := by
          rw [step, passed]
        refine ⟨k + 1, ?_⟩
        rw [List.replicate_succ, Pinning.run, List.foldl_cons, first]
        exact led
    · exact ⟨0, rfl⟩

private theorem exists_run_ofSolve (config : Config α) (relations : List ρ) (pinned : List Variable)
    (damped : Bool) (p : Pinning α) :
    ∃ passes, p.run (PinAct.ofSolve (config.stepFactor damped) relations pinned passes) =
      p.step (.solve config relations pinned damped) := by
  let start := p.store.hold (p.store.guardFor pinned)
  obtain ⟨passes, led⟩ := exists_passes_relaxAtMost relations config.tolerance (config.stepFactor damped)
    (p.store.guardFor pinned :: p.guards) config.maxIterations ⟨start, totalError start relations, [], none⟩
  refine ⟨passes, ?_⟩
  have opened : p.step (.pin pinned : PinAct α ρ) = ⟨start, p.store.guardFor pinned :: p.guards⟩ := by
    rw [step, Store.pin_eq]
  rw [run, PinAct.ofSolve, List.foldl_cons, opened, List.foldl_append]
  exact congrArg (step · (.drop : PinAct α ρ)) led

/-- While a guard is there, its variables are constant, whatever a program writes, solves and pins on top of
it, and whether or not variables are repeated or linked; it has saved each of their cells once. Once it is
dropped, every flag is what it was. That goes for any moment of a solve as well, which is acts of its own. -/
theorem flags_restored (s : Store α) (guards : List Guard) (vs : List Variable) (body : List (PinAct α ρ))
    (nested : PinAct.Nested body) :
    let opened := (⟨s, guards⟩ : Pinning α).step (.pin vs : PinAct α ρ)
    let closed := (opened.run body).step (.drop : PinAct α ρ)
    (∃ guard, opened.guards = guard :: guards ∧ guard.saved.length = (vs.map s.cellOf).toFinset.card) ∧
      (∀ part, part <+: body → ∀ v ∈ vs, s.Live v → (opened.run part).store.isConstant v = true) ∧
      closed.guards = guards ∧ Store.SameFlags s closed.store ∧
      ∀ (p : Pinning α) (config : Config α) (relations : List ρ) (pinned : List Variable) (damped : Bool),
        ∃ passes, PinAct.Nested (PinAct.ofSolve (config.stepFactor damped) relations pinned passes) ∧
          p.run (PinAct.ofSolve (config.stepFactor damped) relations pinned passes) =
            p.step (.solve config relations pinned damped) := by
  intro opened closed
  have opening : opened = ⟨s.hold (s.guardFor vs), s.guardFor vs :: guards⟩ := by
    simp only [opened, step, Store.pin_eq]
  have bottom : Over (s.hold (s.guardFor vs)) (s.guardFor vs :: guards) 0 opened :=
    ⟨[], rfl, congrArg Pinning.guards opening, .bottom (opening ▸ .refl _)⟩
  obtain ⟨left, same⟩ := (bottom.run nested).done
  have closing : closed = ⟨(opened.run body).store.release (s.guardFor vs), guards⟩ := by
    simp only [closed, step, left]
  refine ⟨⟨s.guardFor vs, congrArg Pinning.guards opening, s.length_saved_guardFor vs⟩, ?_, congrArg Pinning.guards closing, ?_, ?_⟩
  · intro part before v member live
    obtain ⟨rest, rfl⟩ := before
    rw [PinAct.Nested, List.foldlM_append] at nested
    obtain ⟨own, depth, -⟩ := Option.bind_eq_some_iff.mp nested
    obtain ⟨_, -, -, stacked⟩ := bottom.run depth
    have constant : (s.hold (s.guardFor vs)).constantAt (s.cellOf v) = some true := by
      rw [Store.constantAt_hold, if_pos ⟨v, member, rfl⟩, Store.constantAt, Array.getElem?_eq_getElem live]
      rfl
    have names : Store.SameNames s (opened.run part).store := (s.sameNames_hold _).trans stacked.names
    rw [Store.isConstant_eq, names.cellOf, stacked.constant constant]
    rfl
  · -- The guard, with what has come of the flags it set, lies on the flags of `s`.
    have top : Stacked s [s.guardFor vs] (opened.run body).store := .pin (.bottom (.refl s)) same
    rw [closing]
    cases top.release with
    | bottom back => exact back
  · intro p config relations pinned damped
    obtain ⟨passes, led⟩ := exists_run_ofSolve config relations pinned damped p
    exact ⟨passes, PinAct.nested_ofSolve _ relations pinned passes, led⟩

end Acts

def linkedStore : Store Float := ⟨#[⟨1, false⟩, ⟨2, true⟩, ⟨3, false⟩], #[0, 0, 1, 2]⟩

def twicePinned : List (PinAct Float Relation) :=
  [.assign ⟨0⟩ 5, .pin [⟨1⟩, ⟨3⟩], .solve Config.standard [.equalValues [⟨0⟩, ⟨3⟩]] [⟨3⟩] false, .drop,
    .shift ⟨2⟩ 1]

theorem flags_restored_linked :
    PinAct.Nested twicePinned ∧
      let opened := (⟨linkedStore, []⟩ : Pinning Float).step (.pin [⟨0⟩, ⟨1⟩, ⟨2⟩, ⟨0⟩] : PinAct Float Relation)
      let closed := (opened.run twicePinned).step (.drop : PinAct Float Relation)
      opened.guards.map (fun guard => guard.saved.length) = [2] ∧
        (opened.run (twicePinned.take 3)).store.isConstant ⟨1⟩ = true ∧
        closed.store.constantAt 0 = some false ∧ closed.store.constantAt 1 = some true := by
  have nested : PinAct.Nested twicePinned := by decide
  obtain ⟨⟨guard, guards, saved⟩, constant, -, same, -⟩ :=
    flags_restored linkedStore [] [⟨0⟩, ⟨1⟩, ⟨2⟩, ⟨0⟩] twicePinned nested
  refine ⟨nested, ?_, ?_, same.flags 0, same.flags 1⟩
  · rw [guards, List.map_singleton, saved]
    rfl
  · exact constant _ (List.take_prefix 3 twicePinned) ⟨1⟩ (by decide) (by decide)

end Pinning

end PlaneSketch
