import PlaneSketch.Proofs.Solver.Ends

/-! Solving again. Taking the pins off and putting them on again between two solves changes nothing, so
the second solve goes on where the first one stopped: it is as if both had been one, with the limits
added up. Where the first one has converged, there is nothing left to do. -/
namespace PlaneSketch

/-- Taking steps for as long as something holds, up to a limit, ends after so many of them. -/
structure EndsAfter (goOn : Nat → Prop) (limit count : Nat) : Prop where
  within : count ≤ limit
  before : ∀ k < count, goOn k
  stop : goOn count → count = limit

namespace EndsAfter

variable {goOn : Nat → Prop} {limit m n a b : Nat}

private theorem unique (first : EndsAfter goOn limit a) (second : EndsAfter goOn limit b) : a = b := by
  rcases Nat.lt_trichotomy a b with less | same | more
  · have early := first.stop (second.before a less)
    have within := second.within
    omega
  · exact same
  · have early := second.stop (first.before b more)
    have within := first.within
    omega

private theorem add (first : EndsAfter goOn m a) (second : EndsAfter (fun k => goOn (a + k)) n b) :
    EndsAfter goOn (m + n) (a + b) where
  within := Nat.add_le_add first.within second.within
  before k early := by
    by_cases inside : k < a
    · exact first.before k inside
    · have later : goOn (a + (k - a)) := second.before (k - a) (by omega)
      rwa [Nat.add_sub_cancel' (Nat.le_of_not_lt inside)] at later
  stop holds := by
    have rest : b = n := second.stop holds
    -- The second run would not have begun a step, nor be held up without one, had the first one ended
    -- short of its limit.
    have middle : goOn a := by
      cases b with
      | zero => exact holds
      | succ b => exact second.before 0 (Nat.succ_pos b)
    rw [first.stop middle, rest]

end EndsAfter

variable {α : Type} [Scalar α]

theorem Relation.moved_iterate_pass (factor : α) (relations : List Relation) (s : Store α) (n : Nat) :
    Store.Moved (relations.flatMap Related.owned) s ((pass factor relations)^[n] s) := by
  induction n with
  | zero => exact Store.Moved.refl _ _
  | succ n ih => exact ih.trans (moved_relax factor relations (relax_iterate factor relations s n))

theorem solve_along (config : Config α) (relations : List Relation) (figureCount : Nat)
    (held : List (Figure Variable)) (damped : Bool) (s : Store α) (state : Nat → Store α)
    (leads : ∀ k, (Relation.pass (config.stepFactor damped) relations)^[k]
      (s.hold (s.guardFor (held.flatMap Figure.toList))) = state k) :
    let solve := solveHolding config relations figureCount held damped s
    let count := solve.result.iterations
    EndsAfter (fun k => config.tolerance < totalError (state k) relations) config.maxIterations count ∧
      solve.store = (state count).release (s.guardFor (held.flatMap Figure.toList)) ∧
      solve.result.error = totalError (state count) relations := by
  intro solve count
  obtain ⟨within, store, error, before, stop⟩ := solve_passes config relations figureCount held damped s
  simp only [leads] at store error before
  exact ⟨⟨within, before, fun above => stop (error ▸ above)⟩, store, error⟩

theorem solve_left (config : Config α) (relations : List Relation) (figureCount : Nat)
    (held : List (Figure Variable)) (damped : Bool) (s : Store α) :
    let solve := solveHolding config relations figureCount held damped s
    let pinned := held.flatMap Figure.toList
    solve.store.guardFor pinned = s.guardFor pinned ∧ solve.store.hold (s.guardFor pinned) =
      (Relation.pass (config.stepFactor damped) relations)^[solve.result.iterations]
        (s.hold (s.guardFor pinned)) := by
  intro solve pinned
  obtain ⟨-, store, -⟩ := solve_passes config relations figureCount held damped s
  have moved := Relation.moved_iterate_pass (config.stepFactor damped) relations
    (s.hold (s.guardFor pinned)) solve.result.iterations
  exact store ▸ moved.hold_release

/-- Solving up to one limit and then up to another leaves the store and the error of one solve up to
both limits together, which makes as many passes as the two. -/
theorem solve_instalments (config : Config α) (relations : List Relation) (figureCount : Nat)
    (held : List (Figure Variable)) (damped : Bool) (s : Store α) (m n : Nat) :
    let solveUpTo := fun limit =>
      solveHolding { config with maxIterations := limit } relations figureCount held damped
    let first := solveUpTo m s
    let second := solveUpTo n first.store
    let whole := solveUpTo (m + n) s
    (first.fault = none ∧ second.fault = none ∧ whole.fault = none) ∧
      second.store = whole.store ∧ second.result.error = whole.result.error ∧
      first.result.iterations + second.result.iterations = whole.result.iterations := by
  intro solveUpTo first second whole
  let limited (limit : Nat) : Config α := { config with maxIterations := limit }
  let guard := s.guardFor (held.flatMap Figure.toList)
  let state := fun k => (Relation.pass (config.stepFactor damped) relations)^[k] (s.hold guard)
  let count := first.result.iterations
  obtain ⟨firstEnds, -⟩ := solve_along (limited m) relations figureCount held damped s state fun _ => rfl
  obtain ⟨wholeEnds, wholeLeft, wholeError⟩ :=
    solve_along (limited (m + n)) relations figureCount held damped s state fun _ => rfl
  -- The second solve starts where the last pass of the first one ended.
  obtain ⟨sameGuard, again⟩ := solve_left (limited m) relations figureCount held damped s
  obtain ⟨secondEnds, secondLeft, secondError⟩ :=
    solve_along (limited n) relations figureCount held damped first.store
      (fun k => state (count + k)) fun k => by
        rw [sameGuard, again, Nat.add_comm]
        exact (Function.iterate_add_apply ..).symm
  have passes : count + second.result.iterations = whole.result.iterations :=
    (firstEnds.add secondEnds).unique wholeEnds
  refine ⟨⟨Relation.fault_relaxAtMost .., Relation.fault_relaxAtMost .., Relation.fault_relaxAtMost ..⟩,
    ?_, ?_, passes⟩
  · rw [sameGuard, passes, ← wholeLeft] at secondLeft
    exact secondLeft
  · rw [passes, ← wholeError] at secondError
    exact secondError

/-- What has converged is left as it is by another solve, damped or not, that holds the same figures. -/
theorem solve_converged (config : Config Float) (relations : List Relation) (figureCount : Nat)
    (held : List (Figure Variable)) (damped other : Bool) (s : Store Float) :
    let solve := solveHolding config relations figureCount held damped s
    let next := solveHolding config relations figureCount held other solve.store
    solve.result.converged = true → next.store = solve.store ∧ next.result.iterations = 0 ∧
      next.result.error = solve.result.error ∧ next.result.converged = true := by
  intro solve next converged
  let pinned := held.flatMap Figure.toList
  obtain ⟨sameGuard, again⟩ := solve_left config relations figureCount held damped s
  obtain ⟨-, left, error⟩ := solve_along config relations figureCount held damped s _ fun _ => rfl
  obtain ⟨ends, nextLeft, nextError⟩ :=
    solve_along config relations figureCount held other solve.store _ fun _ => rfl
  have start : solve.store.hold (solve.store.guardFor pinned) = _ :=
    (congrArg solve.store.hold sameGuard).trans again
  rw [← start] at left error
  have low : solve.result.error ≤ config.tolerance := of_decide_eq_true converged
  have idle : next.result.iterations = 0 := by
    rcases Nat.eq_zero_or_pos next.result.iterations with none | some
    · exact none
    · exact absurd (ends.before 0 some) (error ▸ Binary64.not_lt_of_le low)
  rw [idle] at nextLeft nextError
  have same : next.result.error = solve.result.error := nextError.trans error.symm
  refine ⟨?_, idle, same, decide_eq_true (same.trans_le low)⟩
  calc next.store = (solve.store.hold (solve.store.guardFor pinned)).release (solve.store.guardFor pinned) :=
      nextLeft
    _ = solve.store := by rw [sameGuard] at left ⊢; exact left.symm

end PlaneSketch
