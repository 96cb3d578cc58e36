import PlaneSketch.Proofs.Success

/-! The fault with which a computation fails, if it does: of several steps, the first fault counts. -/
namespace PlaneSketch

variable {ε δ κ μ : Type}

def fault? : Except ε κ → Option ε
  | .error e => some e
  | .ok _ => none

@[simp] theorem fault?_error (e : ε) : fault? (.error e : Except ε κ) = some e := rfl

@[simp] theorem fault?_ok (a : κ) : fault? (.ok a : Except ε κ) = none := rfl

theorem fault?_eq_some {x : Except ε κ} {e : ε} : fault? x = some e ↔ x = .error e := by
  cases x with
  | error e' => simp
  | ok a => simp

theorem fault?_eq_none {x : Except ε κ} : fault? x = none ↔ ∃ a, x = .ok a := by
  cases x with
  | error e => simp
  | ok a => simp

@[simp] theorem fault?_map (x : Except ε κ) (f : κ → μ) : fault? (x.map f) = fault? x := by
  cases x <;> rfl

@[simp] theorem fault?_mapError (x : Except ε κ) (f : ε → δ) :
    fault? (x.mapError f) = (fault? x).map f := by
  cases x <;> rfl

theorem fault?_mapM (f : κ → Except ε μ) (xs : List κ) :
    fault? (xs.mapM f) = xs.findSome? fun x => fault? (f x) := by
  induction xs with
  | nil => rfl
  | cons x xs ih =>
    rw [List.mapM_cons, List.findSome?_cons]
    cases f x with
    | error e => rfl
    | ok y =>
      rw [ok_bind, fault?_ok, ← ih]
      cases xs.mapM f <;> rfl

end PlaneSketch
