import Mathlib.Data.List.Forall2

/-! When computations that may fail succeed, step by step. -/
namespace PlaneSketch

variable {ε δ κ μ : Type}

theorem exists_of_mem_left {r : κ → μ → Prop} {xs : List κ} {ys : List μ}
    (related : List.Forall₂ r xs ys) {x : κ} (member : x ∈ xs) : ∃ y ∈ ys, r x y := by
  induction related with
  | nil => cases member
  | cons head _ ih =>
    rcases List.mem_cons.mp member with rfl | later
    · exact ⟨_, List.mem_cons_self, head⟩
    · obtain ⟨y, found, same⟩ := ih later
      exact ⟨y, List.mem_cons_of_mem _ found, same⟩

theorem exists_of_mem_right {r : κ → μ → Prop} {xs : List κ} {ys : List μ}
    (related : List.Forall₂ r xs ys) {y : μ} (member : y ∈ ys) : ∃ x ∈ xs, r x y :=
  exists_of_mem_left related.flip member

theorem exists_forall₂ {ν : Type} {r : κ → μ → Prop} {q : μ → ν → Prop} {f : ν → κ} {xs : List κ}
    {ys : List μ} (related : List.Forall₂ r xs ys) (find : ∀ x y, r x y → ∃ z, q y z ∧ f z = x) :
    ∃ zs, List.Forall₂ q ys zs ∧ zs.map f = xs := by
  induction related with
  | nil => exact ⟨[], .nil, rfl⟩
  | cons head _ ih =>
    obtain ⟨z, found, same⟩ := find _ _ head
    obtain ⟨zs, rest, later⟩ := ih
    exact ⟨z :: zs, .cons found rest, by rw [List.map_cons, same, later]⟩

theorem forall₂_trans {ν : Type} {r : κ → μ → Prop} {q : μ → ν → Prop} {p : κ → ν → Prop}
    (step : ∀ x y z, r x y → q y z → p x z) {xs : List κ} {ys : List μ} {zs : List ν}
    (first : List.Forall₂ r xs ys) (second : List.Forall₂ q ys zs) : List.Forall₂ p xs zs := by
  induction first generalizing zs with
  | nil =>
    cases second
    exact .nil
  | cons head _ ih =>
    cases second with
    | cons next rest => exact .cons (step _ _ _ head next) (ih rest)

theorem bind_eq_ok {x : Except ε κ} {f : κ → Except ε μ} {b : μ} :
    (x >>= f) = .ok b ↔ ∃ a, x = .ok a ∧ f a = .ok b := by
  cases x with
  | error e => simp [bind, Except.bind]
  | ok a => simp [bind, Except.bind]

@[simp] theorem pure_run {σ : Type} (a : κ) (s : σ) :
    (pure a : StateT σ (Except ε) κ) s = .ok (a, s) := rfl

@[simp] theorem ok_bind (a : κ) (f : κ → Except ε μ) : (Except.ok a >>= f) = f a := rfl

@[simp] theorem error_bind (e : ε) (f : κ → Except ε μ) : (Except.error e >>= f) = .error e := rfl

theorem exists_of_isOk {x : Except ε κ} (success : x.isOk = true) : ∃ a, x = .ok a := by
  cases x with
  | error e => cases success
  | ok a => exact ⟨a, rfl⟩

theorem map_eq_ok {x : Except ε κ} {f : κ → μ} {b : μ} :
    x.map f = .ok b ↔ ∃ a, x = .ok a ∧ f a = b := by
  cases x with
  | error e => simp [Except.map]
  | ok a => simp [Except.map]

theorem mapError_eq_ok {x : Except ε κ} {f : ε → δ} {a : κ} : x.mapError f = .ok a ↔ x = .ok a := by
  cases x with
  | error e => simp [Except.mapError]
  | ok b => simp [Except.mapError]

theorem mapM_eq_ok {f : κ → Except ε μ} {xs : List κ} {ys : List μ} :
    xs.mapM f = .ok ys ↔ List.Forall₂ (fun x y => f x = .ok y) xs ys := by
  induction xs generalizing ys with
  | nil =>
    rw [List.mapM_nil, List.forall₂_nil_left_iff]
    exact ⟨fun same => (Except.ok.inj same).symm, fun same => by rw [same]; rfl⟩
  | cons x xs ih =>
    rw [List.mapM_cons]
    constructor
    · intro success
      obtain ⟨y, first, success⟩ := bind_eq_ok.mp success
      obtain ⟨rest, later, success⟩ := bind_eq_ok.mp success
      cases success
      exact .cons first (ih.mp later)
    · rintro (_ | ⟨first, later⟩)
      rw [first, ih.mpr later]
      rfl

theorem mapM_option_eq_some {f : κ → Option μ} {xs : List κ} {ys : List μ} :
    xs.mapM f = some ys ↔ List.Forall₂ (fun x y => f x = some y) xs ys := by
  induction xs generalizing ys with
  | nil =>
    rw [List.mapM_nil, List.forall₂_nil_left_iff]
    exact ⟨fun same => (Option.some.inj same).symm, fun same => by rw [same]; rfl⟩
  | cons x xs ih =>
    rw [List.mapM_cons]
    constructor
    · intro success
      obtain ⟨y, first, success⟩ := Option.bind_eq_some_iff.mp success
      obtain ⟨rest, later, success⟩ := Option.bind_eq_some_iff.mp success
      cases success
      exact .cons first (ih.mp later)
    · rintro (_ | ⟨first, later⟩)
      rw [first, ih.mpr later]
      rfl

end PlaneSketch
