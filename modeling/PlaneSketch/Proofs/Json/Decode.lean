import PlaneSketch.Json.Decode
import PlaneSketch.Proofs.Json.Tree
import PlaneSketch.Proofs.Numeral.Layout
import PlaneSketch.Proofs.Success

/-! Decoders applied to the trees of values that are written. -/
namespace PlaneSketch.Json

variable {β : Type}

theorem decode_text (decoder : Decoder β) {j : Json} (written : j.Written) :
    decode decoder j.text = decoder j.tree := by
  rw [decode, read_text written]
  simp only
  cases decoder j.tree with
  | error e => rfl
  | ok value => rfl

theorem written_nat (n : Nat) : (nat n).Written := Numeral.spelled_ofNat n

theorem written_float (x : Float) : (float x).Written := by
  rw [float]
  split
  · exact Numeral.spelled_ofFloat x
  · trivial

namespace Decoder

theorem nat_tree {n : Nat} (small : n < twoTo 64) : nat (Json.nat n).tree = .ok n := by
  rw [Json.nat, tree, nat, Numeral.toNat?_ofNat small]
  rfl

theorem float_tree {x : Float} (finite : x.isFinite = true) : float (Json.float x).tree = .ok x := by
  rw [Json.float, if_pos finite, tree, float, Numeral.toFloat?_ofFloat finite]
  rfl

/-- A double that is not finite is written as null, which is no number. -/
theorem float_tree_infinite {x : Float} (infinite : x.isFinite = false) :
    float (Json.float x).tree = .error .mismatched := by
  rw [Json.float, if_neg (by simp [infinite]), tree]
  rfl

theorem list_tree {κ : Type} {decoder : Decoder β} {f : κ → Json} {xs : List κ} {ys : List β}
    (decoded : List.Forall₂ (fun x y => decoder (f x).tree = .ok y) xs ys) :
    list decoder (Json.arr (xs.map f)).tree = .ok ys := by
  have values : (itemTrees (xs.map f)).mapM decoder = .ok ys := by
    rw [itemTrees_eq, List.map_map, mapM_eq_ok, List.forall₂_map_left_iff]
    exact decoded
  rw [tree, list, values]
  rfl

theorem choice_tree {bare : String → Except Refusal β} {named : String → Except Refusal (Decoder β)}
    {name : String} {value : Json} {decoder : Decoder β} (found : named name = .ok decoder) :
    choice bare named (Json.obj [(name, value)]).tree = decoder value.tree := by
  rw [tree, memberTrees, choice, found, ok_bind]
  cases decoder value.tree with
  | error e => rfl
  | ok result => rfl

section Record

variable {σ : Type} {fields : List String} {field : String → Tree → σ → Except Refusal σ}

private theorem foldlM_member {members : List (String × Json)} (state : σ) (seen : List String)
    (distinct : (members.map Prod.fst).Nodup) (new : ∀ key ∈ members.map Prod.fst, key ∉ seen)
    (known : ∀ key ∈ members.map Prod.fst, key ∈ fields) :
    (memberTrees members).foldlM (member fields field) (state, seen) =
      (members.foldlM (fun state entry => field entry.1 entry.2.tree state) state).map fun state =>
        (state, (members.map Prod.fst).reverse ++ seen) := by
  induction members generalizing state seen with
  | nil => rfl
  | cons entry members ih =>
    obtain ⟨key, value⟩ := entry
    rw [List.map_cons] at distinct new known
    obtain ⟨other, distinct⟩ := List.nodup_cons.mp distinct
    obtain ⟨here, later⟩ := List.forall_mem_cons.mp new
    obtain ⟨knownHere, knownLater⟩ := List.forall_mem_cons.mp known
    rw [memberTrees, List.foldlM_cons, List.foldlM_cons, member]
    simp only
    rw [if_neg here, if_pos knownHere]
    cases field key value.tree state with
    | error e => rfl
    | ok next =>
      have fresh : ∀ k ∈ members.map Prod.fst, k ∉ key :: seen := by
        intro k member
        rw [List.mem_cons, not_or]
        refine ⟨?_, later k member⟩
        rintro rfl
        exact other member
      change (memberTrees members).foldlM (Decoder.member fields field) (next, key :: seen) = _
      rw [ih next (key :: seen) distinct fresh knownLater, ok_bind]
      simp

theorem record_tree {members : List (String × Json)} (start : σ) (finish : σ → Except Refusal β)
    (distinct : (members.map Prod.fst).Nodup) (known : ∀ key ∈ members.map Prod.fst, key ∈ fields) :
    record fields field start finish (Json.obj members).tree =
      members.foldlM (fun state entry => field entry.1 entry.2.tree state) start >>= finish := by
  rw [tree, record]
  simp only
  rw [foldlM_member start [] distinct (fun _ _ => List.not_mem_nil) known]
  cases members.foldlM (fun state entry => field entry.1 entry.2.tree state) start with
  | error e => rfl
  | ok state => rfl

end Record

section Bounds

theorem lt_of_nat {t : Tree} {n : Nat} (success : nat t = .ok n) : n < twoTo 64 := by
  cases t with
  | num numeral =>
    rw [nat] at success
    cases read : numeral.toNat? with
    | none =>
      rw [read] at success
      cases success
    | some m =>
      rw [read] at success
      cases success
      unfold Numeral.toNat? at read
      split at read
      · split at read
        · cases read
          assumption
        · cases read
      · cases read
  | _ => cases success

theorem exists_of_list {decoder : Decoder β} {t : Tree} {values : List β}
    (success : list decoder t = .ok values) : ∀ value ∈ values, ∃ item, decoder item = .ok value := by
  cases t with
  | arr items closed =>
    obtain ⟨read, decoded, success⟩ := bind_eq_ok.mp success
    obtain ⟨-, -, same⟩ := bind_eq_ok.mp success
    cases same
    intro value member
    obtain ⟨item, -, found⟩ := exists_of_mem_right (mapM_eq_ok.mp decoded) member
    exact ⟨item, found⟩
  | _ => cases success

private theorem foldlM_invariant {ε σ κ : Type} {f : σ → κ → Except ε σ} {P : σ → Prop}
    (step : ∀ state x next, f state x = .ok next → P state → P next) {xs : List κ} {start state : σ}
    (success : xs.foldlM f start = .ok state) (initial : P start) : P state := by
  induction xs generalizing start with
  | nil =>
    cases success
    exact initial
  | cons x xs ih =>
    rw [List.foldlM_cons] at success
    obtain ⟨next, here, later⟩ := bind_eq_ok.mp success
    exact ih later (step start x next here initial)

variable {σ : Type} {fields : List String} {field : String → Tree → σ → Except Refusal σ}

private theorem member_eq_ok {seen next : σ × List String} {entry : Option String × Tree}
    (success : member fields field seen entry = .ok next) :
    next = seen ∨ ∃ key, field key entry.2 seen.1 = .ok next.1 := by
  obtain ⟨key, value⟩ := entry
  cases key with
  | none => cases success
  | some key =>
    rw [member] at success
    split at success
    · cases success
    · split at success
      · obtain ⟨state, stored, same⟩ := map_eq_ok.mp success
        cases same
        exact .inr ⟨key, stored⟩
      · split at success
        · cases success
          exact .inl rfl
        · cases success

theorem record_invariant {P : σ → Prop} {start : σ} {finish : σ → Except Refusal β} {t : Tree} {value : β}
    (success : record fields field start finish t = .ok value) (initial : P start)
    (step : ∀ key t state next, field key t state = .ok next → P state → P next) :
    ∃ state, P state ∧ finish state = .ok value := by
  cases t with
  | obj members closed =>
    obtain ⟨⟨state, seen⟩, read, success⟩ := bind_eq_ok.mp success
    obtain ⟨-, -, finished⟩ := bind_eq_ok.mp success
    refine ⟨state, ?_, finished⟩
    apply foldlM_invariant (P := fun seen => P seen.1) _ read initial
    intro seen entry next here holds
    rcases member_eq_ok here with rfl | ⟨key, stored⟩
    · exact holds
    · exact step _ _ _ _ stored holds
  | arr items closed =>
    obtain ⟨state, read, success⟩ := bind_eq_ok.mp success
    refine ⟨state, foldlM_invariant (fun state entry next => step _ _ state next) read initial, ?_⟩
    split at success
    · cases success
    · obtain ⟨-, -, finished⟩ := bind_eq_ok.mp success
      exact finished
  | _ => cases success

end Bounds

end Decoder

end PlaneSketch.Json
