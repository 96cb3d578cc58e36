import Mathlib.Data.Prod.Lex
import PlaneSketch.Proofs.Relation.Colinear

/-! When pins and links force a line on points, and which line. The scan for pins ends where the first pair is
complete along an axis; without such a pair, the first ordered pair with a common coordinate decides. -/
namespace PlaneSketch

/-- Where both axes would do, the first one is taken. -/
inductive Axis
  | x
  | y

namespace Axis

def rank : Axis → ℕ
  | .x => 0
  | .y => 1

private theorem rank_injective : Function.Injective rank := by
  intro a b same
  cases a <;> cases b <;> first | rfl | cases same

instance : LinearOrder Axis := LinearOrder.lift' rank rank_injective

theorem x_le (axis : Axis) : x ≤ axis := Nat.zero_le axis.rank

end Axis

namespace Point

section Coordinates

variable {κ : Type}

def coordinate (p : Point κ) : Axis → κ
  | .x => p.x
  | .y => p.y

def withCoordinate (p : Point κ) (axis : Axis) (k : κ) : Point κ :=
  match axis with
  | .x => ⟨k, p.y⟩
  | .y => ⟨p.x, k⟩

end Coordinates

variable {α : Type} [Scalar α]

private theorem coordinate_foldl_add (points : List (Point α)) (start : Point α) (axis : Axis) :
    (points.foldl (· + ·) start).coordinate axis =
      (points.map fun p => p.coordinate axis).foldl (· + ·) (start.coordinate axis) := by
  rw [List.foldl_map]
  refine (List.foldl_hom (Point.coordinate · axis) fun v p => ?_).symm
  cases axis <;> rfl

private theorem coordinate_mean {points : List (Point α)} (nonempty : points ≠ []) (axis : Axis) :
    (mean points).coordinate axis =
      total (points.map fun p => p.coordinate axis) / Scalar.ofNat points.length := by
  have divided (v : Point α) (k : α) : (v.divide k).coordinate axis = v.coordinate axis / k := by
    cases axis <;> rfl
  have zero : (origin : Point α).coordinate axis = 0 := by cases axis <;> rfl
  rw [mean, if_neg (by simpa using nonempty), divided, coordinate_foldl_add, zero, total]

end Point

section Lists

variable {β : Type} {xs seen : List β} {x : β}

private theorem filter_concat_noted {f : β → Bool} {first : Option β} (noted : seen.filter f = first.toList)
    (single : f x = true → first = none) :
    (seen ++ [x]).filter f = (if f x then some x else first).toList := by
  rw [List.filter_append, noted]
  cases found : f x with
  | false => simp [found]
  | true => simp [found, single found]

theorem pairwise_of_countP_lt_two {f : β → Bool} (few : xs.countP f < 2) :
    xs.Pairwise fun x y => f x = false ∨ f y = false := by
  have alone : (xs.filter f).Pairwise fun _ _ => False := by
    rw [List.countP_eq_length_filter] at few
    match xs.filter f, few with
    | [], _ => exact .nil
    | [x], _ => exact List.pairwise_singleton _ x
  refine (List.pairwise_filter.mp alone).imp fun {x y} both => ?_
  rw [← Bool.not_eq_true, ← Bool.not_eq_true, ← not_and_or]
  exact fun ⟨first, second⟩ => both first second

private theorem find?_first {f : β → Bool} {R : β → β → Prop} (sorted : xs.Pairwise R)
    (found : xs.find? f = some x) : ∀ y ∈ xs, f y = true → y = x ∨ R x y := by
  obtain ⟨-, before, after, rfl, passed⟩ := List.find?_eq_some_iff_append.mp found
  obtain ⟨later, -⟩ := List.pairwise_cons.mp (List.pairwise_append.mp sorted).2.1
  intro y member holds
  rcases List.mem_append.mp member with earlier | rest
  · have fails := passed y earlier
    rw [holds] at fails
    cases fails
  · exact (List.mem_cons.mp rest).imp_right (later y)

end Lists

namespace Store

variable {α : Type}

section Links

variable {s : Store α} {points : List (Point Variable)} {p q : Point Variable} {axis : Axis} {i j : ℕ}

/-- Entries `i` and `j`, which are `p` and `q`, are different ones with a common coordinate. -/
structure LinkedAt (s : Store α) (points : List (Point Variable)) (axis : Axis) (i j : ℕ)
    (p q : Point Variable) : Prop where
  apart : i ≠ j
  first : points[i]? = some p
  second : points[j]? = some q
  linked : s.isLinked (p.coordinate axis) (q.coordinate axis) = true

/-- No ordered pair of entries before this one has a common coordinate, nor this one along an earlier axis. -/
structure FirstLinked (s : Store α) (points : List (Point Variable)) (axis : Axis) (i j : ℕ)
    (p q : Point Variable) : Prop extends s.LinkedAt points axis i j p q where
  first_le : ∀ other m n v w, s.LinkedAt points other m n v w →
    toLex (i, toLex (j, axis)) ≤ toLex (m, toLex (n, other))

private theorem FirstLinked.axis_le (first : s.FirstLinked points axis i j p q) (other : Axis)
    (linked : s.isLinked (p.coordinate other) (q.coordinate other) = true) : axis ≤ other := by
  have le := first.first_le other i j p q ⟨first.apart, first.first, first.second, linked⟩
  simpa [Prod.Lex.toLex_le_toLex] using le

section Pairs

variable {β : Type} (xs : List β)

private theorem pairwise_zipIdx : xs.zipIdx.Pairwise fun a b => a.2 < b.2 := by
  apply List.pairwise_map.mp
  rw [List.zipIdx_map_snd]
  exact List.pairwise_lt_range'

private theorem pairwise_placedPairs :
    (placedPairs xs).Pairwise fun a b => toLex (a.1.2, a.2.2) < toLex (b.1.2, b.2.2) := by
  simp only [placedPairs, List.pairwise_flatMap, List.pairwise_map, List.forall_mem_map, Prod.Lex.toLex_lt_toLex]
  refine ⟨fun a _ => ?_, ?_⟩
  · exact ((pairwise_zipIdx xs).filter _).imp fun before => .inr ⟨trivial, before⟩
  · exact (pairwise_zipIdx xs).imp fun before _ _ _ _ => .inl before

end Pairs

theorem shares_iff : s.shares p q = true ↔ ∃ axis, s.isLinked (p.coordinate axis) (q.coordinate axis) = true := by
  rw [shares, Bool.or_eq_true]
  constructor
  · rintro (linked | linked)
    · exact ⟨.x, linked⟩
    · exact ⟨.y, linked⟩
  · rintro ⟨_ | _, linked⟩
    · exact .inl linked
    · exact .inr linked

private theorem exists_first_axis (shared : s.shares p q = true) :
    ∃ axis, s.isLinked (p.coordinate axis) (q.coordinate axis) = true ∧
      ∀ other, s.isLinked (p.coordinate other) (q.coordinate other) = true → axis ≤ other := by
  cases x : s.isLinked p.x q.x with
  | true => exact ⟨.x, x, fun other _ => other.x_le⟩
  | false =>
    refine ⟨.y, ?_, fun other linked => ?_⟩
    · rwa [shares, x, Bool.false_or] at shared
    · cases other with
      | x => exact absurd (x.symm.trans linked) Bool.false_ne_true
      | y => exact le_rfl

theorem exists_of_linkedPair? (found : s.linkedPair? points = some (p, q)) :
    ∃ axis i j, s.FirstLinked points axis i j p q := by
  rw [linkedPair?, orderedPairs_eq, List.find?_map, Option.map_eq_some_iff] at found
  obtain ⟨⟨⟨v, i⟩, w, j⟩, found, same⟩ := found
  obtain ⟨rfl, rfl⟩ := Prod.mk.inj same
  obtain ⟨first, second, apart⟩ := mem_placedPairs.mp (List.mem_of_find?_eq_some found)
  have shared := List.find?_some found
  obtain ⟨axis, linked, sooner⟩ := exists_first_axis shared
  refine ⟨axis, i, j, ⟨apart, first, second, linked⟩, fun other m n a b pair => ?_⟩
  have shares := shares_iff.mpr ⟨other, pair.linked⟩
  have listed : ((a, m), (b, n)) ∈ placedPairs points := mem_placedPairs.mpr ⟨pair.first, pair.second, pair.apart⟩
  rw [Prod.Lex.toLex_le_toLex, Prod.Lex.toLex_le_toLex]
  -- The pair itself may be linked along both axes, and is looked at along the first one first.
  rcases find?_first (pairwise_placedPairs points) found _ listed shares with here | later
  · simp only [Prod.mk.injEq] at here
    obtain ⟨⟨rfl, rfl⟩, rfl, rfl⟩ := here
    exact .inr ⟨rfl, .inr ⟨rfl, sooner other pair.linked⟩⟩
  · rw [Prod.Lex.toLex_lt_toLex] at later
    exact later.imp_right fun same => ⟨same.1, .inl same.2⟩

theorem isSome_linkedPair? :
    (s.linkedPair? points).isSome ↔ ∃ axis i j p q, s.LinkedAt points axis i j p q := by
  constructor
  · intro found
    obtain ⟨⟨p, q⟩, found⟩ := Option.isSome_iff_exists.mp found
    obtain ⟨axis, i, j, linked⟩ := exists_of_linkedPair? found
    exact ⟨axis, i, j, p, q, linked.toLinkedAt⟩
  · rintro ⟨axis, i, j, p, q, linked⟩
    rw [linkedPair?, List.find?_isSome]
    have listed := mem_orderedPairs.mpr ⟨i, j, linked.apart, linked.first, linked.second⟩
    exact ⟨(p, q), listed, shares_iff.mpr ⟨axis, linked.linked⟩⟩

end Links

variable [Scalar α]

section Pins

variable {s : Store α} {points seen rest : List (Point Variable)} {p q : Point Variable} {axis : Axis} {k : ℕ}

def isPinned (s : Store α) (axis : Axis) (p : Point Variable) : Bool := s.isConstant (p.coordinate axis)

/-- With entry `k`, which is `q`, two of the entries so far are pinned along the axis; the other one is `p`. -/
structure Completes (s : Store α) (points : List (Point Variable)) (axis : Axis) (k : ℕ)
    (p q : Point Variable) : Prop where
  earlier : (points.take k).filter (s.isPinned axis) = [p]
  here : points[k]? = some q
  pinned : s.isPinned axis q = true

/-- No earlier entry completes a pair, nor does this one along an earlier axis. -/
structure FirstCompletes (s : Store α) (points : List (Point Variable)) (axis : Axis) (k : ℕ)
    (p q : Point Variable) : Prop extends s.Completes points axis k p q where
  first_le : ∀ other m v w, s.Completes points other m v w → toLex (k, axis) ≤ toLex (m, other)

namespace Completes

theorem take_succ (completes : s.Completes points axis k p q) :
    (points.take (k + 1)).filter (s.isPinned axis) = [p, q] := by
  rw [List.take_add_one, completes.here, List.filter_append, completes.earlier]
  simp [completes.pinned]

private theorem two_le_countP (completes : s.Completes points axis k p q) :
    2 ≤ points.countP (s.isPinned axis) := by
  have part := ((List.take_sublist (k + 1) points).filter (s.isPinned axis)).length_le
  rw [completes.take_succ] at part
  rwa [List.countP_eq_length_filter]

theorem mem (completes : s.Completes points axis k p q) : p ∈ points ∧ q ∈ points := by
  have both : ∀ r ∈ [p, q], r ∈ points := by
    rw [← completes.take_succ]
    exact fun r found => List.mem_of_mem_take (List.mem_of_mem_filter found)
  exact ⟨both p (by simp), both q (by simp)⟩

private theorem length_le (completes : s.Completes (seen ++ rest) axis k p q)
    (single : (seen.filter (s.isPinned axis)).length ≤ 1) : seen.length ≤ k := by
  by_contra sooner
  have inside : k + 1 ≤ seen.length := Nat.lt_of_not_le sooner
  have two := completes.take_succ
  rw [List.take_append_of_le_length inside] at two
  have part := ((List.take_sublist (k + 1) seen).filter (s.isPinned axis)).length_le
  rw [two] at part
  exact Nat.not_succ_le_self 1 (part.trans single)

end Completes

private theorem completes_length_iff {r : Point Variable} :
    s.Completes (seen ++ r :: rest) axis seen.length p q ↔
    seen.filter (s.isPinned axis) = [p] ∧ r = q ∧ s.isPinned axis q = true := by
  have before : (seen ++ r :: rest).take seen.length = seen := List.take_left
  have there : (seen ++ r :: rest)[seen.length]? = some r := by simp
  constructor
  · rintro ⟨earlier, here, pinned⟩
    rw [before] at earlier
    rw [there] at here
    exact ⟨earlier, Option.some.inj here, pinned⟩
  · rintro ⟨earlier, rfl, pinned⟩
    exact ⟨before.symm ▸ earlier, there, pinned⟩

/-- What a scan of the entries for two that are pinned along one axis can find. -/
inductive Scanned (s : Store α) (points : List (Point Variable)) : Option (Point Variable × Point Variable) → Prop
  | unpaired (few : ∀ axis, points.countP (s.isPinned axis) < 2) : Scanned s points none
  | paired {axis : Axis} {k : ℕ} {p q : Point Variable} (first : s.FirstCompletes points axis k p q) :
    Scanned s points (some (p, q))

/-- A pair that is complete with the next entry is the first one, if no earlier axis has one there. -/
private theorem Scanned.next (single : ∀ other, (seen.filter (s.isPinned other)).length ≤ 1)
    (earlier : seen.filter (s.isPinned axis) = [p]) (pinned : s.isPinned axis q = true)
    (first : ∀ other < axis, ∀ v, seen.filter (s.isPinned other) = [v] → s.isPinned other q = true → False) :
    s.Scanned (seen ++ q :: rest) (some (p, q)) := by
  refine .paired ⟨completes_length_iff.mpr ⟨earlier, rfl, pinned⟩, fun other m v w completes => ?_⟩
  rw [Prod.Lex.toLex_le_toLex]
  rcases (completes.length_le (single other)).lt_or_eq with later | rfl
  · exact .inl later
  · obtain ⟨noted, rfl, there⟩ := completes_length_iff.mp completes
    exact .inr ⟨rfl, not_lt.mp fun before => first other before v noted there⟩

section Noted

variable {firstX firstY : Option (Point Variable)}

private theorem length_filter_le_one (x : seen.filter (s.isPinned .x) = firstX.toList)
    (y : seen.filter (s.isPinned .y) = firstY.toList) (axis : Axis) :
    (seen.filter (s.isPinned axis)).length ≤ 1 := by
  cases axis with
  | x => exact x ▸ Option.length_toList_le
  | y => exact y ▸ Option.length_toList_le

/-- The scan has noted which of the entries `seen` so far are pinned along either axis. -/
private theorem scanned_of_noted (x : seen.filter (s.isPinned .x) = firstX.toList)
    (y : seen.filter (s.isPinned .y) = firstY.toList) :
    s.Scanned (seen ++ rest) (s.pinnedPair? firstX firstY rest) := by
  fun_induction pinnedPair? s firstX firstY rest generalizing seen with
  -- What is noted is what is pinned among the entries passed, so at most one along each axis.
  | case1 =>
    refine .unpaired fun axis => ?_
    rw [List.append_nil, List.countP_eq_length_filter]
    exact Nat.lt_succ_of_le (length_filter_le_one x y axis)
  | case2 q rest firstY first pinned =>
    exact .next (length_filter_le_one x y) x pinned fun other before => absurd before (not_lt.mpr other.x_le)
  | case3 q rest firstX first pinned unpaired =>
    refine .next (length_filter_le_one x y) y pinned fun other before v noted there => ?_
    cases other with
    | x => exact unpaired v (Option.toList_eq_singleton_iff.mp (x.symm.trans noted)) there
    | y => exact lt_irrefl _ before
  | case4 q rest firstX firstY unpairedX unpairedY ih =>
    rw [← List.singleton_append, ← List.append_assoc]
    refine ih (filter_concat_noted x fun pinned => ?_) (filter_concat_noted y fun pinned => ?_)
    · exact Option.eq_none_iff_forall_ne_some.mpr fun first noted => unpairedX first noted pinned
    · exact Option.eq_none_iff_forall_ne_some.mpr fun first noted => unpairedY first noted pinned

end Noted

theorem scanned_pinnedPair? (s : Store α) (points : List (Point Variable)) :
    s.Scanned points (s.pinnedPair? none none points) := by
  have noted (axis : Axis) : ([] : List (Point Variable)).filter (s.isPinned axis) = none.toList := rfl
  exact scanned_of_noted (noted .x) (noted .y)

end Pins

section Pairs

variable {s : Store α} {points : List (Point Variable)} {p q : Point Variable} {axis : Axis} {i j : ℕ}

/-- At least two entries are pinned along one axis. -/
def PairPinned (s : Store α) (points : List (Point Variable)) : Prop :=
  ∃ axis, 2 ≤ points.countP (s.isPinned axis)

/-- Two different entries have a common coordinate. -/
def PairLinked (s : Store α) (points : List (Point Variable)) : Prop :=
  ∃ axis i j p q, s.LinkedAt points axis i j p q

theorem isSome_pinnedPair? : (s.pinnedPair? none none points).isSome ↔ s.PairPinned points := by
  have scanned := s.scanned_pinnedPair? points
  generalize s.pinnedPair? none none points = found at scanned ⊢
  cases scanned with
  | unpaired few => exact iff_of_false nofun fun ⟨axis, two⟩ => absurd two (not_le.mpr (few axis))
  | paired first => exact iff_of_true rfl ⟨_, first.two_le_countP⟩

theorem exists_of_pinnedPair? (found : s.pinnedPair? none none points = some (p, q)) :
    ∃ axis k, s.FirstCompletes points axis k p q := by
  have scanned := s.scanned_pinnedPair? points
  rw [found] at scanned
  cases scanned with
  | paired first => exact ⟨_, _, first⟩

def acrossLine (s : Store α) (points : List (Point Variable)) (axis : Axis) (p q : Point Variable) : Line α :=
  let middle := total (points.map fun r => (s.point r).coordinate axis) / Scalar.ofNat points.length
  ⟨(s.point p).withCoordinate axis middle, (s.point q).withCoordinate axis middle⟩

private theorem sharedLine?_of_first (center : Point α)
    (linked : s.isLinked (p.coordinate axis) (q.coordinate axis) = true)
    (least : ∀ other, s.isLinked (p.coordinate other) (q.coordinate other) = true → axis ≤ other) :
    s.sharedLine? center p q = some ⟨(s.point p).withCoordinate axis (center.coordinate axis),
      (s.point q).withCoordinate axis (center.coordinate axis)⟩ := by
  cases axis with
  | x => exact if_pos linked
  | y =>
    have unlinked : ¬s.isLinked p.x q.x = true := fun linked => absurd (least .x linked) (by decide)
    exact (if_neg unlinked).trans (if_pos linked)

theorem FirstLinked.sharedLine? (first : s.FirstLinked points axis i j p q) :
    s.sharedLine? (Point.mean (points.map s.point)) p q = some (s.acrossLine points axis p q) := by
  have nonempty : points.map s.point ≠ [] := List.ne_nil_of_mem (List.mem_map_of_mem (List.mem_of_getElem? first.first))
  rw [sharedLine?_of_first _ first.linked first.axis_le, Point.coordinate_mean nonempty, List.map_map, List.length_map]
  rfl

end Pairs

end Store

end PlaneSketch
