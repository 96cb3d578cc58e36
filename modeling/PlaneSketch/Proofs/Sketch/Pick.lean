import PlaneSketch.Proofs.Binary64.Order
import PlaneSketch.Sketch.Select

/-! Which figure a pointer finds. Only figures within reach are compared, and their distances are numbers, since nothing
else is below the radius. So the comparison is that of a linear order, and the scan keeps the first of the least. -/
namespace PlaneSketch

/-- The first of the least elements: all before it have later places, and none after it has an earlier one. -/
def FirstLeast {β γ : Type} [LinearOrder γ] (place : β → γ) (xs : List β) (best : β) : Prop :=
  ∃ before after, xs = before ++ best :: after ∧ (∀ x ∈ before, place best < place x) ∧
    ∀ x ∈ after, place best ≤ place x

namespace FirstLeast

variable {β γ : Type} [LinearOrder γ] {place : β → γ} {xs : List β} {best next : β}

private theorem singleton (place : β → γ) (x : β) : FirstLeast place [x] x := ⟨[], [], rfl, by simp, by simp⟩

private theorem mem (least : FirstLeast place xs best) : best ∈ xs := by
  obtain ⟨before, after, rfl, -⟩ := least
  exact List.mem_append_right _ List.mem_cons_self

theorem le (least : FirstLeast place xs best) : ∀ x ∈ xs, place best ≤ place x := by
  obtain ⟨before, after, rfl, worse, noBetter⟩ := least
  rw [List.forall_mem_append, List.forall_mem_cons]
  exact ⟨fun x earlier => (worse x earlier).le, le_rfl, noBetter⟩

private theorem concat_of_le (least : FirstLeast place xs best) (stays : place best ≤ place next) :
    FirstLeast place (xs ++ [next]) best := by
  obtain ⟨before, after, rfl, worse, noBetter⟩ := least
  refine ⟨before, after ++ [next], by simp, worse, ?_⟩
  rw [List.forall_mem_append, List.forall_mem_singleton]
  exact ⟨noBetter, stays⟩

private theorem concat_of_lt (least : FirstLeast place xs best) (improves : place next < place best) :
    FirstLeast place (xs ++ [next]) next :=
  ⟨xs, [], rfl, fun x member => improves.trans_le (least.le x member), by simp⟩

private theorem exists_of_filterMap {ι : Type} {f : ι → Option β} {sources : List ι}
    (least : FirstLeast place (sources.filterMap f) best) :
    ∃ i x, sources[i]? = some x ∧ f x = some best ∧
      ∀ (j : Nat) (y : ι) (c : β), sources[j]? = some y → f y = some c →
        place best ≤ place c ∧ (j < i → place best < place c) := by
  have noneBetter := least.le
  obtain ⟨before, after, split, worse, -⟩ := least
  obtain ⟨earlier, rest, rfl, made, others⟩ := List.filterMap_eq_append_iff.mp split
  obtain ⟨skipped, x, later, rfl, passed, here, -⟩ := List.filterMap_eq_cons_iff.mp others
  refine ⟨(earlier ++ skipped).length, x, by simp, here, fun j y c listed told => ⟨?_, fun sooner => ?_⟩⟩
  · exact noneBetter c (List.mem_filterMap.mpr ⟨y, List.mem_of_getElem? listed, told⟩)
  · rw [← List.append_assoc, List.getElem?_append_left sooner] at listed
    rcases List.mem_append.mp (List.mem_of_getElem? listed) with found | found
    · exact worse c (made ▸ List.mem_filterMap.mpr ⟨y, found, told⟩)
    · exact absurd told ((passed y found).symm ▸ nofun)

end FirstLeast

def FigureKind.Before : FigureKind → FigureKind → Prop
  | .point, other => other ≠ .point
  | .line, other => other = .circle ∨ other = .arc
  | .circle, _ | .arc, _ => False

private theorem FigureKind.before_iff {a b : FigureKind} : a.Before b ↔ a.priority < b.priority := by
  cases a <;> cases b <;> simp [Before, priority]

def Entity.away {α : Type} [Scalar α] (e : Entity) (s : Store α) (query : Point α) : α :=
  ((s.figure e.figure).nearest query).distance query

def Entity.candidate {α : Type} [Scalar α] (e : Entity) (s : Store α) (query : Point α) : Nat × Pick α :=
  (e.figure.kind.priority, ⟨e.id, e.away s query, (s.figure e.figure).nearest query⟩)

namespace Sketch

variable {ρ : Type} {s : Store Float} {query : Point Float} {radius : Float} {candidate : Nat × Pick Float}

theorem candidate?_eq_some {e : Entity} :
    candidate? s query radius e = some candidate ↔ e.away s query ≤ radius ∧ candidate = e.candidate s query := by
  rw [candidate?, Option.ite_none_right_eq_some, Option.some.injEq, eq_comm (b := candidate)]
  rfl

private theorem candidate?_eq_none {e : Entity} :
    candidate? s query radius e = none ↔ ¬e.away s query ≤ radius := by
  rw [candidate?, ite_eq_right_iff]
  exact forall_congr' fun _ => iff_of_false nofun id

section Scan

def rank (candidate : Nat × Pick Float) : ℕ ×ₗ ℤ ×ₗ ℤ ×ₗ ℤ :=
  toLex (candidate.1, Binary64.place candidate.2.distance)

private theorem precedes_iff {a b : Nat × Pick Float} (first : a.2.distance.isNaN = false)
    (second : b.2.distance.isNaN = false) : precedes a b = true ↔ rank a < rank b := by
  rw [precedes, rank, rank, Prod.Lex.toLex_lt_toLex, Bool.or_eq_true, Bool.and_eq_true, beq_iff_eq, decide_eq_true_eq,
    decide_eq_true_eq, ← Binary64.lt_iff_place first second]

private theorem firstLeast_better {xs : List (Nat × Pick Float)} {best next : Nat × Pick Float}
    (least : FirstLeast rank xs best) (number : best.2.distance.isNaN = false)
    (number' : next.2.distance.isNaN = false) : FirstLeast rank (xs ++ [next]) (better best next) := by
  rw [better]
  split_ifs with improves
  · exact least.concat_of_lt ((precedes_iff number' number).mp improves)
  · exact least.concat_of_le (not_lt.mp fun before => improves ((precedes_iff number' number).mpr before))

private theorem firstLeast_foldl (first : Nat × Pick Float) (rest : List (Nat × Pick Float))
    (numbers : ∀ c ∈ first :: rest, c.2.distance.isNaN = false) :
    FirstLeast rank (first :: rest) (rest.foldl better first) := by
  induction rest using List.reverseRecOn with
  | nil => exact .singleton rank first
  | append_singleton rest next ih =>
    rw [← List.cons_append, List.forall_mem_append, List.forall_mem_singleton] at numbers
    have least := ih numbers.1
    rw [List.foldl_append, ← List.cons_append]
    exact firstLeast_better least (numbers.1 _ least.mem) numbers.2

end Scan

/-- The first figure, with its position in the sketch, comes before the second one: by its kind, then by its distance,
then by its position. -/
def Outranks (s : Store Float) (query : Point Float) (a b : Entity × Nat) : Prop :=
  a.1.figure.kind.Before b.1.figure.kind ∨
    ¬b.1.figure.kind.Before a.1.figure.kind ∧
      (a.1.away s query < b.1.away s query ∨ (a.1.away s query == b.1.away s query) = true ∧ a.2 < b.2)

section Best

variable {sketch : Sketch Float ρ}

private theorem firstLeast_of_pick? {pick : Pick Float} (found : sketch.pick? s query radius = some pick) :
    ∃ best, best.2 = pick ∧ FirstLeast rank (sketch.entities.filterMap (candidate? s query radius)) best := by
  rw [pick?] at found
  split at found
  case h_1 => cases found
  case h_2 first rest candidates =>
    refine ⟨rest.foldl better first, Option.some.inj found, ?_⟩
    rw [candidates]
    refine firstLeast_foldl first rest fun c member => ?_
    rw [← candidates, List.mem_filterMap] at member
    obtain ⟨e, -, told⟩ := member
    obtain ⟨reach, rfl⟩ := candidate?_eq_some.mp told
    exact (Binary64.isNaN_of_le reach).1

private theorem pick?_eq_none :
    sketch.pick? s query radius = none ↔ ∀ e ∈ sketch.entities, ¬e.away s query ≤ radius := by
  have empty : sketch.pick? s query radius = none ↔ sketch.entities.filterMap (candidate? s query radius) = [] := by
    rw [pick?]
    split
    case h_1 none => exact iff_of_true rfl none
    case h_2 some => exact iff_of_false nofun (some ▸ nofun)
  rw [empty, List.filterMap_eq_nil_iff]
  simp only [candidate?_eq_none]

/-- The ranks of figures within reach, and among equal ranks the positions, are in a linear order. -/
def standing (s : Store Float) (query : Point Float) (a : Entity × Nat) : (ℕ ×ₗ ℤ ×ₗ ℤ ×ₗ ℤ) ×ₗ ℕ :=
  toLex (rank (a.1.candidate s query), a.2)

theorem outranks_iff {e other : Entity} {i j : Nat} (first : e.away s query ≤ radius)
    (second : other.away s query ≤ radius) :
    Outranks s query (e, i) (other, j) ↔ standing s query (e, i) < standing s query (other, j) := by
  have number := (Binary64.isNaN_of_le first).1
  have number' := (Binary64.isNaN_of_le second).1
  rw [Outranks, FigureKind.before_iff, FigureKind.before_iff, not_lt, le_iff_lt_or_eq,
    Binary64.lt_iff_place number number', Binary64.beq_iff_place number number', standing, standing,
    Prod.Lex.toLex_lt_toLex, rank, rank, Prod.Lex.toLex_lt_toLex, toLex.injective.eq_iff, Prod.mk.injEq,
    Entity.candidate, Entity.candidate]
  tauto

private theorem exists_best {pick : Pick Float} (found : sketch.pick? s query radius = some pick) :
    ∃ (i : Nat) (e : Entity), sketch.entities[i]? = some e ∧ e.away s query ≤ radius ∧
      pick = ⟨e.id, e.away s query, (s.figure e.figure).nearest query⟩ ∧
      ∀ (j : Nat) (other : Entity), sketch.entities[j]? = some other → other.away s query ≤ radius → j ≠ i →
        Outranks s query (e, i) (other, j) := by
  obtain ⟨best, rfl, least⟩ := firstLeast_of_pick? found
  obtain ⟨i, e, listed, told, others⟩ := least.exists_of_filterMap
  obtain ⟨reach, rfl⟩ := candidate?_eq_some.mp told
  refine ⟨i, e, listed, reach, rfl, fun j other there near apart => ?_⟩
  obtain ⟨noBetter, worse⟩ := others j other _ there (candidate?_eq_some.mpr ⟨near, rfl⟩)
  rw [outranks_iff reach near, standing, standing, Prod.Lex.toLex_lt_toLex]
  rcases noBetter.lt_or_eq with below | same
  · exact .inl below
  · exact .inr ⟨same, lt_of_le_of_ne (not_lt.mp fun sooner => (worse sooner).ne same) apart.symm⟩

/-- Nothing is picked only where nothing is within reach, and what is picked is the one figure within reach that comes
before all others there, with its own distance and its own nearest point. -/
theorem pick?_best (sketch : Sketch Float ρ) (s : Store Float) (query : Point Float) (radius : Float) :
    (sketch.pick? s query radius = none ↔ ∀ e ∈ sketch.entities, ¬e.away s query ≤ radius) ∧
    ∀ pick, sketch.pick? s query radius = some pick ↔
      ∃ (i : Nat) (e : Entity), sketch.entities[i]? = some e ∧ e.away s query ≤ radius ∧
        pick = ⟨e.id, e.away s query, (s.figure e.figure).nearest query⟩ ∧
        ∀ (j : Nat) (other : Entity), sketch.entities[j]? = some other → other.away s query ≤ radius → j ≠ i →
          Outranks s query (e, i) (other, j) := by
  refine ⟨pick?_eq_none, fun pick => ⟨exists_best, ?_⟩⟩
  rintro ⟨i, e, listed, reach, rfl, first⟩
  cases result : sketch.pick? s query radius with
  | none => exact absurd reach (pick?_eq_none.mp result e (List.mem_of_getElem? listed))
  | some other =>
    obtain ⟨j, rival, there, near, rfl, first'⟩ := exists_best result
    by_cases same : j = i
    · subst same
      cases listed.symm.trans there
      rfl
    · have before := (outranks_iff reach near).mp (first j rival there near same)
      have after := (outranks_iff near reach).mp (first' i e listed reach (Ne.symm same))
      exact absurd before after.asymm

end Best

end Sketch

end PlaneSketch
