import Mathlib.Data.List.Sort
import Mathlib.Order.Extension.Linear

/-!
# Topological orders

A list is in topological order for a relation `r` ("comes before") if no arrow of
`r` points backwards in it. If `r` has no cycle, every duplicate-free list can
be put in such an order (`exists_topologicalOrder`), and of the orders there is one
that lists any set closed under predecessors first (`TopologicalOrder.partition`):
what is not forced to come earlier may come later.
-/

namespace CppTransport.Library

variable {α : Type*} {r : α → α → Prop} {l : List α}

/-- `l` lists its elements once each, and none after an element that it comes before. -/
structure TopologicalOrder (r : α → α → Prop) (l : List α) : Prop where
  /-- No element is listed twice. -/
  nodup : l.Nodup
  /-- No arrow points backwards. -/
  forward : l.Pairwise fun a b => ¬ r b a

/-- The relation has no cycle. -/
def Acyclic (r : α → α → Prop) : Prop := ∀ a, ¬ Relation.TransGen r a a

/-- A relation that goes upwards has no cycle. -/
theorem acyclic_of_lt [Preorder α] (up : ∀ a b, r a b → a < b) : Acyclic r := by
  intro a cycle
  have lt : ∀ b, Relation.TransGen r a b → a < b := by
    intro b path
    induction path with
    | single h => exact up _ _ h
    | tail _ h ih => exact ih.trans (up _ _ h)
  exact lt_irrefl a (lt a cycle)

/-- **Existence**: a list can be sorted by a linear extension of an acyclic relation. -/
theorem exists_topologicalOrder (acyclic : Acyclic r) (hl : l.Nodup) :
    ∃ l', l'.Perm l ∧ TopologicalOrder r l' := by
  classical
  have partialOrder : IsPartialOrder α (Relation.ReflTransGen r) :=
    { refl := fun _ => .refl
      trans := fun _ _ _ => .trans
      antisymm := by
        intro a b hab hba
        rcases Relation.reflTransGen_iff_eq_or_transGen.mp hab with rfl | hab
        · rfl
        · exact absurd (hab.trans_left hba) (acyclic a) }
  obtain ⟨s, linear, extends_⟩ := extend_partialOrder (Relation.ReflTransGen r)
  refine ⟨l.insertionSort s, List.perm_insertionSort s l, ?_, ?_⟩
  · exact (List.perm_insertionSort s l).nodup_iff.mpr hl
  · refine (List.pairwise_insertionSort s l).imp ?_
    intro a b hab hba
    have same : a = b := linear.antisymm a b hab (extends_ b a (.single hba))
    subst same
    exact acyclic a (.single hba)

/-- The elements of a set that is closed under predecessors may all be listed first. -/
theorem TopologicalOrder.partition (h : TopologicalOrder r l) (p : α → Prop) [DecidablePred p]
    (closed : ∀ a b, r a b → p b → p a) :
    TopologicalOrder r (l.filter (fun a => p a) ++ l.filter (fun a => ¬ p a)) := by
  constructor
  · refine List.nodup_append'.mpr ⟨h.nodup.filter _, h.nodup.filter _, ?_⟩
    intro a ha hb
    simp only [List.mem_filter, decide_eq_true_eq] at ha hb
    exact hb.2 ha.2
  · refine List.pairwise_append.mpr ⟨h.forward.filter _, h.forward.filter _, ?_⟩
    intro a ha b hb hba
    simp only [List.mem_filter, decide_eq_true_eq] at ha hb
    exact hb.2 (closed b a hba ha.2)

variable [DecidableEq α]

/-- An element that comes before another is listed before it. -/
theorem TopologicalOrder.idxOf_lt (h : TopologicalOrder r l) (acyclic : Acyclic r) {a b : α}
    (ha : a ∈ l) (hb : b ∈ l) (hab : r a b) : l.idxOf a < l.idxOf b := by
  have la : l.idxOf a < l.length := List.idxOf_lt_length_iff.mpr ha
  have lb : l.idxOf b < l.length := List.idxOf_lt_length_iff.mpr hb
  rcases Nat.lt_trichotomy (l.idxOf a) (l.idxOf b) with lt | eq | gt
  · exact lt
  · have same : a = b := by
      rw [← List.getElem_idxOf la, ← List.getElem_idxOf lb]
      simp only [eq]
    subst same
    exact absurd (.single hab) (acyclic a)
  · have back := List.pairwise_iff_getElem.mp h.forward _ _ lb la gt
    simp only [List.getElem_idxOf] at back
    exact absurd hab back

theorem TopologicalOrder.idxOf_lt_of_transGen (h : TopologicalOrder r l) (acyclic : Acyclic r)
    (closed : ∀ a b, r a b → b ∈ l → a ∈ l) {a b : α} (hb : b ∈ l) (hab : Relation.TransGen r a b) :
    a ∈ l ∧ l.idxOf a < l.idxOf b := by
  induction hab using Relation.TransGen.head_induction_on with
  | single hab => exact ⟨closed _ _ hab hb, h.idxOf_lt acyclic (closed _ _ hab hb) hb hab⟩
  | head hac _ ih =>
    obtain ⟨hc, lt⟩ := ih
    have ha := closed _ _ hac hc
    exact ⟨ha, (h.idxOf_lt acyclic ha hc hac).trans lt⟩

/-- In a partitioned list, only elements of the first part are listed before one of them. -/
theorem of_idxOf_le_partition {p : α → Prop} [DecidablePred p] {a b : α} (ha : a ∈ l) (hpa : p a)
    (hba : (l.filter (fun a => p a) ++ l.filter (fun a => ¬ p a)).idxOf b
      ≤ (l.filter (fun a => p a) ++ l.filter (fun a => ¬ p a)).idxOf a) : p b := by
  by_contra hpb
  have ha' : a ∈ l.filter (fun a => p a) := by simp [ha, hpa]
  have hb' : b ∉ l.filter (fun a => p a) := by simp [hpb]
  rw [List.idxOf_append_of_mem ha', List.idxOf_append_of_notMem hb'] at hba
  have := List.idxOf_lt_length_iff.mpr ha'
  omega

end CppTransport.Library
