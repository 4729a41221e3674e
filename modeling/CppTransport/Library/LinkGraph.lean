import CppTransport.Library.TopologicalOrder

/-!
# Directed graphs that grow

A directed graph is built by inserting vertices and adding edges, either of which has
no effect if it is there already. A loop over items adds the edges that its items add
(`edge_foldl`). Distances are taken from a shortest-path algorithm, of which is used only
that they are finite where there is a path (`IsDistance`).
-/

set_option linter.unusedSectionVars false

namespace CppTransport.Library

/-- A directed graph, its vertices and edges in the order in which they were added. -/
structure LinkGraph (V : Type*) where
  vertices : List V
  edges : List (V × V)

namespace LinkGraph

variable {V : Type*} [DecidableEq V]

/-- The graph without vertices. -/
def empty : LinkGraph V := ⟨[], []⟩

/-- A vertex is inserted if it is not there. -/
def insert (G : LinkGraph V) (v : V) : LinkGraph V :=
  if v ∈ G.vertices then G else { G with vertices := G.vertices ++ [v] }

/-- An edge is added if it is not there. -/
def add_edge (G : LinkGraph V) (v w : V) : LinkGraph V :=
  if (v, w) ∈ G.edges then G else { G with edges := G.edges ++ [(v, w)] }

/-- The source of an edge is inserted, and the edge is added. -/
def link (G : LinkGraph V) (v w : V) : LinkGraph V := (G.insert v).add_edge v w

/-- The edges as a relation. -/
def Edge (G : LinkGraph V) (v w : V) : Prop := (v, w) ∈ G.edges

/-- Edges go from vertices to vertices. -/
def Closed (G : LinkGraph V) : Prop := ∀ v w, G.Edge v w → v ∈ G.vertices ∧ w ∈ G.vertices

/-- Distances as a shortest-path algorithm gives them: below the maximum where there is a path. -/
def IsDistance (G : LinkGraph V) (max : ℕ) (D : V → V → ℕ) : Prop :=
  ∀ v ∈ G.vertices, ∀ w ∈ G.vertices, D v w < max ↔ Relation.ReflTransGen G.Edge v w

variable {G G' : LinkGraph V} {u v w : V}

@[simp] theorem mem_vertices_insert : u ∈ (G.insert v).vertices ↔ u ∈ G.vertices ∨ u = v := by
  rw [insert]
  split_ifs with h
  · exact ⟨.inl, fun hu => hu.elim id fun e => e ▸ h⟩
  · simp

@[simp] theorem edge_insert {a b : V} : (G.insert v).Edge a b ↔ G.Edge a b := by
  rw [insert]
  split_ifs <;> rfl

@[simp] theorem mem_vertices_add_edge : u ∈ (G.add_edge v w).vertices ↔ u ∈ G.vertices := by
  rw [add_edge]
  split_ifs <;> rfl

@[simp] theorem edge_add_edge {a b : V} : (G.add_edge v w).Edge a b ↔ G.Edge a b ∨ (a = v ∧ b = w) := by
  rw [add_edge, Edge, Edge]
  split_ifs with h
  · exact ⟨.inl, fun hab => hab.elim id fun e => e.1 ▸ e.2 ▸ h⟩
  · simp

@[simp] theorem mem_vertices_link : u ∈ (G.link v w).vertices ↔ u ∈ G.vertices ∨ u = v := by simp [link]

@[simp] theorem edge_link {a b : V} : (G.link v w).Edge a b ↔ G.Edge a b ∨ (a = v ∧ b = w) := by simp [link]

@[simp] theorem edge_empty {a b : V} : ¬ (empty : LinkGraph V).Edge a b := List.not_mem_nil

theorem closed_empty : (empty : LinkGraph V).Closed := fun _ _ h => absurd h edge_empty

theorem Closed.insert (h : G.Closed) (v : V) : (G.insert v).Closed := by
  intro a b hab
  obtain ⟨ha, hb⟩ := h a b (edge_insert.mp hab)
  exact ⟨mem_vertices_insert.mpr (.inl ha), mem_vertices_insert.mpr (.inl hb)⟩

/-- A link to a vertex keeps the graph closed. -/
theorem Closed.link (h : G.Closed) (hw : w ∈ G.vertices) : (G.link v w).Closed := by
  intro a b hab
  rcases edge_link.mp hab with hab | ⟨rfl, rfl⟩
  · obtain ⟨ha, hb⟩ := h a b hab
    exact ⟨mem_vertices_link.mpr (.inl ha), mem_vertices_link.mpr (.inl hb)⟩
  · exact ⟨mem_vertices_link.mpr (.inr rfl), mem_vertices_link.mpr (.inl hw)⟩

/-- **Growth**: if each item adds the edges of `r`, then a loop over items adds those of all. -/
theorem edge_foldl {α : Type*} {f : LinkGraph V → α → LinkGraph V} {r : α → V → V → Prop} {l : List α}
    (adds : ∀ G, ∀ i ∈ l, ∀ a b, (f G i).Edge a b ↔ G.Edge a b ∨ r i a b) {a b : V} :
    (l.foldl f G).Edge a b ↔ G.Edge a b ∨ ∃ i ∈ l, r i a b := by
  induction l generalizing G with
  | nil => simp
  | cons i l ih =>
    rw [List.foldl_cons, ih fun G j hj => adds G j (by simp [hj]), adds G i (by simp), List.exists_mem_cons_iff,
      or_assoc]

/-- What holds of a graph and is kept by each item holds after a loop over items. -/
theorem foldl_keeps {α : Type*} {f : LinkGraph V → α → LinkGraph V} {P : LinkGraph V → Prop} {l : List α}
    (keeps : ∀ G, ∀ i ∈ l, P G → P (f G i)) (h : P G) : P (l.foldl f G) := by
  induction l generalizing G with
  | nil => exact h
  | cons i l ih => exact ih (fun G j hj => keeps G j (by simp [hj])) (keeps G i (by simp) h)

/-- What is kept by each item, and brought about by one of them, holds after a loop over items. -/
theorem foldl_reaches {α : Type*} {f : LinkGraph V → α → LinkGraph V} {P : LinkGraph V → Prop} {l : List α}
    (keeps : ∀ G, ∀ i ∈ l, P G → P (f G i)) {i : α} (hi : i ∈ l) (reaches : ∀ G, P (f G i)) :
    P (l.foldl f G) := by
  obtain ⟨before, after, rfl⟩ := List.append_of_mem hi
  rw [List.foldl_append, List.foldl_cons]
  exact foldl_keeps (fun G j hj => keeps G j (by simp [hj])) (reaches _)

/-! ### Loops that may fail -/

/-- `edge_foldl`, for a loop whose items may fail. -/
theorem edge_foldlM {α : Type*} {f : LinkGraph V → α → Option (LinkGraph V)} {r : α → V → V → Prop} {l : List α}
    (adds : ∀ G, ∀ i ∈ l, ∀ G', f G i = some G' → ∀ a b, G'.Edge a b ↔ G.Edge a b ∨ r i a b)
    (h : l.foldlM f G = some G') {a b : V} : G'.Edge a b ↔ G.Edge a b ∨ ∃ i ∈ l, r i a b := by
  induction l generalizing G with
  | nil => cases h; simp
  | cons i l ih =>
    obtain ⟨G₁, h₁, h₂⟩ := Option.bind_eq_some_iff.mp h
    rw [ih (fun G j hj => adds G j (by simp [hj])) h₂, adds G i (by simp) G₁ h₁,
      List.exists_mem_cons_iff, or_assoc]

/-- `foldl_keeps`, for a loop whose items may fail. -/
theorem foldlM_keeps {α : Type*} {f : LinkGraph V → α → Option (LinkGraph V)} {P : LinkGraph V → Prop} {l : List α}
    (keeps : ∀ G, ∀ i ∈ l, ∀ G', f G i = some G' → P G → P G') (h : l.foldlM f G = some G') (hG : P G) :
    P G' := by
  induction l generalizing G with
  | nil => cases h; exact hG
  | cons i l ih =>
    obtain ⟨G₁, h₁, h₂⟩ := Option.bind_eq_some_iff.mp h
    exact ih (fun G j hj => keeps G j (by simp [hj])) h₂ (keeps G i (by simp) G₁ h₁ hG)

/-- A loop succeeds if each of its items does. -/
theorem foldlM_isSome {α : Type*} {f : LinkGraph V → α → Option (LinkGraph V)} {l : List α}
    (h : ∀ G, ∀ i ∈ l, (f G i).isSome) (G : LinkGraph V) : (l.foldlM f G).isSome := by
  induction l generalizing G with
  | nil => rfl
  | cons i l ih =>
    obtain ⟨G₁, h₁⟩ := Option.isSome_iff_exists.mp (h G i (by simp))
    rw [List.foldlM_cons, h₁]
    exact ih (fun G j hj => h G j (by simp [hj])) G₁

/-- A loop whose items succeed more often does as well. -/
theorem foldlM_mono {α : Type*} {f f' : LinkGraph V → α → Option (LinkGraph V)} {l : List α}
    (mono : ∀ G i G', f G i = some G' → f' G i = some G') (h : l.foldlM f G = some G') :
    l.foldlM f' G = some G' := by
  induction l generalizing G with
  | nil => exact h
  | cons i l ih =>
    obtain ⟨G₁, h₁, h₂⟩ := Option.bind_eq_some_iff.mp h
    rw [List.foldlM_cons, mono G i G₁ h₁]
    exact ih h₂

/-! ### Paths -/

theorem Closed.mem_of_transGen (h : G.Closed) (path : Relation.TransGen G.Edge v w) :
    v ∈ G.vertices ∧ w ∈ G.vertices := by
  obtain ⟨a, va, -⟩ := Relation.TransGen.head'_iff.mp path
  obtain ⟨b, -, bw⟩ := Relation.TransGen.tail'_iff.mp path
  exact ⟨(h v a va).1, (h b w bw).2⟩

/-- Between different names, the distance is below the maximum where there is a chain of edges. -/
theorem Closed.distance_iff (h : G.Closed) {max : ℕ} {D : V → V → ℕ} (hD : G.IsDistance max D) (ne : v ≠ w) :
    (v ∈ G.vertices ∧ w ∈ G.vertices ∧ D v w < max) ↔ Relation.TransGen G.Edge v w := by
  constructor
  · rintro ⟨hv, hw, lt⟩
    rcases Relation.reflTransGen_iff_eq_or_transGen.mp ((hD v hv w hw).mp lt) with same | path
    · exact absurd same.symm ne
    · exact path
  · intro path
    obtain ⟨hv, hw⟩ := h.mem_of_transGen path
    exact ⟨hv, hw, (hD v hv w hw).mpr path.to_reflTransGen⟩

open Classical in
/-- There are distances: `0` where there is a path, and the maximum where there is none. -/
theorem isDistance_zero_or (G : LinkGraph V) {max : ℕ} (pos : 0 < max) :
    G.IsDistance max fun v w => if Relation.ReflTransGen G.Edge v w then 0 else max := by
  intro v _ w _
  by_cases path : Relation.ReflTransGen G.Edge v w <;> simp [path, pos]

end LinkGraph

end CppTransport.Library
