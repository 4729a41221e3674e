import CppTransport.Library.LinkGraph
import CppTransport.Runtime.TaskSchedule

/-!
# The graphs of content groups

`repository_graphkit` builds two graphs of content groups. The distance matrix, which
decides what may be deleted, is built in one pass over all records. The dependency graph
of given groups, from which their provenance is reported, follows the records of these
groups, of the groups they were made from, and of their tasks.

## The model

* `ContentDatabase`: the records that `enumerate_integration_task_content` and its
  siblings give, and the tasks;
* `content_group_distance_matrix`: the graph whose all-pairs distances are computed;
* `content_group_dependency`, `follow_content_dependency`, `follow_task_dependency`: the
  walk. It takes fuel, and `Returns` says that enough fuel gives a graph;
* `find_dependent_objects`, `find_dependencies`: read off the distances, which come from
  the graph library (`LinkGraph.IsDistance`).

Vertices are names, whatever they name.

## What is proved

* `edge_distance_graph`, `follow_edge_iff`: the edges of the two graphs;
* `exists_follow`: in an acyclic repository the walk ends;
* `transGen_distance_graph_iff`, `transGen_follow_iff`: the chains of edges;
* `graphs_agree_iff`: for two groups the graphs agree with each other, and with the chains
  of parent and seed links, if and only if some chain between them avoids the seeds of
  integration groups, and the task behind them does not bear the name of the first.
-/

namespace CppTransport.Runtime

open Library
open scoped Library.OrderedMap

/-! ### Records -/

/-- The record of an integration content group; `τ` is the type of names. -/
structure IntegrationGroup (τ : Type*) where
  name : τ
  task_name : τ
  lock_status : Bool
  /-- The seed group, if the payload `is_seeded`. -/
  seed_group : Option τ

/-- The record of a postintegration content group. -/
structure PostintegrationGroup (τ : Type*) where
  name : τ
  task_name : τ
  lock_status : Bool
  parent_group : τ
  /-- The seed group, if the payload `is_seeded`. -/
  seed_group : Option τ

/-- The record of an output content group. -/
structure OutputGroup (τ : Type*) where
  name : τ
  task_name : τ
  lock_status : Bool
  /-- The groups that its content was made from. -/
  content_groups_summary : List τ

/-- What `follow_task_dependency` reads of a task record. -/
inductive TaskSource (τ : Type*) where
  /-- An integration, with its package of initial conditions. -/
  | integration (ics_group : τ)
  /-- A postintegration task, with its parent. -/
  | postintegration (parent : τ)
  | output

/-- The content groups of a repository, and its tasks. -/
structure ContentDatabase (τ : Type*) [LinearOrder τ] where
  integration : List (IntegrationGroup τ)
  postintegration : List (PostintegrationGroup τ)
  output : List (OutputGroup τ)
  tasks : List (τ × TaskSource τ)
  /-- The records come from maps. -/
  integration_sorted : (integration.map (·.name)).Pairwise (· < ·)
  postintegration_sorted : (postintegration.map (·.name)).Pairwise (· < ·)
  output_sorted : (output.map (·.name)).Pairwise (· < ·)
  tasks_sorted : (tasks.map (·.1)).Pairwise (· < ·)
  /-- A group is committed only if no group of any kind has its name. -/
  integration_distinct : ∀ i ∈ integration, ∀ p ∈ postintegration, i.name ≠ p.name
  integration_output : ∀ i ∈ integration, ∀ o ∈ output, i.name ≠ o.name
  /-- Nothing is postprocessed from the product of an output task. -/
  postintegration_output : ∀ p ∈ postintegration, ∀ o ∈ output,
    p.name ≠ o.name ∧ p.parent_group ≠ o.name ∧ p.seed_group ≠ some o.name

variable {τ : Type*} [LinearOrder τ]

namespace ContentDatabase

variable (db : ContentDatabase τ)

/-- `integration_content.find(name)`. -/
def find_integration (name : τ) : Option (IntegrationGroup τ) := db.integration.find? fun u => u.name = name

/-- `postintegration_content.find(name)`. -/
def find_postintegration (name : τ) : Option (PostintegrationGroup τ) :=
  db.postintegration.find? fun u => u.name = name

/-- `db.find(name)` among the tasks. -/
def find_task (name : τ) : Option (TaskSource τ) := (db.tasks.find? fun u => u.1 = name).map (·.2)

/-! ### The distance matrix -/

/-- One postintegration group of the loop: its parent, and its seed if it has one. -/
def insert_postintegration (G : LinkGraph τ) (rec : PostintegrationGroup τ) : LinkGraph τ :=
  let G := (G.insert rec.name).link rec.parent_group rec.name
  match rec.seed_group with
  | some seed => G.link seed rec.name
  | none => G

/-- One output group of the loop. -/
def insert_output (G : LinkGraph τ) (rec : OutputGroup τ) : LinkGraph τ :=
  rec.content_groups_summary.foldl (fun G group => G.link group rec.name) (G.insert rec.name)

/-- The graph of `content_group_distance_matrix`. -/
def distance_graph : LinkGraph τ :=
  let G := db.integration.foldl (fun G rec => G.insert rec.name) LinkGraph.empty
  let G := db.postintegration.foldl insert_postintegration G
  db.output.foldl insert_output G

/-! ### The dependency graph -/

/-- `follow_task_dependency`. -/
def follow_task_dependency (G : LinkGraph τ) (name : τ) : LinkGraph τ :=
  match db.find_task name with
  | some (.integration ics_group) => G.link ics_group name
  | some (.postintegration parent) => G.link parent name
  -- asserted not to occur: no group of interest belongs to an output task
  | some .output => G
  | none => G

/-- `follow_content_dependency`; the fuel bounds the depth of the recursion. -/
def follow_content_dependency : ℕ → LinkGraph τ → τ → Option (LinkGraph τ)
  | 0, _, _ => none
  | fuel + 1, G, name =>
    match db.find_integration name with
    | some rec => do
      let G := G.insert name
      let G ← match rec.seed_group with
        | some seed => follow_content_dependency fuel (G.link seed name) seed
        | none => some G
      some (db.follow_task_dependency (G.link rec.task_name name) rec.task_name)
    | none =>
      match db.find_postintegration name with
      | some rec => do
        let G := G.insert name
        let G ← match rec.seed_group with
          | some seed => follow_content_dependency fuel (G.link seed name) seed
          | none => some G
        let G ← follow_content_dependency fuel (G.link rec.parent_group name) rec.parent_group
        some (db.follow_task_dependency (G.link rec.task_name name) rec.task_name)
      | none => some G

/-- `content_group_dependency`. -/
def content_group_dependency (fuel : ℕ) (groups : List τ) : Option (LinkGraph τ) :=
  groups.foldlM (db.follow_content_dependency fuel) LinkGraph.empty

/-- `content_group_dependency` returns the graph. -/
def Returns (groups : List τ) (G : LinkGraph τ) : Prop :=
  ∃ enough, ∀ fuel, enough ≤ fuel → db.content_group_dependency fuel groups = some G

end ContentDatabase

/-- A distance matrix: the graph, and the distances. -/
structure RepositoryDistanceMatrix (τ : Type*) where
  G : LinkGraph τ
  D : τ → τ → ℕ

namespace RepositoryDistanceMatrix

variable (m : RepositoryDistanceMatrix τ)

/-- `find_dependent_objects`; `none` if the vertex map throws. -/
def find_dependent_objects (name : τ) : Option (Finset τ) :=
  if name ∈ m.G.vertices then
    some (m.G.vertices.foldl (fun objects vtx =>
      if vtx ≠ name ∧ m.D name vtx < uint_max then insert vtx objects else objects) ∅)
  else none

/-- `find_dependencies`; `none` if the vertex map throws. -/
def find_dependencies (name : τ) : Option (Finset τ) :=
  if name ∈ m.G.vertices then
    some (m.G.vertices.foldl (fun objects vtx =>
      if vtx ≠ name ∧ m.D vtx name < uint_max then insert vtx objects else objects) ∅)
  else none

end RepositoryDistanceMatrix

namespace ContentDatabase

variable (db : ContentDatabase τ)

/-! ### Links between groups -/

/-- The seed and the parent of a group, as far as it has them. -/
def links (name : τ) : List τ :=
  match db.find_integration name with
  | some rec => rec.seed_group.toList
  | none =>
    match db.find_postintegration name with
    | some rec => rec.seed_group.toList ++ [rec.parent_group]
    | none => []

/-- The task of an integration or postintegration group. -/
def task_name (name : τ) : Option τ :=
  match db.find_integration name with
  | some rec => some rec.task_name
  | none => (db.find_postintegration name).map (·.task_name)

/-- The package of an integration, the parent of a postintegration task. -/
def task_source (name : τ) : Option τ :=
  match db.find_task name with
  | some (.integration ics_group) => some ics_group
  | some (.postintegration parent) => some parent
  | _ => none

/-- `g` is the parent or the seed of `h`. -/
def Link (g h : τ) : Prop := g ∈ db.links h

/-- `h` was built from `g`, through any chain of links. -/
def BuiltFrom : τ → τ → Prop := Relation.TransGen db.Link

/-- `g` is the parent or the seed of the postintegration group `h`. -/
def PostintegrationLink (g h : τ) : Prop := db.Link g h ∧ db.find_integration h = none

/-- The edges into a group and into its task. -/
def EdgeOf (name a b : τ) : Prop :=
  (db.Link a name ∧ b = name) ∨
    ∃ task, db.task_name name = some task ∧ ((a = task ∧ b = name) ∨ (db.task_source task = some a ∧ b = task))

/-- The task of `h`, or of a group that `h` was built from, or the package or parent of that
task, bears the name `g`. -/
def NamesTaskBehind (g h : τ) : Prop :=
  ∃ name task, Relation.ReflTransGen db.Link name h ∧ db.task_name name = some task ∧
    (g = task ∨ db.task_source task = some g)

/-- An integration or postintegration group. -/
def IsGroup (name : τ) : Prop :=
  name ∈ db.integration.map (·.name) ∨ name ∈ db.postintegration.map (·.name)

instance (name : τ) : Decidable (db.IsGroup name) := inferInstanceAs (Decidable (_ ∨ _))

variable {db} {G G' : LinkGraph τ} {name g h : τ}

theorem task_name_isSome_iff : (db.task_name name).isSome ↔ db.IsGroup name := by
  have hi : (db.find_integration name).isSome ↔ name ∈ db.integration.map (·.name) := by
    simp [find_integration, List.find?_isSome]
  have hp : (db.find_postintegration name).isSome ↔ name ∈ db.postintegration.map (·.name) := by
    simp [find_postintegration, List.find?_isSome]
  rw [IsGroup, ← hi, ← hp, task_name]
  cases db.find_integration name <;> simp

theorem IsGroup.exists_task (hg : db.IsGroup name) : ∃ task, db.task_name name = some task :=
  Option.isSome_iff_exists.mp (task_name_isSome_iff.mpr hg)

/-- Only groups have links. -/
theorem Link.isGroup (hl : db.Link g h) : db.IsGroup h := by
  rw [← task_name_isSome_iff, task_name]
  rw [Link, links] at hl
  cases hi : db.find_integration h with
  | some rec => rfl
  | none =>
    cases hp : db.find_postintegration h with
    | some rec => rfl
    | none => simp [hi, hp] at hl

/-! ### The edges of the walk -/

/-- A task adds the edge from what it is made from. -/
theorem edge_follow_task_dependency {a b : τ} :
    (db.follow_task_dependency G name).Edge a b ↔ G.Edge a b ∨ (db.task_source name = some a ∧ b = name) := by
  rw [follow_task_dependency, task_source]
  cases db.find_task name with
  | none => simp
  | some source => cases source <;> simp [eq_comm]

/-- The walk of one group, whatever its kind: its links in turn, then its task. -/
theorem follow_content_dependency_succ (fuel : ℕ) (G : LinkGraph τ) (name : τ) :
    db.follow_content_dependency (fuel + 1) G name =
      match db.task_name name with
      | some task =>
        ((db.links name).foldlM (fun G a => db.follow_content_dependency fuel (G.link a name) a)
          (G.insert name)).map fun G => db.follow_task_dependency (G.link task name) task
      | none => some G := by
  rw [follow_content_dependency, task_name, links]
  cases db.find_integration name with
  | some rec => cases hs : rec.seed_group <;> simp [hs, Option.map_eq_bind]
  | none =>
    cases db.find_postintegration name with
    | some rec => cases hs : rec.seed_group <;> simp [hs, Option.map_eq_bind, Option.bind_assoc]
    | none => rfl

/-- What one group adds to the graph is the same at every depth of the recursion: the edges of the
group, and of the groups that it was built from. -/
theorem follow_edge_iff {fuel : ℕ} (hf : db.follow_content_dependency fuel G name = some G') {a b : τ} :
    G'.Edge a b ↔ G.Edge a b ∨ ∃ x, Relation.ReflTransGen db.Link x name ∧ db.EdgeOf x a b := by
  induction fuel generalizing G G' name a b with
  | zero => cases hf
  | succ fuel ih =>
    rw [follow_content_dependency_succ] at hf
    cases ht : db.task_name name with
    | none =>
      -- the name is not that of a group: it has neither edges nor predecessors
      have no_link : ∀ c, ¬ db.Link c name := fun c hc => by
        have := task_name_isSome_iff.mpr hc.isGroup
        simp [ht] at this
      simp only [ht, Option.some.injEq] at hf
      subst hf
      constructor
      · exact .inl
      · rintro (hG | ⟨x, hx, link | ⟨task, htask, -⟩⟩)
        · exact hG
        · rcases hx.cases_tail with rfl | ⟨c, -, hc⟩
          · exact absurd link.1 (no_link a)
          · exact absurd hc (no_link c)
        · rcases hx.cases_tail with rfl | ⟨c, -, hc⟩
          · simp [ht] at htask
          · exact absurd hc (no_link c)
    | some task =>
      simp only [ht, Option.map_eq_some_iff] at hf
      obtain ⟨G₁, h₁, rfl⟩ := hf
      have links := LinkGraph.edge_foldlM
        (r := fun c a b => (a = c ∧ b = name) ∨ ∃ x, Relation.ReflTransGen db.Link x c ∧ db.EdgeOf x a b)
        (fun G c _ G' hG' a b => by rw [ih hG', LinkGraph.edge_link, or_assoc]) h₁ (a := a) (b := b)
      rw [edge_follow_task_dependency, LinkGraph.edge_link, links, LinkGraph.edge_insert]
      constructor
      · rintro (((hG | ⟨c, hc, ⟨rfl, rfl⟩ | ⟨x, hx, edge⟩⟩) | ⟨rfl, rfl⟩) | ⟨source, rfl⟩)
        · exact .inl hG
        · exact .inr ⟨b, .refl, .inl ⟨hc, rfl⟩⟩
        · exact .inr ⟨x, hx.tail hc, edge⟩
        · exact .inr ⟨b, .refl, .inr ⟨a, ht, .inl ⟨rfl, rfl⟩⟩⟩
        · exact .inr ⟨name, .refl, .inr ⟨b, ht, .inr ⟨source, rfl⟩⟩⟩
      · rintro (hG | ⟨x, hx, edge⟩)
        · exact .inl (.inl (.inl hG))
        · rcases hx.cases_tail with rfl | ⟨c, hxc, hc⟩
          · rcases edge with ⟨link, rfl⟩ | ⟨t, htask, ⟨rfl, rfl⟩ | ⟨source, rfl⟩⟩
            · exact .inl (.inl (.inr ⟨a, link, .inl ⟨rfl, rfl⟩⟩))
            · rw [ht, Option.some.injEq] at htask
              exact .inl (.inr ⟨htask.symm, rfl⟩)
            · rw [ht, Option.some.injEq] at htask
              exact .inr ⟨htask ▸ source, htask.symm⟩
          · exact .inl (.inl (.inr ⟨c, hc, .inr ⟨x, hxc, edge⟩⟩))

theorem follow_task_closed (hG : G.Closed) (hn : name ∈ G.vertices) :
    (db.follow_task_dependency G name).Closed := by
  rw [follow_task_dependency]
  split
  · exact hG.link hn
  · exact hG.link hn
  · exact hG
  · exact hG

theorem mem_follow_task {v : τ} (hv : v ∈ G.vertices) : v ∈ (db.follow_task_dependency G name).vertices := by
  rw [follow_task_dependency]
  split <;> simp [hv]

/-- The graph stays closed, and keeps its vertices. -/
theorem follow_closed {fuel : ℕ} (hf : db.follow_content_dependency fuel G name = some G') (hG : G.Closed) :
    G'.Closed ∧ ∀ v ∈ G.vertices, v ∈ G'.vertices := by
  induction fuel generalizing G G' name with
  | zero => cases hf
  | succ fuel ih =>
    rw [follow_content_dependency_succ] at hf
    cases ht : db.task_name name with
    | none =>
      simp only [ht, Option.some.injEq] at hf
      subst hf
      exact ⟨hG, fun v hv => hv⟩
    | some task =>
      simp only [ht, Option.map_eq_some_iff] at hf
      obtain ⟨G₁, h₁, rfl⟩ := hf
      obtain ⟨closed, hn, grows⟩ := LinkGraph.foldlM_keeps
        (P := fun H => H.Closed ∧ name ∈ H.vertices ∧ ∀ v ∈ G.vertices, v ∈ H.vertices)
        (fun H a _ H' hH' ⟨closed, hn, grows⟩ => by
          obtain ⟨closed', grows'⟩ := ih hH' (closed.link hn)
          exact ⟨closed', grows' _ (by simp [hn]), fun v hv => grows' v (by simp [grows v hv])⟩)
        h₁ ⟨hG.insert name, by simp, fun v hv => by simp [hv]⟩
      exact ⟨follow_task_closed (closed.link hn) (by simp), fun v hv => mem_follow_task (by simp [grows v hv])⟩

theorem mem_follow_of_isGroup {fuel : ℕ} (hf : db.follow_content_dependency fuel G name = some G') (hG : G.Closed)
    (hn : db.IsGroup name) : name ∈ G'.vertices := by
  -- the edge from its task leads to the group
  obtain ⟨task, ht⟩ := hn.exists_task
  have edge : G'.Edge task name :=
    (follow_edge_iff hf).mpr (.inr ⟨name, .refl, .inr ⟨task, ht, .inl ⟨rfl, rfl⟩⟩⟩)
  exact ((follow_closed hf hG).1 task name edge).2

/-! ### The walk ends -/

theorem follow_mono {fuel : ℕ} (hf : db.follow_content_dependency fuel G name = some G') :
    db.follow_content_dependency (fuel + 1) G name = some G' := by
  induction fuel generalizing G G' name with
  | zero => cases hf
  | succ fuel ih =>
    rw [follow_content_dependency_succ] at hf ⊢
    cases ht : db.task_name name with
    | none => simpa only [ht] using hf
    | some task =>
      simp only [ht, Option.map_eq_some_iff] at hf ⊢
      obtain ⟨G₁, h₁, eq⟩ := hf
      exact ⟨G₁, LinkGraph.foldlM_mono (fun H a H' => ih) h₁, eq⟩

theorem follow_mono_le {fuel enough : ℕ} (le : enough ≤ fuel)
    (hf : db.follow_content_dependency enough G name = some G') :
    db.follow_content_dependency fuel G name = some G' := by
  induction fuel, le using Nat.le_induction with
  | base => exact hf
  | succ fuel _ ih => exact follow_mono ih

/-- The walk of a group goes no deeper than the position of the group in a list where each group comes
after those that it was built from. -/
theorem follow_isSome {order : List τ} (topological : Library.TopologicalOrder db.Link order)
    (acyclic : Library.Acyclic db.Link) (groups : ∀ n, db.IsGroup n → n ∈ order) {depth : ℕ}
    (hd : db.IsGroup name → order.idxOf name < depth) :
    (db.follow_content_dependency (depth + 1) G name).isSome := by
  induction depth generalizing G name with
  | zero =>
    rw [follow_content_dependency_succ]
    cases ht : db.task_name name with
    | none => rfl
    | some task => exact absurd (hd (task_name_isSome_iff.mp (by simp [ht]))) (Nat.not_lt_zero _)
  | succ depth ih =>
    rw [follow_content_dependency_succ]
    cases ht : db.task_name name with
    | none => rfl
    | some task =>
      have hn : db.IsGroup name := task_name_isSome_iff.mp (by simp [ht])
      rw [Option.isSome_map]
      refine LinkGraph.foldlM_isSome (fun H a ha => ih fun ga => ?_) _
      have := topological.idxOf_lt acyclic (groups a ga) (groups name hn) ha
      have := hd hn
      omega

/-- **Termination**: in an acyclic repository the walk ends. -/
theorem exists_follow (acyclic : Library.Acyclic db.Link) (G : LinkGraph τ) (name : τ) :
    ∃ enough G', ∀ fuel, enough ≤ fuel → db.follow_content_dependency fuel G name = some G' := by
  have nodup : (db.integration.map (·.name) ++ db.postintegration.map (·.name)).Nodup := by
    refine List.nodup_append'.mpr ⟨db.integration_sorted.imp ne_of_lt, db.postintegration_sorted.imp ne_of_lt, ?_⟩
    intro n hi hp
    obtain ⟨i, mi, rfl⟩ := List.mem_map.mp hi
    obtain ⟨p, mp, eq⟩ := List.mem_map.mp hp
    exact db.integration_distinct i mi p mp eq.symm
  obtain ⟨order, perm, topological⟩ := exists_topologicalOrder acyclic nodup
  have groups : ∀ n, db.IsGroup n → n ∈ order := fun n hn => perm.mem_iff.mpr (List.mem_append.mpr hn)
  obtain ⟨G', hG'⟩ := Option.isSome_iff_exists.mp
    (follow_isSome (G := G) topological acyclic groups
      fun hn => List.idxOf_lt_length_iff.mpr (groups name hn))
  exact ⟨order.length + 1, G', fun fuel le => follow_mono_le le hG'⟩

/-! ### The edges of the distance matrix -/

/-- An edge of the matrix leads to a postintegration group, from its parent or its seed, or to the product
of an output task. -/
theorem edge_distance_graph {a b : τ} :
    db.distance_graph.Edge a b ↔
      (∃ rec ∈ db.postintegration, (a = rec.parent_group ∨ rec.seed_group = some a) ∧ b = rec.name) ∨
        ∃ rec ∈ db.output, a ∈ rec.content_groups_summary ∧ b = rec.name := by
  have integration : ∀ G : LinkGraph τ,
      (db.integration.foldl (fun G rec => G.insert rec.name) G).Edge a b ↔ G.Edge a b := by
    intro G
    have := LinkGraph.edge_foldl (G := G) (f := fun G rec => G.insert rec.name) (r := fun _ _ _ => False)
      (l := db.integration) (fun G i _ a b => by simp) (a := a) (b := b)
    simpa using this
  have postintegration := fun G : LinkGraph τ => LinkGraph.edge_foldl (G := G) (f := insert_postintegration)
    (r := fun rec a b => (a = rec.parent_group ∨ rec.seed_group = some a) ∧ b = rec.name)
    (l := db.postintegration) (fun G rec _ a b => by
      rw [insert_postintegration]
      cases rec.seed_group <;> simp [or_assoc, or_and_right, eq_comm]) (a := a) (b := b)
  have output := fun G : LinkGraph τ => LinkGraph.edge_foldl (G := G) (f := insert_output)
    (r := fun rec a b => a ∈ rec.content_groups_summary ∧ b = rec.name)
    (l := db.output) (fun G rec _ a b => by
      rw [insert_output, LinkGraph.edge_foldl (r := fun group a b => a = group ∧ b = rec.name)
        (fun G group _ a b => by simp)]
      simp) (a := a) (b := b)
  rw [distance_graph, output, postintegration, integration]
  simp

theorem closed_insert_postintegration (rec : PostintegrationGroup τ) (hG : G.Closed) :
    (insert_postintegration G rec).Closed := by
  have closed := (hG.insert rec.name).link (v := rec.parent_group) (w := rec.name) (by simp)
  rw [insert_postintegration]
  split
  · exact closed.link (by simp)
  · exact closed

theorem mem_insert_postintegration (rec : PostintegrationGroup τ) {v : τ} (hv : v ∈ G.vertices ∨ v = rec.name) :
    v ∈ (insert_postintegration G rec).vertices := by
  rw [insert_postintegration]
  split <;> simp [hv]

/-- An output group keeps the graph closed, and its vertices. -/
theorem insert_output_keeps (rec : OutputGroup τ) (hG : G.Closed) :
    (insert_output G rec).Closed ∧ ∀ v ∈ G.vertices, v ∈ (insert_output G rec).vertices := by
  obtain ⟨closed, -, grows⟩ := LinkGraph.foldl_keeps
    (f := fun G group => G.link group rec.name) (l := rec.content_groups_summary)
    (P := fun H => H.Closed ∧ rec.name ∈ H.vertices ∧ ∀ v ∈ G.vertices, v ∈ H.vertices)
    (fun H group _ ⟨closed, hn, grows⟩ => ⟨closed.link hn, by simp [hn], fun v hv => by simp [grows v hv]⟩)
    ⟨hG.insert rec.name, by simp, fun v hv => by simp [hv]⟩
  exact ⟨closed, grows⟩

/-- The groups are vertices of the matrix, and its edges are between vertices. -/
theorem closed_distance_graph :
    db.distance_graph.Closed ∧ ∀ n, db.IsGroup n → n ∈ db.distance_graph.vertices := by
  have integration := LinkGraph.foldl_keeps (f := fun G rec => G.insert rec.name) (l := db.integration)
    (P := LinkGraph.Closed) (fun G rec _ hG => hG.insert rec.name) LinkGraph.closed_empty
  have postintegration := LinkGraph.foldl_keeps (f := insert_postintegration) (l := db.postintegration)
    (P := LinkGraph.Closed) (fun G rec _ hG => closed_insert_postintegration rec hG) integration
  obtain ⟨closed, grows⟩ := LinkGraph.foldl_keeps (f := insert_output) (l := db.output)
    (P := fun H => H.Closed ∧ ∀ v ∈ (db.postintegration.foldl insert_postintegration
      (db.integration.foldl (fun G (rec : IntegrationGroup τ) => G.insert rec.name) LinkGraph.empty)).vertices,
        v ∈ H.vertices)
    (fun H rec _ ⟨closed, grows⟩ =>
      ⟨(insert_output_keeps rec closed).1, fun v hv => (insert_output_keeps rec closed).2 v (grows v hv)⟩)
    ⟨postintegration, fun v hv => hv⟩
  refine ⟨closed, fun n hn => grows n ?_⟩
  rcases hn with hn | hn
  · obtain ⟨i, mi, rfl⟩ := List.mem_map.mp hn
    refine LinkGraph.foldl_keeps (P := fun H => i.name ∈ H.vertices)
      (fun H rec _ hv => mem_insert_postintegration rec (.inl hv)) ?_
    exact LinkGraph.foldl_reaches (P := fun H => i.name ∈ H.vertices) (fun H rec _ hv => by simp [hv]) mi
      fun H => by simp
  · obtain ⟨p, mp, rfl⟩ := List.mem_map.mp hn
    exact LinkGraph.foldl_reaches (P := fun H => p.name ∈ H.vertices)
      (fun H rec _ hv => mem_insert_postintegration rec (.inl hv)) mp
      fun H => mem_insert_postintegration p (.inr rfl)

/-- The products of output tasks are vertices of the matrix. -/
theorem mem_distance_graph_output {o : OutputGroup τ} (ho : o ∈ db.output) : o.name ∈ db.distance_graph.vertices := by
  refine LinkGraph.foldl_reaches (P := fun H => o.name ∈ H.vertices) (fun H rec _ hv => ?_) ho fun H => ?_
  · exact LinkGraph.foldl_keeps (P := fun K => o.name ∈ K.vertices) (fun K group _ hK => by simp [hK]) (by simp [hv])
  · exact LinkGraph.foldl_keeps (P := fun K => o.name ∈ K.vertices) (fun K group _ hK => by simp [hK]) (by simp)

theorem postintegrationLink_iff :
    db.PostintegrationLink g h ↔
      ∃ rec ∈ db.postintegration, (g = rec.parent_group ∨ rec.seed_group = some g) ∧ h = rec.name := by
  have find : ∀ rec, db.find_postintegration h = some rec ↔ rec ∈ db.postintegration ∧ rec.name = h := fun rec =>
    Library.find?_key_eq_some_iff (db.postintegration_sorted.imp ne_of_lt)
  constructor
  · rintro ⟨link, hi⟩
    rw [Link, links, hi] at link
    cases hp : db.find_postintegration h with
    | none => simp [hp] at link
    | some rec =>
      obtain ⟨mem, eq⟩ := (find rec).mp hp
      refine ⟨rec, mem, ?_, eq.symm⟩
      simpa [hp, or_comm] using link
  · rintro ⟨rec, mem, link, rfl⟩
    have hi : db.find_integration rec.name = none := by
      rw [find_integration, List.find?_eq_none]
      intro i mi
      simpa using db.integration_distinct i mi rec mem
    refine ⟨?_, hi⟩
    rw [Link, links, hi, (find rec).mpr ⟨mem, rfl⟩]
    simpa [or_comm] using link

/-- No output task made the group of this name. -/
theorem IsGroup.ne_output (hh : db.IsGroup h) : ∀ o ∈ db.output, h ≠ o.name := by
  intro o mo
  rcases hh with hh | hh
  · obtain ⟨i, mi, rfl⟩ := List.mem_map.mp hh
    exact db.integration_output i mi o mo
  · obtain ⟨p, mp, rfl⟩ := List.mem_map.mp hh
    exact (db.postintegration_output p mp o mo).1

/-- The chains of the distance matrix that end in a group consist of parents and seeds of postintegration
groups. -/
theorem transGen_distance_graph_iff (hh : db.IsGroup h) :
    Relation.TransGen db.distance_graph.Edge g h ↔ Relation.TransGen db.PostintegrationLink g h := by
  -- an edge to what is not an output group starts from what is not an output group
  have step : ∀ {a b : τ}, (∀ o ∈ db.output, b ≠ o.name) → db.distance_graph.Edge a b →
      db.PostintegrationLink a b ∧ ∀ o ∈ db.output, a ≠ o.name := by
    intro a b hb edge
    rcases edge_distance_graph.mp edge with post | ⟨o, mo, -, rfl⟩
    · refine ⟨postintegrationLink_iff.mpr post, fun o mo => ?_⟩
      obtain ⟨p, mp, rfl | seed, -⟩ := post
      · exact (db.postintegration_output p mp o mo).2.1
      · rintro rfl
        exact (db.postintegration_output p mp o mo).2.2 seed
    · exact absurd rfl (hb o mo)
  constructor
  · intro path
    have not_output := hh.ne_output
    clear hh
    induction path with
    | single edge => exact .single (step not_output edge).1
    | tail _ edge ih =>
      obtain ⟨link, not_output⟩ := step not_output edge
      exact (ih not_output).tail link
  · intro path
    have edges : db.PostintegrationLink ≤ db.distance_graph.Edge := fun a b link =>
      edge_distance_graph.mpr (.inl (postintegrationLink_iff.mp link))
    exact Relation.TransGen.mono edges g h path

/-- The chains of the walk are those of parents and seeds, and those that start from a task. -/
theorem transGen_follow_iff {fuel : ℕ} (hf : db.follow_content_dependency fuel LinkGraph.empty h = some G) :
    Relation.TransGen G.Edge g h ↔ db.BuiltFrom g h ∨ db.NamesTaskBehind g h := by
  have edge_iff : ∀ a b, G.Edge a b ↔ ∃ x, Relation.ReflTransGen db.Link x h ∧ db.EdgeOf x a b := fun a b => by
    rw [follow_edge_iff hf]
    simp
  have links : ∀ {a b : τ}, Relation.ReflTransGen db.Link a b → Relation.ReflTransGen db.Link b h →
      Relation.ReflTransGen G.Edge a b := by
    intro a b hab hbh
    induction hab with
    | refl => exact .refl
    | tail _ link ih => exact (ih (hbh.head link)).tail ((edge_iff _ _).mpr ⟨_, hbh, .inl ⟨link, rfl⟩⟩)
  constructor
  · intro path
    obtain ⟨b, edge, -⟩ := Relation.TransGen.head'_iff.mp path
    obtain ⟨x, hx, ⟨link, rfl⟩ | ⟨task, ht, ⟨rfl, -⟩ | ⟨source, -⟩⟩⟩ := (edge_iff g b).mp edge
    · exact .inl (.head' link hx)
    · exact .inr ⟨x, g, hx, ht, .inl rfl⟩
    · exact .inr ⟨x, task, hx, ht, .inr source⟩
  · rintro (built | ⟨x, task, hx, ht, rfl | source⟩)
    · obtain ⟨b, link, hb⟩ := Relation.TransGen.head'_iff.mp built
      exact .head' ((edge_iff g b).mpr ⟨b, hb, .inl ⟨link, rfl⟩⟩) (links hb .refl)
    · exact .head' ((edge_iff g x).mpr ⟨x, hx, .inr ⟨g, ht, .inl ⟨rfl, rfl⟩⟩⟩) (links hx .refl)
    · exact .head' ((edge_iff g task).mpr ⟨x, hx, .inr ⟨task, ht, .inr ⟨source, rfl⟩⟩⟩)
        (.head ((edge_iff task x).mpr ⟨x, hx, .inr ⟨task, ht, .inl ⟨rfl, rfl⟩⟩⟩) (links hx .refl))

end ContentDatabase

/-! ### Reading off the distances -/

namespace RepositoryDistanceMatrix

variable {m : RepositoryDistanceMatrix τ} {name : τ}

/-- The objects that a loop over the vertices collects. -/
theorem mem_foldl_insert {p : τ → Prop} [DecidablePred p] {vertices : List τ} {objects : Finset τ} {g : τ} :
    g ∈ vertices.foldl (fun objects vtx => if p vtx then insert vtx objects else objects) objects ↔
      g ∈ objects ∨ g ∈ vertices ∧ p g := by
  induction vertices generalizing objects with
  | nil => simp
  | cons v vertices ih =>
    rw [List.foldl_cons, ih]
    split_ifs with hv <;> grind

/-- The dependent objects are the ends of the chains from an object. -/
theorem find_dependent_objects_eq (closed : m.G.Closed) (hD : m.G.IsDistance uint_max m.D)
    (hn : name ∈ m.G.vertices) :
    ∃ objects, m.find_dependent_objects name = some objects ∧
      ∀ g, g ∈ objects ↔ g ≠ name ∧ Relation.TransGen m.G.Edge name g := by
  refine ⟨_, if_pos hn, fun g => ?_⟩
  rw [mem_foldl_insert]
  constructor
  · rintro (none | ⟨hg, ne, lt⟩)
    · simp at none
    · exact ⟨ne, (closed.distance_iff hD ne.symm).mp ⟨hn, hg, lt⟩⟩
  · rintro ⟨ne, path⟩
    obtain ⟨-, hg, lt⟩ := (closed.distance_iff hD ne.symm).mpr path
    exact .inr ⟨hg, ne, lt⟩

/-- The dependencies are the starts of the chains to an object. -/
theorem find_dependencies_eq (closed : m.G.Closed) (hD : m.G.IsDistance uint_max m.D)
    (hn : name ∈ m.G.vertices) :
    ∃ objects, m.find_dependencies name = some objects ∧
      ∀ g, g ∈ objects ↔ g ≠ name ∧ Relation.TransGen m.G.Edge g name := by
  refine ⟨_, if_pos hn, fun g => ?_⟩
  rw [mem_foldl_insert]
  constructor
  · rintro (none | ⟨hg, ne, lt⟩)
    · simp at none
    · exact ⟨ne, (closed.distance_iff hD ne).mp ⟨hg, hn, lt⟩⟩
  · rintro ⟨ne, path⟩
    obtain ⟨hg, -, lt⟩ := (closed.distance_iff hD ne).mpr path
    exact .inr ⟨hg, ne, lt⟩

end RepositoryDistanceMatrix

/-! ### Agreement -/

namespace ContentDatabase

variable (db : ContentDatabase τ)

/-- The walk for `h` ends, `g` is an ancestor of `h` in its graph if and only if `h` is a dependent
object of `g` in the distance matrix, and both if and only if `h` was built from `g`. -/
def GraphsAgree (g h : τ) : Prop :=
  ∃ G, db.Returns [h] G ∧
    ∀ D D' : τ → τ → ℕ, G.IsDistance uint_max D → db.distance_graph.IsDistance uint_max D' →
      ∃ ancestors dependents, (⟨G, D⟩ : RepositoryDistanceMatrix τ).find_dependencies h = some ancestors ∧
        (⟨db.distance_graph, D'⟩ : RepositoryDistanceMatrix τ).find_dependent_objects g = some dependents ∧
        (g ∈ ancestors ↔ h ∈ dependents) ∧ (g ∈ ancestors ↔ db.BuiltFrom g h)

variable {db}

/-- The walk returns one graph, and whatever the distances are, the two sets hold the ends of the chains. -/
theorem exists_sets (acyclic : Library.Acyclic db.Link) {g h : τ} (hg : db.IsGroup g) (hh : db.IsGroup h)
    (ne : g ≠ h) :
    ∃ G, (∀ G', db.Returns [h] G' ↔ G' = G) ∧
      ∀ D D' : τ → τ → ℕ, G.IsDistance uint_max D → db.distance_graph.IsDistance uint_max D' →
        ∃ ancestors dependents, (⟨G, D⟩ : RepositoryDistanceMatrix τ).find_dependencies h = some ancestors ∧
          (⟨db.distance_graph, D'⟩ : RepositoryDistanceMatrix τ).find_dependent_objects g = some dependents ∧
          (g ∈ ancestors ↔ db.BuiltFrom g h ∨ db.NamesTaskBehind g h) ∧
          (h ∈ dependents ↔ Relation.TransGen db.PostintegrationLink g h) := by
  obtain ⟨enough, G, hG⟩ := exists_follow acyclic LinkGraph.empty h
  have hf := hG enough le_rfl
  have closed : G.Closed := (follow_closed hf LinkGraph.closed_empty).1
  have hhG : h ∈ G.vertices := mem_follow_of_isGroup hf LinkGraph.closed_empty hh
  refine ⟨G, fun G' => ?_, fun D D' hD hD' => ?_⟩
  · have once : ∀ fuel, enough ≤ fuel → db.content_group_dependency fuel [h] = some G := fun fuel le => by
      simp [content_group_dependency, hG fuel le]
    constructor
    · rintro ⟨enough', hG'⟩
      have := hG' (max enough enough') (le_max_right _ _)
      rw [once _ (le_max_left _ _), Option.some.injEq] at this
      exact this.symm
    · rintro rfl
      exact ⟨enough, once⟩
  · obtain ⟨ancestors, ha, mem_a⟩ :=
      RepositoryDistanceMatrix.find_dependencies_eq (m := ⟨G, D⟩) closed hD hhG
    obtain ⟨dependents, hd, mem_d⟩ := RepositoryDistanceMatrix.find_dependent_objects_eq
      (m := ⟨db.distance_graph, D'⟩) closed_distance_graph.1 hD' (closed_distance_graph.2 g hg)
    refine ⟨ancestors, dependents, ha, hd, ?_, ?_⟩
    · rw [mem_a, transGen_follow_iff hf, and_iff_right ne]
    · rw [mem_d, transGen_distance_graph_iff hh, and_iff_right ne.symm]

/-- Where the graphs agree, the chains have counterparts in the matrix, and tasks add none. -/
theorem GraphsAgree.chains (acyclic : Library.Acyclic db.Link) {g h : τ} (hg : db.IsGroup g) (hh : db.IsGroup h)
    (ne : g ≠ h) (agree : db.GraphsAgree g h) :
    (db.BuiltFrom g h → Relation.TransGen db.PostintegrationLink g h) ∧
      (db.NamesTaskBehind g h → db.BuiltFrom g h) := by
  have pos : 0 < uint_max := by decide
  obtain ⟨G, returns, sets⟩ := exists_sets acyclic hg hh ne
  obtain ⟨G', hG', agree⟩ := agree
  obtain rfl := (returns G').mp hG'
  obtain ⟨ancestors, dependents, ha, hd, same, built⟩ :=
    agree _ _ (LinkGraph.isDistance_zero_or _ pos) (LinkGraph.isDistance_zero_or _ pos)
  obtain ⟨ancestors', dependents', ha', hd', mem_a, mem_d⟩ :=
    sets _ _ (LinkGraph.isDistance_zero_or _ pos) (LinkGraph.isDistance_zero_or _ pos)
  cases ha.symm.trans ha'
  cases hd.symm.trans hd'
  exact ⟨fun hb => mem_d.mp (same.mp (built.mpr hb)), fun hn => built.mp (mem_a.mpr (.inr hn))⟩

/-- **The graphs of content groups**: for two groups of an acyclic repository the graphs agree with each
other and with the chains of links, if and only if the chains between them may avoid the seeds of
integration groups, and the first does not bear the name of a task behind the second without being one
of those that it was built from. -/
theorem graphs_agree_iff (acyclic : Library.Acyclic db.Link) {g h : τ} (hg : db.IsGroup g) (hh : db.IsGroup h)
    (ne : g ≠ h) :
    db.GraphsAgree g h ↔
      (db.BuiltFrom g h → Relation.TransGen db.PostintegrationLink g h) ∧
        (db.NamesTaskBehind g h → db.BuiltFrom g h) := by
  refine ⟨GraphsAgree.chains acyclic hg hh ne, ?_⟩
  rintro ⟨avoids, names⟩
  have post_built : Relation.TransGen db.PostintegrationLink g h → db.BuiltFrom g h :=
    Relation.TransGen.mono (show db.PostintegrationLink ≤ db.Link from fun _ _ link => link.1) g h
  obtain ⟨G, returns, sets⟩ := exists_sets acyclic hg hh ne
  refine ⟨G, (returns G).mpr rfl, fun D D' hD hD' => ?_⟩
  obtain ⟨ancestors, dependents, ha, hd, mem_a, mem_d⟩ := sets D D' hD hD'
  have built : g ∈ ancestors ↔ db.BuiltFrom g h := by
    rw [mem_a]
    exact ⟨fun hb => hb.elim id names, .inl⟩
  have same : g ∈ ancestors ↔ h ∈ dependents := by
    rw [built, mem_d]
    exact ⟨avoids, post_built⟩
  exact ⟨ancestors, dependents, ha, hd, same, built⟩

/-- Group 2 continues from group 1, and group 3 was made from group 1. -/
def three_groups : ContentDatabase ℕ where
  integration := [⟨1, 10, false, none⟩, ⟨2, 10, false, some 1⟩]
  postintegration := [⟨3, 11, false, 1, none⟩]
  output := []
  tasks := [(10, .integration 20), (11, .postintegration 10)]
  integration_sorted := by decide
  postintegration_sorted := by decide
  output_sorted := by decide
  tasks_sorted := by decide
  integration_distinct := by decide
  integration_output := by decide
  postintegration_output := by decide

theorem three_groups_acyclic : Library.Acyclic three_groups.Link := by
  refine acyclic_of_lt fun a b link => ?_
  have hb := link.isGroup
  simp only [IsGroup, three_groups, List.map_cons, List.map_nil, List.mem_cons, List.not_mem_nil, or_false] at hb
  rcases hb with (rfl | rfl) | rfl
  · exact absurd link (List.not_mem_nil)
  · obtain rfl : a = 1 := List.mem_singleton.mp link
    decide
  · obtain rfl : a = 1 := List.mem_singleton.mp link
    decide

theorem graphs_agree_three_groups : three_groups.GraphsAgree 1 3 :=
  (graphs_agree_iff three_groups_acyclic (by decide) (by decide) (by decide)).mpr
    ⟨fun _ => .single ⟨List.mem_singleton.mpr rfl, rfl⟩, fun _ => .single (List.mem_singleton.mpr rfl)⟩

/-- The matrix does not know that group 2 was built from group 1. -/
theorem not_graphs_agree_seed :
    Library.Acyclic three_groups.Link ∧ three_groups.IsGroup 1 ∧ three_groups.IsGroup 2 ∧
      three_groups.BuiltFrom 1 2 ∧ ¬ three_groups.GraphsAgree 1 2 := by
  have built : three_groups.BuiltFrom 1 2 := .single (List.mem_singleton.mpr rfl)
  refine ⟨three_groups_acyclic, by decide, by decide, built, fun agree => ?_⟩
  have chain := (agree.chains three_groups_acyclic (by decide) (by decide) (by decide)).1 built
  obtain ⟨b, -, -, none⟩ := Relation.TransGen.tail'_iff.mp chain
  cases none

end ContentDatabase

end CppTransport.Runtime
