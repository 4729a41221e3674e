import CppTransport.Library.OrderedMaps
import CppTransport.Library.Table
import CppTransport.Library.TopologicalOrder
import Mathlib.Data.Finset.Sort

/-!
# The schedule of jobs

The jobs given on the command line are completed with the tasks that they depend
on and that have no content yet. A ζ task may be paired to its parent integration:
its job then performs the integration too, so that the parent needs no job of its
own. The completed queue is put in the order of a topological sort of the tasks,
which knows of dependencies but not of pairing.

## The model

* `Repository`: the task records, as a map from name to record gives them;
* `autocomplete_task_schedule`: the completion of the queue, with
  `prune_tasks_with_content`, `prune_paired_tasks` and `insert_job_descriptors`. The
  all-pairs distances and the topological order come from the graph library, and
  are given as arguments with what the library documents (`IsDistance`,
  `TopologicalOrder`);
* `Sound`: each job of a queue finds content for all that it depends on directly.

## What is proved

* `mem_autocomplete_task_schedule`, `count_autocomplete_task_schedule_le`: what
  the queue is made of;
* `schedule_sound_iff`: whatever order the topological sort gives, no job is
  repeated and the queue is sound, if and only if every job that needs the content
  which a paired job produces for its parent also depends on such a job.
-/

namespace CppTransport.Runtime

open Library
open scoped Library.OrderedMap

/-! ### Tasks and the repository -/

/-- Types of postintegration task. -/
inductive PostintegrationTaskType where
  /-- Two-point function of ζ. -/
  | twopf
  /-- Three-point function of ζ. -/
  | threepf
  /-- Amplitude of a template. -/
  | fNL
deriving DecidableEq

/-- A task; `τ` is the type of names. -/
inductive Task (τ : Type*) where
  /-- An integration depends on no other task. -/
  | integration
  /-- A postintegration task depends on its parent, to which a ζ task may be paired. -/
  | postintegration (type : PostintegrationTaskType) (parent : τ) (is_paired : Bool)
  /-- An output task has elements, each a product with its list of tasks. -/
  | output (elements : List (List τ))
deriving DecidableEq

/-- The tasks that a task depends on directly. -/
def Task.dependencies {τ : Type*} : Task τ → List τ
  | .integration => []
  | .postintegration _ parent _ => [parent]
  | .output elements => elements.flatten

/-- The parent to which a task is paired; only ζ two- and three-point tasks can be. -/
def Task.paired_task {τ : Type*} : Task τ → Option τ
  | .postintegration .twopf parent true => some parent
  | .postintegration .threepf parent true => some parent
  | _ => none

/-- The record of a task. -/
structure TaskRecord (τ : Type*) where
  /-- Name of the task. -/
  name : τ
  /-- The task. -/
  task : Task τ
  /-- Names of its content groups. -/
  content_groups : List τ

/-- A repository: one record for each name, in the order of the names. -/
structure Repository (τ : Type*) [LinearOrder τ] where
  /-- The records. -/
  records : List (TaskRecord τ)
  /-- They come from a map. -/
  sorted : (records.map (·.name)).Pairwise (· < ·)
  /-- What a task depends on is in the repository. -/
  closed : ∀ u ∈ records, ∀ d ∈ u.task.dependencies, d ∈ records.map (·.name)
  /-- A task is paired to an integration. -/
  paired_integration : ∀ u ∈ records, ∀ v ∈ records, u.task.paired_task = some v.name →
    v.task = .integration

variable {τ : Type*} [LinearOrder τ]

namespace Repository

variable (repo : Repository τ)

/-- Names of the tasks: the vertices of the task graph. -/
def names : List τ := repo.records.map (·.name)

/-- `query_task`. -/
def query_task (name : τ) : Option (TaskRecord τ) := repo.records.find? fun u => u.name = name

/-- The direct dependencies of a task. -/
def dependencies (name : τ) : List τ := ((repo.query_task name).map (·.task.dependencies)).getD []

/-- The parent to which a task is paired. -/
def paired_task (name : τ) : Option τ := (repo.query_task name).bind (·.task.paired_task)

/-- Some content group belongs to the task. -/
def has_content (name : τ) : Bool :=
  ((repo.query_task name).map fun u => !u.content_groups.isEmpty).getD false

/-- The arrows of the task graph. -/
def Arrow (d t : τ) : Prop := d ∈ repo.dependencies t

/-- What the library documents of the distances: they are below the maximum where there is a path. -/
def IsDistance (uint_max : ℕ) (D : τ → τ → ℕ) : Prop :=
  ∀ v ∈ repo.names, ∀ w ∈ repo.names,
    D v w < uint_max ↔ Relation.ReflTransGen repo.Arrow v w

end Repository

/-- `std::numeric_limits<unsigned int>::max()`. -/
def uint_max : ℕ := 2 ^ 32 - 1

/-! ### Completion of the job queue -/

section Schedule

variable (repo : Repository τ) (D : τ → τ → ℕ) (order jobs : List τ)

/-- `repository_distance_matrix::find_dependencies`. -/
def find_dependencies (name : τ) : Finset τ :=
  repo.names.foldl (fun objects vtx =>
    if vtx ≠ name ∧ D vtx name < uint_max then insert vtx objects else objects) ∅

/-- `prune_tasks_with_content`. -/
def prune_tasks_with_content (required_tasks : Finset τ) : Finset τ :=
  required_tasks.sort.foldl (fun required t =>
    if repo.has_content t then required.erase t else required) required_tasks

/-- `prune_paired_tasks`: the given jobs are added to the set, then the parents of its paired tasks
are removed unless they were given. What is removed is an integration, and none is paired to
another task, so that it does not matter that the loop runs over the set it removes from. -/
def prune_paired_tasks (required_tasks : Finset τ) : Finset τ :=
  let tasks_to_schedule := jobs.foldl (fun tasks job => insert job tasks) required_tasks
  tasks_to_schedule.sort.foldl (fun required task =>
    match repo.paired_task task with
    | some paired_task => if paired_task ∉ jobs ∧ paired_task ∈ required
        then required.erase paired_task else required
    | none => required) tasks_to_schedule

/-- `order_map` of `CompareJobDescriptorByList`: the number last assigned to a name, 0 if none. -/
def order_map (name : τ) : ℕ :=
  order.zipIdx.foldl (fun number object => if object.1 = name then object.2 else number) 0

/-- `insert_job_descriptors`: jobs are added at the end of the queue, which is then sorted. -/
def insert_job_descriptors (required_tasks : Finset τ) : List τ :=
  (required_tasks.sort.foldl (fun queue task => if task ∈ queue then queue else queue ++ [task])
    jobs).insertionSort (fun a b => order_map order a ≤ order_map order b)

/-- `autocomplete_task_schedule`: the job queue that it leaves. -/
def autocomplete_task_schedule : List τ :=
  if jobs = [] then jobs
  else
    let required_tasks := jobs.foldl (fun required job => required ∪ find_dependencies repo D job) ∅
    insert_job_descriptors order jobs
      (prune_paired_tasks repo jobs (prune_tasks_with_content repo required_tasks))

end Schedule

/-! ### Running a queue -/

/-- Running a queue from the tasks `content` that have content: each job finds content for what it
depends on directly, but a paired job needs none for its parent, and produces it besides its own. -/
def Runs (repo : Repository τ) (content : τ → Prop) : List τ → Prop
  | [] => True
  | job :: rest => (∀ d, repo.Arrow d job → content d ∨ repo.paired_task job = some d)
      ∧ Runs repo (fun t => content t ∨ t = job ∨ repo.paired_task job = some t) rest

/-- A queue is sound if it runs from the content that the repository has. -/
def Sound (repo : Repository τ) (queue : List τ) : Prop := Runs repo (fun t => repo.has_content t) queue

/-! ### What the repository gives -/

section Facts

variable {repo : Repository τ} {D : τ → τ → ℕ} {order jobs : List τ}

namespace Repository

theorem query_task_eq_some_iff {name : τ} {u : TaskRecord τ} :
    repo.query_task name = some u ↔ u ∈ repo.records ∧ u.name = name :=
  find?_key_eq_some_iff (repo.sorted.imp fun h => h.ne)

theorem arrow_iff {d t : τ} :
    repo.Arrow d t ↔ ∃ u ∈ repo.records, u.name = t ∧ d ∈ u.task.dependencies := by
  rw [Arrow, dependencies]
  cases h : repo.query_task t with
  | none =>
    simp only [Option.map_none, Option.getD_none, List.not_mem_nil, false_iff]
    rintro ⟨u, hu, hn, -⟩
    rw [query_task_eq_some_iff.mpr ⟨hu, hn⟩] at h
    cases h
  | some v =>
    obtain ⟨hv, rfl⟩ := query_task_eq_some_iff.mp h
    simp only [Option.map_some, Option.getD_some]
    constructor
    · intro hd
      exact ⟨v, hv, rfl, hd⟩
    · rintro ⟨u, hu, hn, hd⟩
      rw [query_task_eq_some_iff.mpr ⟨hu, hn⟩] at h
      exact Option.some.inj h ▸ hd

theorem paired_task_eq_some_iff {t p : τ} :
    repo.paired_task t = some p ↔ ∃ u ∈ repo.records, u.name = t ∧ u.task.paired_task = some p := by
  simp only [paired_task, Option.bind_eq_some_iff, query_task_eq_some_iff, and_assoc]

theorem mem_names_of_arrow {d t : τ} (h : repo.Arrow d t) : d ∈ repo.names ∧ t ∈ repo.names := by
  obtain ⟨u, hu, rfl, hd⟩ := arrow_iff.mp h
  exact ⟨repo.closed u hu d hd, List.mem_map.mpr ⟨u, hu, rfl⟩⟩

/-- A task paired to its parent depends on it, and on nothing else. -/
theorem arrow_of_paired_task {t p d : τ} (h : repo.paired_task t = some p) :
    repo.Arrow d t ↔ d = p := by
  obtain ⟨u, hu, rfl, hp⟩ := paired_task_eq_some_iff.mp h
  rw [Arrow, dependencies, query_task_eq_some_iff.mpr ⟨hu, rfl⟩]
  cases htask : u.task with
  | integration => simp [htask, Task.paired_task] at hp
  | output elements => simp [htask, Task.paired_task] at hp
  | postintegration type parent is_paired =>
    obtain rfl : parent = p := by
      rw [htask] at hp
      cases type <;> cases is_paired <;> simp [Task.paired_task] at hp ⊢ <;> exact hp
    simp [htask, Task.dependencies]

/-- The parent of a paired task depends on nothing and is not paired itself. -/
theorem parent_of_paired_task {t p : τ} (h : repo.paired_task t = some p) :
    (∀ d, ¬ repo.Arrow d p) ∧ repo.paired_task p = none := by
  obtain ⟨u, hu, rfl, hp⟩ := paired_task_eq_some_iff.mp h
  obtain ⟨v, hv, rfl⟩ := List.mem_map.mp (mem_names_of_arrow ((arrow_of_paired_task h).mpr rfl)).1
  have integration := repo.paired_integration u hu v hv hp
  have query := query_task_eq_some_iff.mpr ⟨hv, rfl⟩
  refine ⟨fun d hd => ?_, ?_⟩
  · rw [Arrow, dependencies, query] at hd
    simp [integration, Task.dependencies] at hd
  · rw [paired_task, query]
    simp [integration, Task.paired_task]

end Repository

/-! ### What the queue is made of -/

/-- The tasks that output is needed for: the given jobs, and what they depend on that has no
content. -/
def Wanted (repo : Repository τ) (jobs : List τ) (t : τ) : Prop :=
  t ∈ jobs ∨ repo.has_content t = false ∧ ∃ job ∈ jobs, Relation.TransGen repo.Arrow t job

/-- A task that is left out, because a wanted task paired to it does its work. -/
def Pruned (repo : Repository τ) (jobs : List τ) (t : τ) : Prop :=
  t ∉ jobs ∧ ∃ z, Wanted repo jobs z ∧ repo.paired_task z = some t

theorem mem_find_dependencies (acyclic : Acyclic repo.Arrow) (hD : repo.IsDistance uint_max D)
    {job t : τ} (hjob : job ∈ repo.names) :
    t ∈ find_dependencies repo D job ↔ Relation.TransGen repo.Arrow t job := by
  have step : ∀ (acc : Finset τ) (k x : τ),
      x ∈ (if k ≠ job ∧ D k job < uint_max then insert k acc else acc)
        ↔ x ∈ acc ∨ (x = k ∧ k ≠ job ∧ D k job < uint_max) := by
    intro acc k x
    split
    · next h => simp [h, or_comm]
    · next h => simp [h]
  rw [find_dependencies, mem_foldl_iff_of_adds step]
  simp only [Finset.notMem_empty, false_or]
  constructor
  · rintro ⟨k, hk, rfl, ne, lt⟩
    have path := (hD t hk job hjob).mp lt
    exact (Relation.reflTransGen_iff_eq_or_transGen.mp path).resolve_left (Ne.symm ne)
  · intro path
    have hk : t ∈ repo.names := by
      obtain ⟨c, hc, -⟩ := Relation.TransGen.head'_iff.mp path
      exact (Repository.mem_names_of_arrow hc).1
    refine ⟨t, hk, rfl, ?_, (hD t hk job hjob).mpr path.to_reflTransGen⟩
    rintro rfl
    exact acyclic _ path

theorem mem_prune_tasks_with_content {required : Finset τ} {t : τ} :
    t ∈ prune_tasks_with_content repo required ↔ t ∈ required ∧ repo.has_content t = false := by
  have step : ∀ (acc : Finset τ) (k x : τ),
      x ∈ (if repo.has_content k then acc.erase k else acc)
        ↔ x ∈ acc ∧ ¬ (x = k ∧ repo.has_content k) := by
    intro acc k x
    split
    · next h => simp [h, and_comm]
    · next h => simp [h]
  rw [prune_tasks_with_content, mem_foldl_iff_of_removes step]
  refine and_congr_right fun ht => ?_
  constructor
  · intro h
    simpa using h t ((Finset.mem_sort _).mpr ht)
  · rintro h k - ⟨rfl, content⟩
    rw [h] at content
    cases content

theorem mem_prune_paired_tasks {required : Finset τ} {t : τ} :
    t ∈ prune_paired_tasks repo jobs required ↔ (t ∈ jobs ∨ t ∈ required)
      ∧ ¬ (t ∉ jobs ∧ ∃ z, (z ∈ jobs ∨ z ∈ required) ∧ repo.paired_task z = some t) := by
  have insertJobs : ∀ x, x ∈ jobs.foldl (fun tasks job => insert job tasks) required
      ↔ x ∈ jobs ∨ x ∈ required := by
    intro x
    rw [mem_foldl_iff_of_adds (P := fun k x => x = k) (by simp [or_comm])]
    simp [or_comm]
  have step : ∀ (acc : Finset τ) (k x : τ),
      x ∈ (match repo.paired_task k with
        | some p => if p ∉ jobs ∧ p ∈ acc then acc.erase p else acc
        | none => acc) ↔ x ∈ acc ∧ ¬ (x ∉ jobs ∧ repo.paired_task k = some x) := by
    intro acc k x
    cases repo.paired_task k with
    | none => simp
    | some p =>
      simp only [Option.some.injEq]
      split
      · next h =>
        rw [Finset.mem_erase]
        constructor
        · rintro ⟨ne, hx⟩
          exact ⟨hx, fun hp => ne hp.2.symm⟩
        · rintro ⟨hx, hp⟩
          refine ⟨?_, hx⟩
          rintro rfl
          exact hp ⟨h.1, rfl⟩
      · next h =>
        refine ⟨fun hx => ⟨hx, ?_⟩, fun hx => hx.1⟩
        rintro ⟨hj, rfl⟩
        exact h ⟨hj, hx⟩
  rw [prune_paired_tasks, mem_foldl_iff_of_removes step]
  simp only [Finset.mem_sort, insertJobs]
  refine and_congr_right fun _ => ?_
  constructor
  · rintro h ⟨hj, z, hz, hp⟩
    exact h z hz ⟨hj, hp⟩
  · rintro h z hz ⟨hj, hp⟩
    exact h ⟨hj, z, hz, hp⟩

/-- The jobs, and each task of a list that is not among them once. -/
theorem insert_jobs_spec (tasks queue : List τ) :
    (∀ t, t ∈ tasks.foldl (fun queue task => if task ∈ queue then queue else queue ++ [task]) queue
        ↔ t ∈ queue ∨ t ∈ tasks)
      ∧ ∀ t, (tasks.foldl (fun queue task => if task ∈ queue then queue else queue ++ [task])
          queue).count t ≤ max 1 (queue.count t) := by
  constructor
  · intro t
    rw [mem_foldl_iff_of_adds (P := fun k x => x = k)]
    · simp
    · intro acc k x
      split
      · next h =>
        refine ⟨Or.inl, ?_⟩
        rintro (hx | rfl)
        · exact hx
        · exact h
      · simp
  · intro t
    induction tasks generalizing queue with
    | nil => simp
    | cons task tasks ih =>
      rw [List.foldl_cons]
      refine (ih _).trans ?_
      split
      · exact le_refl _
      · next h =>
        rw [List.count_append, List.count_singleton]
        by_cases same : task = t
        · subst same
          simp [List.count_eq_zero_of_not_mem h]
        · simp [same]

/-- The map numbers the names of an order by their places. -/
theorem order_map_eq_idxOf (nodup : order.Nodup) {t : τ} (ht : t ∈ order) :
    order_map order t = order.idxOf t := by
  have general : ∀ (l : List τ) (k acc : ℕ), l.Nodup →
      (l.zipIdx k).foldl (fun number object => if object.1 = t then object.2 else number) acc
        = if t ∈ l then k + l.idxOf t else acc := by
    intro l
    induction l with
    | nil => simp
    | cons a l ih =>
      intro k acc hl
      rw [List.zipIdx_cons, List.foldl_cons, ih _ _ (List.nodup_cons.mp hl).2]
      by_cases same : a = t
      · subst same
        simp [(List.nodup_cons.mp hl).1]
      · rw [List.idxOf_cons_ne _ same]
        simp only [List.mem_cons, Ne.symm same, false_or, if_neg same]
        split <;> omega
  rw [order_map, general order 0 0 nodup, if_pos ht, Nat.zero_add]

/-- **What the queue is made of**: what is wanted, but for the parents of paired tasks. -/
theorem mem_autocomplete_task_schedule (acyclic : Acyclic repo.Arrow)
    (hD : repo.IsDistance uint_max D) (hjobs : ∀ job ∈ jobs, job ∈ repo.names) {t : τ} :
    t ∈ autocomplete_task_schedule repo D order jobs ↔ Wanted repo jobs t ∧ ¬ Pruned repo jobs t := by
  by_cases none : jobs = []
  · subst none
    simp [autocomplete_task_schedule, Wanted]
  · have required : ∀ x, x ∈ jobs.foldl
        (fun required job => required ∪ find_dependencies repo D job) ∅
          ↔ ∃ job ∈ jobs, Relation.TransGen repo.Arrow x job := by
      intro x
      rw [mem_foldl_iff_of_adds (P := fun job x => x ∈ find_dependencies repo D job) (by simp)]
      simp only [Finset.notMem_empty, false_or]
      refine exists_congr fun job => and_congr_right fun hjob => ?_
      exact mem_find_dependencies acyclic hD (hjobs job hjob)
    rw [autocomplete_task_schedule, if_neg none, insert_job_descriptors, List.mem_insertionSort,
      (insert_jobs_spec _ _).1, Finset.mem_sort, mem_prune_paired_tasks]
    have wanted : ∀ x, (x ∈ jobs ∨ x ∈ prune_tasks_with_content repo (jobs.foldl
        (fun required job => required ∪ find_dependencies repo D job) ∅)) ↔ Wanted repo jobs x := by
      intro x
      rw [mem_prune_tasks_with_content, required, Wanted, and_comm]
    simp only [wanted]
    constructor
    · rintro (ht | h)
      · exact ⟨.inl ht, fun pruned => pruned.1 ht⟩
      · exact h
    · exact Or.inr

/-- Where nothing has to be added, the queue is the given jobs, sorted. -/
theorem autocomplete_task_schedule_of_complete (acyclic : Acyclic repo.Arrow)
    (hD : repo.IsDistance uint_max D) (hjobs : ∀ job ∈ jobs, job ∈ repo.names)
    (complete : ∀ t, Wanted repo jobs t → ¬ Pruned repo jobs t → t ∈ jobs) :
    autocomplete_task_schedule repo D order jobs
      = jobs.insertionSort (fun a b => order_map order a ≤ order_map order b) := by
  have same : ∀ tasks : List τ, (∀ t ∈ tasks, t ∈ jobs) →
      tasks.foldl (fun queue task => if task ∈ queue then queue else queue ++ [task]) jobs = jobs := by
    intro tasks sub
    induction tasks with
    | nil => rfl
    | cons task tasks ih =>
      rw [List.foldl_cons, if_pos (sub task List.mem_cons_self)]
      exact ih fun t ht => sub t (List.mem_cons_of_mem _ ht)
  have queued : ∀ t, t ∈ autocomplete_task_schedule repo D order jobs
      ↔ Wanted repo jobs t ∧ ¬ Pruned repo jobs t := fun t =>
    mem_autocomplete_task_schedule acyclic hD hjobs
  rw [autocomplete_task_schedule] at queued ⊢
  split
  · next none => rw [none]; rfl
  · next some =>
    simp only [if_neg some, insert_job_descriptors, List.mem_insertionSort,
      (insert_jobs_spec _ _).1] at queued
    rw [insert_job_descriptors, same]
    intro t ht
    obtain ⟨wanted, kept⟩ := (queued t).mp (.inr ht)
    exact complete t wanted kept

/-- **No task is repeated** more often than it was given. -/
theorem count_autocomplete_task_schedule_le (t : τ) :
    (autocomplete_task_schedule repo D order jobs).count t ≤ max 1 (jobs.count t) := by
  rw [autocomplete_task_schedule]
  split
  · exact le_max_right _ _
  · rw [insert_job_descriptors, (List.perm_insertionSort _ _).count_eq]
    exact (insert_jobs_spec _ _).2 t

/-- The queue is in the order of the topological sort. -/
theorem pairwise_autocomplete_task_schedule (none : jobs ≠ []) :
    (autocomplete_task_schedule repo D order jobs).Pairwise
      (fun a b => order_map order a ≤ order_map order b) := by
  have : Std.Total fun a b => order_map order a ≤ order_map order b :=
    ⟨fun a b => Nat.le_total _ _⟩
  have : IsTrans τ fun a b => order_map order a ≤ order_map order b :=
    ⟨fun a b c => Nat.le_trans⟩
  rw [autocomplete_task_schedule, if_neg none, insert_job_descriptors]
  exact List.pairwise_insertionSort _ _

/-! ### When the queue is sound -/

/-- A queue runs if at each job, what it depends on has content, is an earlier job, or is the parent of
an earlier paired job. -/
theorem runs_iff {content : τ → Prop} {queue : List τ} :
    Runs repo content queue ↔ ∀ before job after, queue = before ++ job :: after →
      ∀ d, repo.Arrow d job → (content d ∨ d ∈ before ∨ ∃ z ∈ before, repo.paired_task z = some d)
        ∨ repo.paired_task job = some d := by
  induction queue generalizing content with
  | nil => simp [Runs]
  | cons first queue ih =>
    rw [Runs, ih]
    constructor
    · rintro ⟨now, later⟩ before job after split d hd
      cases before with
      | nil =>
        obtain ⟨rfl, rfl⟩ := List.cons.inj split
        rcases now d hd with h | h
        · exact .inl (.inl h)
        · exact .inr h
      | cons b before =>
        obtain ⟨rfl, rfl⟩ := List.cons.inj split
        rcases later before job after rfl d hd with ((h | h | h) | h | ⟨z, hz, h⟩) | h
        · exact .inl (.inl h)
        · exact .inl (.inr (.inl (by simp [h])))
        · exact .inl (.inr (.inr ⟨first, by simp, h⟩))
        · exact .inl (.inr (.inl (by simp [h])))
        · exact .inl (.inr (.inr ⟨z, by simp [hz], h⟩))
        · exact .inr h
    · intro h
      constructor
      · intro d hd
        rcases h [] first queue rfl d hd with (h | h | ⟨z, hz, -⟩) | h
        · exact .inl h
        · cases h
        · cases hz
        · exact .inr h
      · intro before job after split d hd
        rcases h (first :: before) job after (by rw [split]; rfl) d hd with (hc | hb | ⟨z, hz, hp⟩) | hp
        · exact .inl (.inl (.inl hc))
        · rcases List.mem_cons.mp hb with hb | hb
          · exact .inl (.inl (.inr (.inl hb)))
          · exact .inl (.inr (.inl hb))
        · rcases List.mem_cons.mp hz with rfl | hz
          · exact .inl (.inl (.inr (.inr hp)))
          · exact .inl (.inr (.inr ⟨z, hz, hp⟩))
        · exact .inr hp

/-- Every wanted task that depends directly on a pruned parent also depends on a wanted task paired to
that parent, unless it is itself paired to it. -/
def ParentsInTime (repo : Repository τ) (jobs : List τ) : Prop :=
  ∀ x parent, Wanted repo jobs x → repo.Arrow parent x → repo.paired_task x ≠ some parent →
    repo.has_content parent = false → Pruned repo jobs parent →
    ∃ z, Wanted repo jobs z ∧ repo.paired_task z = some parent ∧ Relation.TransGen repo.Arrow z x

theorem mem_names_of_transGen {d t : τ} (h : Relation.TransGen repo.Arrow d t) : d ∈ repo.names := by
  obtain ⟨c, hc, -⟩ := Relation.TransGen.head'_iff.mp h
  exact (Repository.mem_names_of_arrow hc).1

theorem Wanted.mem_names (hjobs : ∀ job ∈ jobs, job ∈ repo.names) {t : τ} (h : Wanted repo jobs t) :
    t ∈ repo.names := by
  rcases h with h | ⟨-, job, -, path⟩
  · exact hjobs t h
  · exact mem_names_of_transGen path

/-- What a wanted task depends on is wanted, unless it has content. -/
theorem Wanted.of_arrow {d t : τ} (h : Wanted repo jobs t) (hd : repo.Arrow d t)
    (content : repo.has_content d = false) : Wanted repo jobs d := by
  rcases h with h | ⟨-, job, hjob, path⟩
  · exact .inr ⟨content, t, h, .single hd⟩
  · exact .inr ⟨content, job, hjob, .head hd path⟩

/-- A paired task is not left out: what is left out is a parent. -/
theorem not_pruned_of_paired_task {z p : τ} (h : repo.paired_task z = some p) :
    ¬ Pruned repo jobs z := by
  rintro ⟨-, w, -, hw⟩
  rw [(Repository.parent_of_paired_task hw).2] at h
  cases h

section Order

variable (acyclic : Acyclic repo.Arrow) (hD : repo.IsDistance uint_max D)
  (hjobs : ∀ job ∈ jobs, job ∈ repo.names) (topological : TopologicalOrder repo.Arrow order)
  (all : ∀ t, t ∈ order ↔ t ∈ repo.names)

include acyclic hD hjobs topological all

/-- A queued task that another one depends on is at an earlier place of the queue. -/
theorem mem_before_of_transGen {before after : List τ} {d job : τ}
    (split : autocomplete_task_schedule repo D order jobs = before ++ job :: after)
    (hd : d ∈ autocomplete_task_schedule repo D order jobs)
    (path : Relation.TransGen repo.Arrow d job) : d ∈ before := by
  have ne : jobs ≠ [] := by
    rintro rfl
    simp [autocomplete_task_schedule] at hd
  have hjob : job ∈ autocomplete_task_schedule repo D order jobs := by simp [split]
  have name : ∀ {t}, t ∈ autocomplete_task_schedule repo D order jobs → t ∈ order := fun ht =>
    (all _).mpr (((mem_autocomplete_task_schedule acyclic hD hjobs).mp ht).1.mem_names hjobs)
  have closed : ∀ a b, repo.Arrow a b → b ∈ order → a ∈ order := fun a b hab _ =>
    (all a).mpr (Repository.mem_names_of_arrow hab).1
  have lt := (topological.idxOf_lt_of_transGen acyclic closed (name hjob) path).2
  rw [← order_map_eq_idxOf topological.nodup (name hd),
    ← order_map_eq_idxOf topological.nodup (name hjob)] at lt
  have sorted : (autocomplete_task_schedule repo D order jobs).Pairwise _ :=
    pairwise_autocomplete_task_schedule ne
  rw [split] at hd sorted
  rcases List.mem_append.mp hd with hd | hd
  · exact hd
  · have le : order_map order job ≤ order_map order d := by
      rcases List.mem_cons.mp hd with rfl | hd
      · exact le_refl _
      · exact List.rel_of_pairwise_cons (List.pairwise_append.mp sorted).2.1 hd
    omega

/-- **Enough**: if the parents of paired tasks are produced in time, the queue is sound. -/
theorem sound_of_parentsInTime (h : ParentsInTime repo jobs) :
    Sound repo (autocomplete_task_schedule repo D order jobs) := by
  rw [Sound, runs_iff]
  intro before job after split d hd
  have hjob : job ∈ autocomplete_task_schedule repo D order jobs := by simp [split]
  obtain ⟨wanted, -⟩ := (mem_autocomplete_task_schedule acyclic hD hjobs).mp hjob
  by_cases paired : repo.paired_task job = some d
  · exact .inr paired
  cases content : repo.has_content d with
  | true => exact .inl (.inl rfl)
  | false =>
    refine .inl (.inr ?_)
    by_cases pruned : Pruned repo jobs d
    · -- the parent is left out: its content comes from a task paired to it that `job` depends on
      obtain ⟨z, hz, hp, path⟩ := h job d wanted hd paired content pruned
      have queued : z ∈ autocomplete_task_schedule repo D order jobs :=
        (mem_autocomplete_task_schedule acyclic hD hjobs).mpr ⟨hz, not_pruned_of_paired_task hp⟩
      exact .inr ⟨z, mem_before_of_transGen acyclic hD hjobs topological all split queued path, hp⟩
    · have queued : d ∈ autocomplete_task_schedule repo D order jobs :=
        (mem_autocomplete_task_schedule acyclic hD hjobs).mpr ⟨wanted.of_arrow hd content, pruned⟩
      exact .inl (mem_before_of_transGen acyclic hD hjobs topological all split queued (.single hd))

end Order

/-- **Necessary**: otherwise the sort may put the task that needs the content before all tasks paired to
the parent. -/
theorem parentsInTime_of_sound (acyclic : Acyclic repo.Arrow) (hD : repo.IsDistance uint_max D)
    (hjobs : ∀ job ∈ jobs, job ∈ repo.names)
    (sound : ∀ order, TopologicalOrder repo.Arrow order → (∀ t, t ∈ order ↔ t ∈ repo.names) →
      Sound repo (autocomplete_task_schedule repo D order jobs)) : ParentsInTime repo jobs := by
  classical
  intro x parent wanted hx unpaired content pruned
  by_contra late
  -- an order that lists `x` and what it depends on before anything else
  have nodup : repo.names.Nodup := repo.sorted.imp fun h => h.ne
  obtain ⟨base, perm, topological⟩ := exists_topologicalOrder acyclic nodup
  let first (t : τ) : Prop := Relation.ReflTransGen repo.Arrow t x
  have reordered := topological.partition first fun a b hab hb => .head hab hb
  have all : ∀ t, t ∈ base.filter (fun a => first a) ++ base.filter (fun a => ¬ first a)
      ↔ t ∈ repo.names := by
    intro t
    rw [← perm.mem_iff]
    by_cases ht : first t <;> simp [ht]
  set order := base.filter (fun a => first a) ++ base.filter (fun a => ¬ first a) with horder
  have queued : x ∈ autocomplete_task_schedule repo D order jobs := by
    refine (mem_autocomplete_task_schedule acyclic hD hjobs).mpr ⟨wanted, ?_⟩
    rintro ⟨-, w, -, hw⟩
    exact (Repository.parent_of_paired_task hw).1 parent hx
  obtain ⟨before, after, split⟩ := List.append_of_mem queued
  have runs := sound order reordered all
  rw [Sound, runs_iff] at runs
  have ne : jobs ≠ [] := by
    rintro rfl
    simp [autocomplete_task_schedule] at queued
  have sorted : (autocomplete_task_schedule repo D order jobs).Pairwise _ :=
    pairwise_autocomplete_task_schedule ne
  rw [split] at sorted
  have member : ∀ z ∈ before, Wanted repo jobs z ∧ ¬ Pruned repo jobs z := fun z hz =>
    (mem_autocomplete_task_schedule acyclic hD hjobs).mp (by rw [split]; simp [hz])
  rcases runs before x after split parent hx with (h | h | ⟨z, hz, hp⟩) | h
  · rw [content] at h
    cases h
  · exact (member parent h).2 pruned
  · -- `z` is listed before `x`, so that `x` depends on it
    have le : order_map order z ≤ order_map order x :=
      (List.pairwise_append.mp sorted).2.2 z hz x (by simp)
    have hzn : z ∈ order := (all z).mpr ((member z hz).1.mem_names hjobs)
    have hxn : x ∈ base := perm.mem_iff.mpr (wanted.mem_names hjobs)
    rw [order_map_eq_idxOf reordered.nodup hzn,
      order_map_eq_idxOf reordered.nodup ((all x).mpr (wanted.mem_names hjobs)), horder] at le
    have path : first z := of_idxOf_le_partition hxn .refl le
    rcases Relation.reflTransGen_iff_eq_or_transGen.mp path with rfl | path
    · exact unpaired hp
    · exact late ⟨z, (member z hz).1, hp, path⟩
  · exact unpaired h

/-- **When the schedule is sound**: for every acyclic repository and every list of its tasks, the queue
repeats no task and runs, in whatever order the topological sort gives, if and only if the parents of
paired tasks are produced in time. -/
theorem schedule_sound_iff (repo : Repository τ) (acyclic : Acyclic repo.Arrow) (D : τ → τ → ℕ)
    (hD : repo.IsDistance uint_max D) (jobs : List τ) (hjobs : ∀ job ∈ jobs, job ∈ repo.names) :
    (∀ order, TopologicalOrder repo.Arrow order → (∀ t, t ∈ order ↔ t ∈ repo.names) →
      (∀ t, (autocomplete_task_schedule repo D order jobs).count t ≤ max 1 (jobs.count t))
        ∧ Sound repo (autocomplete_task_schedule repo D order jobs)) ↔ ParentsInTime repo jobs := by
  constructor
  · intro h
    exact parentsInTime_of_sound acyclic hD hjobs fun order topological all =>
      (h order topological all).2
  · intro h order topological all
    exact ⟨count_autocomplete_task_schedule_le,
      sound_of_parentsInTime acyclic hD hjobs topological all h⟩

end Facts

/-! ### Two jobs that need the same integration -/

/-- An integration (`1`), a ζ task paired to it (`0`), and an output task made from the integration
(`2`), named so that they are stored in this order; none has content. -/
def pairedSibling : Repository ℕ where
  records := [⟨0, .postintegration .twopf 1 true, []⟩, ⟨1, .integration, []⟩, ⟨2, .output [[1]], []⟩]
  sorted := by decide
  closed := by decide
  paired_integration := by decide

/-- The distances in its task graph. -/
def pairedSiblingDistance (v w : ℕ) : ℕ := if v = w then 0 else if v = 1 then 1 else uint_max

theorem arrow_pairedSibling {d t : ℕ} : pairedSibling.Arrow d t ↔ d = 1 ∧ (t = 0 ∨ t = 2) := by
  rw [Repository.arrow_iff]
  simp only [pairedSibling, List.mem_cons, List.not_mem_nil, or_false, exists_eq_or_imp,
    exists_eq_left, Task.dependencies]
  simp
  omega

theorem acyclic_pairedSibling : Acyclic pairedSibling.Arrow := by
  intro t cycle
  obtain ⟨b, tb, -⟩ := Relation.TransGen.head'_iff.mp cycle
  obtain ⟨c, -, ct⟩ := Relation.TransGen.tail'_iff.mp cycle
  have := arrow_pairedSibling.mp tb
  have := arrow_pairedSibling.mp ct
  omega

theorem isDistance_pairedSibling : pairedSibling.IsDistance uint_max pairedSiblingDistance := by
  intro v hv w hw
  have hv' : v = 0 ∨ v = 1 ∨ v = 2 := by simpa [Repository.names, pairedSibling] using hv
  have hw' : w = 0 ∨ w = 1 ∨ w = 2 := by simpa [Repository.names, pairedSibling] using hw
  rw [pairedSiblingDistance]
  constructor
  · intro lt
    split at lt
    · next same => exact same ▸ .refl
    · next ne =>
      split at lt
      · next one => exact .single (arrow_pairedSibling.mpr ⟨one, by omega⟩)
      · exact absurd lt (lt_irrefl _)
  · intro path
    rcases Relation.reflTransGen_iff_eq_or_transGen.mp path with rfl | path
    · simp [uint_max]
    · obtain ⟨b, vb, -⟩ := Relation.TransGen.head'_iff.mp path
      have := arrow_pairedSibling.mp vb
      split <;> simp [uint_max, this.1]

/-- The topological sort gives the order `1`, `2`, `0`, and the output task is run before the content of
the integration is there. -/
theorem pairedSibling_unsound :
    (Acyclic pairedSibling.Arrow ∧ pairedSibling.IsDistance uint_max pairedSiblingDistance)
      ∧ TopologicalOrder pairedSibling.Arrow [1, 2, 0]
      ∧ (∀ t, t ∈ [1, 2, 0] ↔ t ∈ pairedSibling.names)
      ∧ ¬ Sound pairedSibling
        (autocomplete_task_schedule pairedSibling pairedSiblingDistance [1, 2, 0] [0, 2]) := by
  refine ⟨⟨acyclic_pairedSibling, isDistance_pairedSibling⟩, ⟨by decide, ?_⟩, ?_, ?_⟩
  · simp [arrow_pairedSibling]
  · intro t
    simp only [Repository.names, pairedSibling, List.map_cons, List.map_nil, List.mem_cons]
    tauto
  · rw [autocomplete_task_schedule_of_complete acyclic_pairedSibling isDistance_pairedSibling
      (by decide)]
    · intro sound
      have start := sound.1 1 (arrow_pairedSibling.mpr ⟨rfl, .inr rfl⟩)
      revert start
      decide
    · intro t wanted kept
      have name := wanted.mem_names (by decide)
      have cases : t = 0 ∨ t = 1 ∨ t = 2 := by simpa [Repository.names, pairedSibling] using name
      rcases cases with rfl | rfl | rfl
      · decide
      · exact absurd ⟨by decide, 0, .inl (by decide), by decide⟩ kept
      · decide

theorem schedule_sound_iff_pairedSibling :
    (∀ order, TopologicalOrder pairedSibling.Arrow order → (∀ t, t ∈ order ↔ t ∈ pairedSibling.names) →
      (∀ t, (autocomplete_task_schedule pairedSibling pairedSiblingDistance order [0, 2]).count t
          ≤ max 1 ([0, 2].count t))
        ∧ Sound pairedSibling
          (autocomplete_task_schedule pairedSibling pairedSiblingDistance order [0, 2]))
      ↔ ParentsInTime pairedSibling [0, 2] :=
  schedule_sound_iff pairedSibling acyclic_pairedSibling pairedSiblingDistance
    isDistance_pairedSibling [0, 2] (by decide)

end CppTransport.Runtime
