import CppTransport.Library.Exceptions
import CppTransport.Library.IndexLoops
import CppTransport.Library.RelatedLists
import CppTransport.Runtime.ThreepfDatabase
import Mathlib.Data.List.FinRange
import Mathlib.Data.Multiset.Basic
import Mathlib.Tactic.FieldSimp
import Mathlib.Tactic.Ring

/-!
# Triangles on a lattice

A threepf task is built from a lattice (`tasks/integration_detail/threepf_task.h`), of three wavenumbers or of
their sum `k_t` and the parameters `alpha` and `beta`. The constructor steps through the lattice in three nested loops
and asks a triangle policy which points are triangles. Those it adds to its database, where a storage policy may
decline them. Then it computes horizon-exit times, for which it searches the twopf database for the legs again, and
the times from which samples are stored, for which it searches for the largest leg.

## The model

A range is what the constructors read of it. A storage policy is a function of the configuration, and a triangle policy
one of the indices and of the values there. What the background model and root finding give is a parameter: the time
when a wavenumber leaves the horizon, and the time when a configuration becomes massless; both may fail. Messages
and reports are left out, and so is the list of stored times.

## What is proved

* `constructors_hold`: the database holds the points that both policies accept, in the order of the lattice and
  numbered in that order, and the task is integrable just if the storage policy has declined none and the spacing is
  linear;
* `each_triangle_once`: with the default policies, each triangle with sides on the lattice is there once, in whatever
  order its sides are given;
* `ordered_triangles`: the parameters that the other default policy accepts are those of ordered triangles that are
  not squeezed too much;
* `no_database_miss`: whatever triangles have been added, every search for a leg is successful, and that for the
  largest one just if there is a triangle.
-/

set_option linter.unusedSectionVars false

namespace CppTransport.Runtime

open Library
open scoped Library.Numerals

namespace Kconfig

variable {K : Type*} [Field K] [LinearOrder K] [IsStrictOrderedRing K]

/-! ### Policies -/

def CPPTRANSPORT_DEFAULT_KCONFIG_TOLERANCE : K := 1 / 10 ^ 10

def CPPTRANSPORT_DEFAULT_SMALLEST_SQUEEZING : K := 1 / 10 ^ 8

/-- It stores all triangles. -/
def DefaultStoragePolicy : threepf_kconfig K → storage_outcome := fun _ => .accept

/-- It requires the ordering `k1 > k2 > k3`. -/
def DefaultCubicTrianglePolicy (tol : K) (i j k : ℕ) (k1 k2 k3 : K) : Bool :=
  let tolerance := |tol|
  if i < j then false
  else if j < k then false
  else
    let max := max (max k1 k2) k3
    decide (k1 + k2 + k3 - 2 * max ≥ -tolerance)

/-- It requires the ordering `k1 > k2 > k3`. -/
def DefaultAlphaBetaTrianglePolicy (tol sq alpha beta : K) : Bool :=
  let tolerance := |tol|
  let smallest_squeezing := |sq|
  if beta < 0 then false
  else if beta > 1 then false
  -- `alpha` should lie between `1-beta` and `beta-1`
  else if beta - 1 - alpha > tolerance then false
  else if alpha - (1 - beta) > tolerance then false
  -- impose the ordering
  else if alpha < 0 then false
  else if beta - (1 + alpha) / 3 < -tolerance then false
  -- squeezing should not be too small
  else if |1 - beta| < smallest_squeezing then false
  else if |1 + alpha + beta| < smallest_squeezing then false
  else if |1 - alpha + beta| < smallest_squeezing then false
  else true

/-! ### Lattices -/

/-- What the constructors read of a range. -/
structure range (K : Type*) where
  size : ℕ
  /-- `operator[]` -/
  value : Fin size → K
  get_min : K
  get_max : K
  get_steps : ℕ
  is_simple_linear : Bool

/-- A threepf task, as far as its databases and the flag go. -/
structure threepf_task (K : Type*) extends State K where
  /-- Have we dropped no configurations, and is the spacing linear? -/
  integrable : Bool

namespace threepf_task

/-- The task before the loops; `kstar` is the normalization of both databases. -/
def create (kstar : K) : threepf_task K := { State.create kstar with integrable := true }

variable (task : threepf_task K)

/-- The innermost statement: the triangle is added, and when it is not stored the task is not integrable. -/
def add (c : Call K) : Option (threepf_task K) :=
  (task.threepf_db.add_record task.twopf_db (c.config task.threepf_db) c.policy).map
    fun (threepf_db, twopf_db, record) =>
      { threepf_db := threepf_db
        twopf_db := twopf_db
        integrable := if record.isNone then false else task.integrable }

/-- The three loops, over the lattice of the indices of three ranges. -/
def step_through (n m l : ℕ) (triangle : Fin n → Fin m → Fin l → Bool) (call : Fin n → Fin m → Fin l → Call K) :
    Option (threepf_task K) :=
  (List.finRange n).foldlM (fun task i =>
    (List.finRange m).foldlM (fun task j =>
      (List.finRange l).foldlM (fun task k =>
        if triangle i j k then task.add (call i j k) else some task) task) task) task

end threepf_task

/-- A task that is built from a lattice of wavenumbers. -/
structure threepf_cubic_task (K : Type*) extends threepf_task K where
  spacing : K

/-- The constructor, up to the horizon-exit times. -/
def threepf_cubic_task.create (kstar : K) (ks : range K) (policy : threepf_kconfig K → storage_outcome)
    (triangle : ℕ → ℕ → ℕ → K → K → K → Bool) : Option (threepf_cubic_task K) := do
  let task ← (threepf_task.create kstar).step_through ks.size ks.size ks.size
    (fun j k l => triangle j k l (ks.value j) (ks.value k) (ks.value l))
    (fun j k l => .k1k2k3 (ks.value j) (ks.value k) (ks.value l) policy)
  return {
    toState := task.toState
    integrable := if !ks.is_simple_linear then false else task.integrable
    spacing := (ks.get_max - ks.get_min) / ks.get_steps }

/-- A task that is built from values of `k_t`, `alpha` and `beta`. -/
structure threepf_alphabeta_task (K : Type*) extends threepf_task K where
  kt_spacing : K
  alpha_spacing : K
  beta_spacing : K

/-- The constructor, up to the horizon-exit times. -/
def threepf_alphabeta_task.create (kstar : K) (kts alphas betas : range K)
    (policy : threepf_kconfig K → storage_outcome) (triangle : K → K → Bool) : Option (threepf_alphabeta_task K) := do
  let task ← (threepf_task.create kstar).step_through kts.size alphas.size betas.size
    (fun _ k l => triangle (alphas.value k) (betas.value l))
    (fun j k l => .alphabeta (kts.value j) (alphas.value k) (betas.value l) policy)
  return {
    toState := task.toState
    integrable := if !kts.is_simple_linear || !alphas.is_simple_linear || !betas.is_simple_linear then false
      else task.integrable
    kt_spacing := (kts.get_max - kts.get_min) / kts.get_steps
    alpha_spacing := (alphas.get_max - alphas.get_min) / alphas.get_steps
    beta_spacing := (betas.get_max - betas.get_min) / betas.get_steps }

/-! ### What is added -/

/-- The configuration without the serial numbers that the databases give it. -/
def threepf_kconfig.unnumbered (config : threepf_kconfig K) : threepf_kconfig K :=
  { config with serial := 0, k1_serial := 0, k2_serial := 0, k3_serial := 0 }

/-- The configurations that a policy accepts. -/
def kept (policy : threepf_kconfig K → storage_outcome) (configs : List (threepf_kconfig K)) :
    List (threepf_kconfig K) :=
  configs.filter fun config => policy config = .accept

theorem kept_append (policy : threepf_kconfig K → storage_outcome) (configs more : List (threepf_kconfig K)) :
    kept policy (configs ++ more) = kept policy configs ++ kept policy more :=
  List.filter_append ..

namespace threepf_kconfig_database

variable {db : threepf_kconfig_database K} {w : twopf_kconfig_database K} {config : threepf_kconfig K}
  {p : Populated K} {policy : threepf_kconfig K → storage_outcome}
  {r : threepf_kconfig_database K × twopf_kconfig_database K × Option ℕ}

theorem unnumbered_populate (hp : db.populate w config = some p) : p.config.unnumbered = config.unnumbered := by
  simp only [populate, Option.bind_eq_bind, Option.bind_eq_some_iff] at hp
  obtain ⟨leg₁, -, leg₂, -, leg₃, -, hp⟩ := hp
  obtain rfl := Option.some.inj hp
  rfl

/-- An iterator is returned just if the policy accepts. -/
theorem isSome_add_record (hp : db.populate w config = some p) (h : db.add_record w config policy = some r) :
    r.2.2.isSome ↔ policy p.config = .accept := by
  rw [add_record, hp, Option.bind_eq_bind, Option.bind_some] at h
  cases hpol : policy p.config with
  | reject_remove =>
    simp only [hpol, Option.bind_eq_bind, Option.bind_eq_some_iff] at h
    obtain ⟨w₁, -, w₂, -, w₃, -, h⟩ := h
    obtain rfl := Option.some.inj h
    simp
  | reject_retain =>
    simp only [hpol] at h
    obtain rfl := Option.some.inj h
    simp
  | accept =>
    simp only [hpol, retain, Option.bind_eq_bind, Option.bind_eq_some_iff] at h
    obtain ⟨leg₁, -, leg₂, -, leg₃, -, h⟩ := h
    obtain rfl := Option.some.inj h
    simp

end threepf_kconfig_database

namespace threepf_task

open threepf_kconfig_database State

variable {policy : threepf_kconfig K → storage_outcome} {task task' task'' : threepf_task K}
  {configs more : List (threepf_kconfig K)}

/-- `task'` is what `task` has become when the policy has judged the configurations. -/
structure Judged (policy : threepf_kconfig K → storage_outcome) (task task' : threepf_task K)
    (configs : List (threepf_kconfig K)) : Prop where
  sound : State.Sound task'.toState
  normalization : task'.threepf_db.comoving_normalization = task.threepf_db.comoving_normalization
  records : task'.threepf_db.database.map (·.record) = task.threepf_db.database.map (·.record) ++ kept policy configs
  /-- Those that are kept are numbered in their order. -/
  serials : (kept policy configs).map (·.serial) = List.range' task.threepf_db.serial (kept policy configs).length
  serial : task'.threepf_db.serial = task.threepf_db.serial + (kept policy configs).length
  integrable : task'.integrable = (task.integrable && configs.all fun config => policy config = .accept)

namespace Judged

theorem refl (h : State.Sound task.toState) : Judged policy task task [] where
  sound := h
  normalization := rfl
  records := (List.append_nil _).symm
  serials := rfl
  serial := rfl
  integrable := (Bool.and_true _).symm

theorem trans (h : Judged policy task task' configs) (h' : Judged policy task' task'' more) :
    Judged policy task task'' (configs ++ more) where
  sound := h'.sound
  normalization := h'.normalization.trans h.normalization
  records := by rw [h'.records, h.records, kept_append, List.append_assoc]
  serials := by
    rw [kept_append, List.map_append, h.serials, h'.serials, h.serial, List.length_append, List.range'_append_1]
  serial := by
    have hlength := congrArg List.length (kept_append policy configs more)
    rw [List.length_append] at hlength
    have hfirst := h.serial
    have hsecond := h'.serial
    omega
  integrable := by rw [h'.integrable, h.integrable, List.all_append, Bool.and_assoc]

end Judged

theorem unnumbered_config (c : Call K) (db : threepf_kconfig_database K) : (c.config db).unnumbered = c.config db := by
  cases c <;> rfl

/-- What is added depends on the normalization only. -/
theorem config_congr (c : Call K) {db db' : threepf_kconfig_database K}
    (h : db.comoving_normalization = db'.comoving_normalization) : c.config db = c.config db' := by
  cases c <;> simp only [Call.config, config_k1k2k3, config_alphabeta, h]

/-- **One triangle**: the policy judges it with the serial numbers it is given. -/
theorem add_judged (h : State.Sound task.toState) (c : Call K) : ∃ task' config, task.add c = some task' ∧
    config.unnumbered = c.config task.threepf_db ∧ Judged c.policy task task' [config] := by
  obtain ⟨p, -, s', hp, -, -, hserial, happly, applied⟩ := exists_applied h c
  obtain ⟨s'', happly', sound, -⟩ := exists_apply h c
  obtain rfl : s' = s'' := Option.some.inj (happly.symm.trans happly')
  rw [apply_eq] at happly
  obtain ⟨r, hr, rfl⟩ := Option.map_eq_some_iff.mp happly
  have hsome := isSome_add_record hp hr
  have hnumbers : p.config.unnumbered = c.config task.threepf_db :=
    (unnumbered_populate hp).trans (unnumbered_config c _)
  refine ⟨_, p.config, by rw [add, hr, Option.map_some], hnumbers, ?_⟩
  obtain ⟨db, w, record⟩ := r
  simp only at applied hsome sound ⊢
  cases hpol : c.policy p.config with
  | reject_remove =>
    have hrecord : record = none := by simpa [hpol] using hsome
    rw [hpol] at applied
    cases applied with
    | reject_remove _ _ =>
      refine ⟨sound, rfl, ?_, ?_, ?_, ?_⟩ <;> simp [kept, hpol, hrecord]
  | reject_retain =>
    have hrecord : record = none := by simpa [hpol] using hsome
    rw [hpol] at applied
    cases applied with
    | reject_retain =>
      refine ⟨sound, rfl, ?_, ?_, ?_, ?_⟩ <;> simp [kept, hpol, hrecord]
  | accept =>
    have hrecord : record.isNone = false := by
      rw [← Option.not_isSome, hsome.mpr hpol]
      rfl
    rw [hpol] at applied
    cases applied with
    | @accept _ t _ _ ht hdb _ _ _ =>
      refine ⟨sound, rfl, ?_, ?_, ?_, ?_⟩
      · simp [kept, hpol, hdb, ht]
      · simp [kept, hpol, hserial]
      · simp [kept, hpol, insert_record]
      · simp [hpol, hrecord]

/-- The databases are those after a call. -/
theorem apply_toState {c : Call K} (h : task.add c = some task') : task.toState.apply c = some task'.toState := by
  obtain ⟨r, hr, rfl⟩ := Option.map_eq_some_iff.mp h
  rw [apply_eq, hr, Option.map_some]

/-- **Any number of triangles**, all judged by one policy. -/
theorem foldlM_add_judged (h : State.Sound task.toState) {calls : List (Call K)}
    (hpolicy : ∀ c ∈ calls, c.policy = policy) :
    ∃ task' configs, calls.foldlM add task = some task' ∧ calls.foldlM apply task.toState = some task'.toState ∧
      configs.map (·.unnumbered) = calls.map (·.config task.threepf_db) ∧ Judged policy task task' configs := by
  induction calls generalizing task with
  | nil => exact ⟨task, [], rfl, rfl, rfl, .refl h⟩
  | cons c calls ih =>
    obtain ⟨task₁, config, hadd, hconfig, hfirst⟩ := add_judged h c
    rw [hpolicy c List.mem_cons_self] at hfirst
    obtain ⟨task₂, configs, hfold, hrun, hconfigs, hrest⟩ :=
      ih hfirst.sound fun c hc => hpolicy c (List.mem_cons_of_mem _ hc)
    refine ⟨task₂, config :: configs, ?_, ?_, ?_, hfirst.trans hrest⟩
    · rw [List.foldlM_cons, hadd, Option.bind_eq_bind, Option.bind_some, hfold]
    · rw [List.foldlM_cons, apply_toState hadd, Option.bind_eq_bind, Option.bind_some, hrun]
    · rw [List.map_cons, List.map_cons, hconfig, hconfigs]
      exact congrArg _ (List.map_congr_left fun c _ => config_congr c hfirst.normalization)

end threepf_task

/-! ### The constructors -/

/-- The indices in the order of the loops. -/
def lattice (n m l : ℕ) : List (Fin n × Fin m × Fin l) := List.finRange n ×ˢ List.finRange m ×ˢ List.finRange l

theorem mem_lattice {n m l : ℕ} (p : Fin n × Fin m × Fin l) : p ∈ lattice n m l :=
  List.pair_mem_product.mpr ⟨List.mem_finRange _, List.pair_mem_product.mpr ⟨List.mem_finRange _, List.mem_finRange _⟩⟩

theorem nodup_lattice (n m l : ℕ) : (lattice n m l).Nodup :=
  (List.nodup_finRange n).product ((List.nodup_finRange m).product (List.nodup_finRange l))

namespace threepf_task

variable {policy : threepf_kconfig K → storage_outcome} {task : threepf_task K} {n m l : ℕ}
  {triangle : Fin n → Fin m → Fin l → Bool} {call : Fin n → Fin m → Fin l → Call K}

/-- The triangles that the loops come to. -/
def visited (triangle : Fin n → Fin m → Fin l → Bool) : List (Fin n × Fin m × Fin l) :=
  (lattice n m l).filter fun p => triangle p.1 p.2.1 p.2.2

/-- The three loops are one over the triangles. -/
theorem step_through_eq (task : threepf_task K) : task.step_through n m l triangle call =
    ((visited triangle).map fun p => call p.1 p.2.1 p.2.2).foldlM add task := by
  rw [List.foldlM_map, visited, List.foldlM_filter]
  simp only [lattice, SProd.sprod, List.product, foldlM_flatMap, List.foldlM_map]
  rfl

/-- Calls have led from new databases to these. -/
def Reached (kstar : K) (s : State K) : Prop :=
  ∃ calls : List (Call K), calls.foldlM State.apply (State.create kstar) = some s

/-- A task holds what the policy accepts of the triangles that are offered to it, numbered in their order, and is
integrable if none is missing and the spacing is linear. -/
def Holds (kstar : K) (policy : threepf_kconfig K → storage_outcome) (offered : List (threepf_kconfig K))
    (linear : Prop) (task : threepf_task K) : Prop :=
  Reached kstar task.toState ∧
  ∃ configs : List (threepf_kconfig K), configs.map (·.unnumbered) = offered ∧
    task.threepf_db.database.map (·.record) = kept policy configs ∧
    (kept policy configs).map (·.serial) = List.range (kept policy configs).length ∧
    (task.integrable = true ↔ (∀ config ∈ configs, policy config = .accept) ∧ linear)

/-- **The loops** offer the triangles in the order of the lattice. -/
theorem exists_step_through (kstar : K) (triangle : Fin n → Fin m → Fin l → Bool)
    {call : Fin n → Fin m → Fin l → Call K} (hpolicy : ∀ i j k, (call i j k).policy = policy) :
    ∃ task, (create kstar).step_through n m l triangle call = some task ∧
      task.Holds kstar policy ((visited triangle).map fun p => (call p.1 p.2.1 p.2.2).config (.create kstar)) True := by
  have hcalls : ∀ c ∈ (visited triangle).map fun p => call p.1 p.2.1 p.2.2, c.policy = policy := by
    simp only [List.mem_map]
    rintro _ ⟨p, -, rfl⟩
    exact hpolicy ..
  have hsound : State.Sound (create kstar).toState := State.sound_create kstar
  obtain ⟨task, configs, hfold, hrun, hconfigs, judged⟩ := foldlM_add_judged hsound hcalls
  refine ⟨task, by rw [step_through_eq, hfold], ⟨_, hrun⟩, configs, ?_, judged.records, ?_, ?_⟩
  · rw [hconfigs, List.map_map]
    rfl
  · rw [judged.serials, List.range_eq_range']
    rfl
  · rw [judged.integrable]
    simp [create]

theorem Holds.restrict {kstar : K} {offered : List (threepf_kconfig K)} (h : task.Holds kstar policy offered True)
    (linear : Bool) : Holds kstar policy offered (linear = true)
      { task with integrable := if !linear then false else task.integrable } := by
  obtain ⟨hreached, configs, hoffered, hrecords, hserials, hintegrable⟩ := h
  refine ⟨hreached, configs, hoffered, hrecords, hserials, ?_⟩
  cases linear <;> simp [hintegrable]

end threepf_task

/-- The configurations of a cubic lattice. -/
def cubic_configs (kstar : K) (ks : range K) (triangle : ℕ → ℕ → ℕ → K → K → K → Bool) : List (threepf_kconfig K) :=
  ((lattice ks.size ks.size ks.size).filter fun (j, k, l) =>
    triangle j k l (ks.value j) (ks.value k) (ks.value l)).map fun (j, k, l) =>
      (threepf_kconfig_database.create kstar).config_k1k2k3 (ks.value j) (ks.value k) (ks.value l)

/-- The configuration at a point of a lattice of parameters. -/
def alphabeta_point (kstar : K) (kts alphas betas : range K) (j : Fin kts.size) (k : Fin alphas.size)
    (l : Fin betas.size) : threepf_kconfig K :=
  (threepf_kconfig_database.create kstar).config_alphabeta (kts.value j) (alphas.value k) (betas.value l)

/-- The configurations of a lattice of parameters. -/
def alphabeta_configs (kstar : K) (kts alphas betas : range K) (triangle : K → K → Bool) : List (threepf_kconfig K) :=
  ((lattice kts.size alphas.size betas.size).filter fun (_, k, l) => triangle (alphas.value k) (betas.value l)).map
    fun (j, k, l) => alphabeta_point kstar kts alphas betas j k l

section Constructors

variable (kstar : K) (policy : threepf_kconfig K → storage_outcome)

theorem cubic_holds (ks : range K) (triangle : ℕ → ℕ → ℕ → K → K → K → Bool) :
    ∃ task, threepf_cubic_task.create kstar ks policy triangle = some task ∧
      task.Holds kstar policy (cubic_configs kstar ks triangle) (ks.is_simple_linear = true) := by
  obtain ⟨task, htask, holds⟩ := threepf_task.exists_step_through kstar
    (fun j k l : Fin ks.size => triangle j k l (ks.value j) (ks.value k) (ks.value l))
    fun j k l => show (Call.k1k2k3 (ks.value j) (ks.value k) (ks.value l) policy).policy = policy from rfl
  refine ⟨_, by rw [threepf_cubic_task.create, htask]; rfl, ?_⟩
  exact holds.restrict ks.is_simple_linear

theorem alphabeta_holds (kts alphas betas : range K) (triangle : K → K → Bool) :
    ∃ task, threepf_alphabeta_task.create kstar kts alphas betas policy triangle = some task ∧
      task.Holds kstar policy (alphabeta_configs kstar kts alphas betas triangle)
        (kts.is_simple_linear = true ∧ alphas.is_simple_linear = true ∧ betas.is_simple_linear = true) := by
  obtain ⟨task, htask, holds⟩ := threepf_task.exists_step_through kstar
    (fun (_ : Fin kts.size) (k : Fin alphas.size) (l : Fin betas.size) => triangle (alphas.value k) (betas.value l))
    fun j k l => show (Call.alphabeta (kts.value j) (alphas.value k) (betas.value l) policy).policy = policy from rfl
  refine ⟨_, by rw [threepf_alphabeta_task.create, htask]; rfl, ?_⟩
  have restricted := holds.restrict (kts.is_simple_linear && alphas.is_simple_linear && betas.is_simple_linear)
  simp only [Bool.not_and, Bool.and_eq_true, and_assoc] at restricted
  exact restricted

/-- **The constructors** offer the storage policy all points of the lattice that the triangle policy takes for
triangles, in the order of the lattice. They store those that it accepts, and the task is integrable just if it has
accepted all and the spacing is linear. -/
theorem constructors_hold :
    (∀ (ks : range K) (triangle : ℕ → ℕ → ℕ → K → K → K → Bool),
      ∃ task, threepf_cubic_task.create kstar ks policy triangle = some task ∧
        task.Holds kstar policy (cubic_configs kstar ks triangle) (ks.is_simple_linear = true)) ∧
    ∀ (kts alphas betas : range K) (triangle : K → K → Bool),
      ∃ task, threepf_alphabeta_task.create kstar kts alphas betas policy triangle = some task ∧
        task.Holds kstar policy (alphabeta_configs kstar kts alphas betas triangle)
          (kts.is_simple_linear = true ∧ alphas.is_simple_linear = true ∧ betas.is_simple_linear = true) :=
  ⟨cubic_holds kstar policy, alphabeta_holds kstar policy⟩

end Constructors

/-- A lattice of three wavenumbers. -/
def three_wavenumbers : range ℚ where
  size := 3
  value i := i + 1
  get_min := 1
  get_max := 3
  get_steps := 2
  is_simple_linear := true

theorem constructors_hold_three : ∃ task, threepf_cubic_task.create 1 three_wavenumbers (fun _ => .reject_remove)
      (fun _ _ _ _ _ _ => true) = some task ∧
    task.Holds 1 (fun _ => .reject_remove) (cubic_configs 1 three_wavenumbers fun _ _ _ _ _ _ => true) True := by
  obtain ⟨task, htask, holds⟩ :=
    (constructors_hold (1 : ℚ) fun _ => .reject_remove).1 three_wavenumbers fun _ _ _ _ _ _ => true
  refine ⟨task, htask, ?_⟩
  simpa [three_wavenumbers] using holds

/-! ### Triangles, up to the order of their sides -/

/-- The sides of a triangle, in no order. -/
def threepf_kconfig.sides (config : threepf_kconfig K) : Multiset K :=
  {config.k1_conventional, config.k2_conventional, config.k3_conventional}

/-- No side is longer than the others together, up to the tolerance. -/
def IsTriangle (tolerance a b c : K) : Prop :=
  a ≤ b + c + tolerance ∧ b ≤ a + c + tolerance ∧ c ≤ a + b + tolerance

theorem isTriangle_iff {tolerance a b c : K} :
    a + b + c - 2 * max (max a b) c ≥ -tolerance ↔ IsTriangle tolerance a b c := by
  have hmax : max (max a b) c ≤ (a + b + c + tolerance) / 2 ↔
      (a ≤ (a + b + c + tolerance) / 2 ∧ b ≤ (a + b + c + tolerance) / 2) ∧ c ≤ (a + b + c + tolerance) / 2 := by
    rw [max_le_iff, max_le_iff]
  rw [IsTriangle]
  constructor
  · intro h
    obtain ⟨⟨ha, hb⟩, hc⟩ := hmax.mp (by linarith)
    exact ⟨by linarith, by linarith, by linarith⟩
  · rintro ⟨ha, hb, hc⟩
    have := hmax.mpr ⟨⟨by linarith, by linarith⟩, by linarith⟩
    linarith

/-- It does not matter in which order the sides are given. -/
theorem isTriangle_congr {tolerance a b c a' b' c' : K} (h : ({a, b, c} : Multiset K) = {a', b', c'}) :
    IsTriangle tolerance a b c ↔ IsTriangle tolerance a' b' c' := by
  have hall : ∀ {a b c : K}, IsTriangle tolerance a b c ↔
      ∀ x ∈ ({a, b, c} : Multiset K), 2 * x ≤ ({a, b, c} : Multiset K).sum + tolerance := by
    intro a b c
    simp only [IsTriangle, Multiset.insert_eq_cons, Multiset.mem_cons, Multiset.mem_singleton, forall_eq_or_imp,
      forall_eq, Multiset.sum_cons, Multiset.sum_singleton]
    constructor
    · rintro ⟨ha, hb, hc⟩
      exact ⟨by linarith, by linarith, by linarith⟩
    · rintro ⟨ha, hb, hc⟩
      exact ⟨by linarith, by linarith, by linarith⟩
  rw [hall, hall, h]

/-- Three sides in descending order are given by the sides in no order. -/
theorem eq_of_sides_eq {a b c a' b' c' : K} (hab : b ≤ a) (hbc : c ≤ b) (hab' : b' ≤ a') (hbc' : c' ≤ b')
    (h : ({a, b, c} : Multiset K) = {a', b', c'}) : a = a' ∧ b = b' ∧ c = c' := by
  have hperm : [a, b, c].Perm [a', b', c'] := Multiset.coe_eq_coe.mp h
  have hsorted : ∀ {a b c : K}, b ≤ a → c ≤ b → [a, b, c].Pairwise (· ≥ ·) := by
    intro a b c hab hbc
    simp [hab, hbc, hbc.trans hab]
  have heq := hperm.eq_of_pairwise (fun _ _ _ _ hxy hyx => le_antisymm hyx hxy) (hsorted hab hbc) (hsorted hab' hbc')
  simpa using heq

/-- Three indices can be put in descending order. -/
theorem exists_descending {n : ℕ} (f : Fin n → K) (i j k : Fin n) : ∃ i' j' k' : Fin n, j' ≤ i' ∧ k' ≤ j' ∧
    ({f i', f j', f k'} : Multiset K) = {f i, f j, f k} := by
  have hperm := List.perm_insertionSort (· ≥ ·) [i, j, k]
  have hsorted := List.pairwise_insertionSort (· ≥ ·) [i, j, k]
  obtain ⟨i', j', k', heq⟩ := List.length_eq_three.mp hperm.length_eq
  rw [heq] at hperm hsorted
  simp only [List.pairwise_cons, List.mem_cons, forall_eq_or_imp] at hsorted
  exact ⟨i', j', k', hsorted.1.1, hsorted.2.1.1, Multiset.coe_eq_coe.mpr (hperm.map f)⟩

theorem cubicPolicy_iff {tol : K} {i j k : ℕ} {a b c : K} :
    DefaultCubicTrianglePolicy tol i j k a b c = true ↔ j ≤ i ∧ k ≤ j ∧ IsTriangle |tol| a b c := by
  rw [DefaultCubicTrianglePolicy, ← isTriangle_iff]
  split_ifs with hij hjk
  · simp only [false_iff]
    omega
  · simp only [false_iff]
    omega
  · rw [decide_eq_true_iff]
    exact ⟨fun h => ⟨by omega, by omega, h⟩, fun h => h.2.2⟩

theorem unnumbered_sides (config : threepf_kconfig K) : config.unnumbered.sides = config.sides := rfl

theorem kept_default (configs : List (threepf_kconfig K)) : kept DefaultStoragePolicy configs = configs := by
  simp [kept, DefaultStoragePolicy]

/-- With the default storage policy nothing is missing. -/
theorem threepf_task.Holds.all {kstar : K} {task : threepf_task K} {offered : List (threepf_kconfig K)} {linear : Prop}
    (h : task.Holds kstar DefaultStoragePolicy offered linear) :
    (task.threepf_db.database.map fun t => t.record.unnumbered) = offered ∧ (task.integrable = true ↔ linear) := by
  obtain ⟨-, configs, hoffered, hrecords, -, hintegrable⟩ := h
  rw [kept_default] at hrecords
  constructor
  · rw [← hoffered, ← hrecords, List.map_map]
    rfl
  · rw [hintegrable]
    exact and_iff_right fun _ _ => rfl

/-- The configurations that the default policy lets through. -/
theorem mem_cubic_configs {kstar tol : K} {ks : range K} {config : threepf_kconfig K} :
    config ∈ cubic_configs kstar ks (DefaultCubicTrianglePolicy tol) ↔ ∃ i j k : Fin ks.size, j ≤ i ∧ k ≤ j ∧
      IsTriangle |tol| (ks.value i) (ks.value j) (ks.value k) ∧
      (threepf_kconfig_database.create kstar).config_k1k2k3 (ks.value i) (ks.value j) (ks.value k) = config := by
  rw [cubic_configs, List.mem_map]
  constructor
  · rintro ⟨⟨i, j, k⟩, hp, heq⟩
    obtain ⟨hij, hjk, htri⟩ := cubicPolicy_iff.mp (List.mem_filter.mp hp).2
    exact ⟨i, j, k, hij, hjk, htri, heq⟩
  · rintro ⟨i, j, k, hij, hjk, htri, heq⟩
    exact ⟨(i, j, k), List.mem_filter.mpr ⟨mem_lattice _, cubicPolicy_iff.mpr ⟨hij, hjk, htri⟩⟩, heq⟩

/-- On an increasing range no two of them have the same sides. -/
theorem nodup_cubic_sides {kstar tol : K} {ks : range K} (h : StrictMono ks.value) :
    ((cubic_configs kstar ks (DefaultCubicTrianglePolicy tol)).map threepf_kconfig.sides).Nodup := by
  rw [cubic_configs, List.map_map]
  refine List.Nodup.map_on ?_ ((nodup_lattice _ _ _).filter _)
  rintro ⟨i, j, k⟩ hp ⟨i', j', k'⟩ hp' heq
  obtain ⟨hij, hjk, -⟩ := cubicPolicy_iff.mp (List.mem_filter.mp hp).2
  obtain ⟨hij', hjk', -⟩ := cubicPolicy_iff.mp (List.mem_filter.mp hp').2
  obtain ⟨hi, hj, hk⟩ := eq_of_sides_eq (h.monotone hij) (h.monotone hjk) (h.monotone hij') (h.monotone hjk') heq
  rw [h.injective hi, h.injective hj, h.injective hk]

/-- **Each triangle** whose sides are on the lattice is stored once, with its sides in descending order, and nothing
else is. -/
theorem each_triangle_once (kstar tol : K) {ks : range K} (h : StrictMono ks.value) :
    ∃ task, threepf_cubic_task.create kstar ks DefaultStoragePolicy (DefaultCubicTrianglePolicy tol) = some task ∧
      (task.threepf_db.database.map fun t => t.record.sides).Nodup ∧
      (∀ i j k, (∃ t ∈ task.threepf_db.database, t.record.sides = {ks.value i, ks.value j, ks.value k}) ↔
        IsTriangle |tol| (ks.value i) (ks.value j) (ks.value k)) ∧
      ∀ t ∈ task.threepf_db.database, ∃ i j k, j ≤ i ∧ k ≤ j ∧ t.record.k1_conventional = ks.value i ∧
        t.record.k2_conventional = ks.value j ∧ t.record.k3_conventional = ks.value k := by
  obtain ⟨task, htask, holds⟩ := cubic_holds kstar DefaultStoragePolicy ks (DefaultCubicTrianglePolicy tol)
  obtain ⟨hrecords, -⟩ := holds.all
  have hmem (config : threepf_kconfig K) : (∃ t ∈ task.threepf_db.database, t.record.unnumbered = config) ↔
      config ∈ cubic_configs kstar ks (DefaultCubicTrianglePolicy tol) := by
    rw [← hrecords, List.mem_map]
  refine ⟨task, htask, ?_, fun i j k => ⟨?_, fun htri => ?_⟩, ?_⟩
  · have hsides : (task.threepf_db.database.map fun t => t.record.sides) =
        (cubic_configs kstar ks (DefaultCubicTrianglePolicy tol)).map threepf_kconfig.sides := by
      rw [← hrecords, List.map_map]
      rfl
    rw [hsides]
    exact nodup_cubic_sides h
  · rintro ⟨t, ht, hsides⟩
    obtain ⟨i', j', k', -, -, htri, heq⟩ := mem_cubic_configs.mp ((hmem _).mp ⟨t, ht, rfl⟩)
    rw [← unnumbered_sides, ← heq] at hsides
    exact (isTriangle_congr hsides).mp htri
  · -- the indices in descending order are those the loops come to
    obtain ⟨i', j', k', hij, hjk, hsides⟩ := exists_descending ks.value i j k
    obtain ⟨t, ht, heq⟩ := (hmem _).mpr
      (mem_cubic_configs.mpr ⟨i', j', k', hij, hjk, (isTriangle_congr hsides).mpr htri, rfl⟩)
    refine ⟨t, ht, ?_⟩
    rw [← unnumbered_sides, heq]
    exact hsides
  · intro t ht
    obtain ⟨i, j, k, hij, hjk, -, heq⟩ := mem_cubic_configs.mp ((hmem _).mp ⟨t, ht, rfl⟩)
    refine ⟨i, j, k, hij, hjk, ?_, ?_, ?_⟩
    · exact (congrArg threepf_kconfig.k1_conventional heq).symm
    · exact (congrArg threepf_kconfig.k2_conventional heq).symm
    · exact (congrArg threepf_kconfig.k3_conventional heq).symm

theorem each_triangle_once_three : ∃ task, threepf_cubic_task.create 1 three_wavenumbers DefaultStoragePolicy
      (DefaultCubicTrianglePolicy CPPTRANSPORT_DEFAULT_KCONFIG_TOLERANCE) = some task ∧
    ∃ t ∈ task.threepf_db.database, t.record.sides = {1, 2, 2} := by
  have hmono : StrictMono three_wavenumbers.value := by
    intro i j hij
    have hlt : (i.val : ℚ) < j.val := by exact_mod_cast hij
    show (i.val : ℚ) + 1 < j.val + 1
    linarith
  obtain ⟨task, htask, -, hstored, -⟩ :=
    each_triangle_once 1 CPPTRANSPORT_DEFAULT_KCONFIG_TOLERANCE hmono
  refine ⟨task, htask, ?_⟩
  obtain ⟨t, ht, hsides⟩ := (hstored (0 : Fin 3) (1 : Fin 3) (1 : Fin 3)).mpr
    (isTriangle_iff.mp (by decide +kernel))
  refine ⟨t, ht, hsides.trans ?_⟩
  decide +kernel

/-! ### Ordered triangles -/

/-- A triangle with its sides in descending order, up to the tolerance, none of which is too small. -/
structure OrderedTriangle (tolerance smallest_squeezing : K) (config : threepf_kconfig K) : Prop where
  first : config.k2_conventional ≤ config.k1_conventional
  second : config.k3_conventional ≤ config.k2_conventional + 3 / 4 * tolerance * config.kt_conventional
  side₁ : config.k1_conventional ≤
    config.k2_conventional + config.k3_conventional + tolerance / 2 * config.kt_conventional
  side₂ : config.k2_conventional ≤
    config.k1_conventional + config.k3_conventional + tolerance / 2 * config.kt_conventional
  side₃ : config.k3_conventional ≤ config.k1_conventional + config.k2_conventional
  nonneg : 0 ≤ config.k3_conventional
  squeezed₁ : smallest_squeezing / 4 * config.kt_conventional ≤ |config.k1_conventional|
  squeezed₂ : smallest_squeezing / 4 * config.kt_conventional ≤ |config.k2_conventional|
  squeezed₃ : smallest_squeezing / 2 * config.kt_conventional ≤ |config.k3_conventional|

theorem alphabetaPolicy_iff {tol sq alpha beta : K} : DefaultAlphaBetaTrianglePolicy tol sq alpha beta = true ↔
    0 ≤ beta ∧ beta ≤ 1 ∧ beta - 1 - alpha ≤ |tol| ∧ alpha - (1 - beta) ≤ |tol| ∧ 0 ≤ alpha ∧
      -|tol| ≤ beta - (1 + alpha) / 3 ∧ |sq| ≤ |1 - beta| ∧ |sq| ≤ |1 + alpha + beta| ∧ |sq| ≤ |1 - alpha + beta| := by
  have hrejects (p : Prop) [Decidable p] (b : Bool) : (if p then false else b) = true ↔ ¬ p ∧ b = true := by
    split_ifs with hp <;> simp [hp]
  rw [DefaultAlphaBetaTrianglePolicy]
  simp only [hrejects, gt_iff_lt, not_lt, and_true]

/-- The sides in terms of the parameters. -/
theorem ordered_iff_parameters {db : threepf_kconfig_database K} {t q kt alpha beta : K} (hkt : 0 < kt) :
    OrderedTriangle t q (db.config_alphabeta kt alpha beta) ↔
      0 ≤ beta ∧ beta ≤ 1 ∧ beta - 1 - alpha ≤ t ∧ alpha - (1 - beta) ≤ t ∧ 0 ≤ alpha ∧
        -t ≤ beta - (1 + alpha) / 3 ∧ q ≤ |1 - beta| ∧ q ≤ |1 + alpha + beta| ∧ q ≤ |1 - alpha + beta| := by
  have hscale : ∀ x : K, 0 ≤ kt * x ↔ 0 ≤ x := fun x => mul_nonneg_iff_of_pos_left hkt
  have h₁ : |kt / 4 * (1 + alpha + beta)| = kt / 4 * |1 + alpha + beta| := by
    rw [abs_mul, abs_of_pos (by positivity)]
  have h₂ : |kt / 4 * (1 - alpha + beta)| = kt / 4 * |1 - alpha + beta| := by
    rw [abs_mul, abs_of_pos (by positivity)]
  have h₃ : |kt / 2 * (1 - beta)| = kt / 2 * |1 - beta| := by
    rw [abs_mul, abs_of_pos (by positivity)]
  constructor
  · rintro ⟨first, second, side₁, side₂, side₃, nonneg, squeezed₁, squeezed₂, squeezed₃⟩
    simp only [threepf_kconfig_database.config_alphabeta, h₁, h₂, h₃] at *
    refine ⟨?_, ?_, ?_, ?_, ?_, ?_, ?_, ?_, ?_⟩
    all_goals
      rw [← sub_nonneg, ← hscale]
      nlinarith
  · rintro ⟨hbeta, hbeta', halpha, halpha', hfirst, hsecond, hsq₃, hsq₁, hsq₂⟩
    constructor
    all_goals
      simp only [threepf_kconfig_database.config_alphabeta, h₁, h₂, h₃]
      nlinarith

/-- **Parameters**: with the default policies, the points of the lattice that are stored are those of ordered
triangles. -/
theorem ordered_triangles (kstar tol sq : K) {kts : range K} (alphas betas : range K) (h : ∀ j, 0 < kts.value j) :
    ∃ task, threepf_alphabeta_task.create kstar kts alphas betas DefaultStoragePolicy
        (DefaultAlphaBetaTrianglePolicy tol sq) = some task ∧
      (∀ t ∈ task.threepf_db.database, OrderedTriangle |tol| |sq| t.record) ∧
      ∀ j k l, (∃ t ∈ task.threepf_db.database, t.record.unnumbered = alphabeta_point kstar kts alphas betas j k l) ↔
        OrderedTriangle |tol| |sq| (alphabeta_point kstar kts alphas betas j k l) := by
  obtain ⟨task, htask, holds⟩ :=
    alphabeta_holds kstar DefaultStoragePolicy kts alphas betas (DefaultAlphaBetaTrianglePolicy tol sq)
  obtain ⟨hrecords, -⟩ := holds.all
  have hordered (j k l) : DefaultAlphaBetaTrianglePolicy tol sq (alphas.value k) (betas.value l) = true ↔
      OrderedTriangle |tol| |sq| (alphabeta_point kstar kts alphas betas j k l) :=
    alphabetaPolicy_iff.trans (ordered_iff_parameters (h j)).symm
  have hmem (config : threepf_kconfig K) : (∃ t ∈ task.threepf_db.database, t.record.unnumbered = config) ↔
      ∃ j k l, DefaultAlphaBetaTrianglePolicy tol sq (alphas.value k) (betas.value l) = true ∧
        alphabeta_point kstar kts alphas betas j k l = config := by
    rw [← List.mem_map, hrecords, alphabeta_configs, List.mem_map]
    simp only [Prod.exists, List.mem_filter, mem_lattice, true_and]
  have hstored : ∀ t ∈ task.threepf_db.database, OrderedTriangle |tol| |sq| t.record.unnumbered := by
    intro t ht
    obtain ⟨j, k, l, hpolicy, heq⟩ := (hmem _).mp ⟨t, ht, rfl⟩
    exact heq ▸ (hordered j k l).mp hpolicy
  refine ⟨task, htask, fun t ht => ?_, ?_⟩
  · obtain ⟨first, second, side₁, side₂, side₃, nonneg, squeezed₁, squeezed₂, squeezed₃⟩ := hstored t ht
    exact ⟨first, second, side₁, side₂, side₃, nonneg, squeezed₁, squeezed₂, squeezed₃⟩
  · intro j k l
    constructor
    · rintro ⟨t, ht, heq⟩
      exact heq ▸ hstored t ht
    · exact fun hpoint => (hmem _).mpr ⟨j, k, l, (hordered j k l).mpr hpoint, rfl⟩

theorem ordered_triangles_three : ∃ task, threepf_alphabeta_task.create 1 three_wavenumbers
      ⟨1, fun _ => 0, 0, 0, 0, true⟩ ⟨1, fun _ => 1 / 3, 0, 0, 0, true⟩ DefaultStoragePolicy
      (DefaultAlphaBetaTrianglePolicy CPPTRANSPORT_DEFAULT_KCONFIG_TOLERANCE
        CPPTRANSPORT_DEFAULT_SMALLEST_SQUEEZING) = some task ∧
    ∀ t ∈ task.threepf_db.database, t.record.k2_conventional ≤ t.record.k1_conventional := by
  have hpos : ∀ j, 0 < three_wavenumbers.value j := by decide +kernel
  obtain ⟨task, htask, hstored, -⟩ := ordered_triangles 1 CPPTRANSPORT_DEFAULT_KCONFIG_TOLERANCE
    CPPTRANSPORT_DEFAULT_SMALLEST_SQUEEZING ⟨1, fun _ => 0, 0, 0, 0, true⟩ ⟨1, fun _ => 1 / 3, 0, 0, 0, true⟩ hpos
  exact ⟨task, htask, fun t ht => (hstored t ht).first⟩

/-! ### Horizon-exit times -/

/-- An exception of the constructor. -/
inductive task_exception (K : Type*) where
  /-- The root finder fails, or the background model does. -/
  | failed (message : String)
  /-- `runtime_exception(RUNTIME_ERROR, ..)`, with a wavenumber or time after the message. -/
  | runtime_error (message : String) (value : Extremum K)

def CPPTRANSPORT_TASK_THREEPF_DATABASE_MISS : String := "Internal error: missing database entry for k ="

def CPPTRANSPORT_TASK_TWOPF_LIST_DATABASE_MISS : String := "Internal error: missing database entry for k ="

/-- What the splines of the background give, by root finding: when a comoving wavenumber leaves the horizon, and when
a configuration with this time of exit becomes massless. -/
structure background (K : Type*) where
  find_exit : K → Except String K
  compute_t_massless : twopf_kconfig_record K → K → Except String K

/-- The settings of initial conditions that times depend on. -/
structure initial_conditions (K : Type*) where
  N_initial : K
  adaptive_ics : Bool
  adaptive_efolds : K

section HorizonExit

variable (bg : background K) (ics : initial_conditions K)

/-- The result of the root finder, or its exception. -/
def solved : Except String K → Except (task_exception K) K
  | .ok N => .ok N
  | .error message => .error (.failed message)

/-- The record that an iterator from `find` points to. -/
def twopf_kconfig_database.found (db : twopf_kconfig_database K) (k : K) : Option (twopf_kconfig_record K) :=
  (db.find k).bind db.lookup

/-- One round of `twopf_compute_horizon_exit_times`. -/
def twopf_times (t : twopf_kconfig_record K) : Except (task_exception K) (twopf_kconfig_record K) := do
  let t_exit ← solved (bg.find_exit t.k_comoving)
  let t_massless ← solved (bg.compute_t_massless t t_exit)
  return { t with t_exit := t_exit, t_massless := t_massless }

/-- `twopf_compute_horizon_exit_times` -/
def twopf_compute_horizon_exit_times (db : twopf_kconfig_database K) :
    Except (task_exception K) (twopf_kconfig_database K) := do
  let database ← db.database.mapM (twopf_times bg)
  return { db with database := database }

/-- A search for a leg that must be there. -/
def seek (db : twopf_kconfig_database K) (k : K) : Except (task_exception K) (twopf_kconfig_record K) :=
  match db.found k with
  | some rec => .ok rec
  | none => .error (.runtime_error CPPTRANSPORT_TASK_THREEPF_DATABASE_MISS (wavenumber k))

/-- One round of `threepf_compute_horizon_exit_times`. -/
def threepf_times (twopf_db : twopf_kconfig_database K) (t : threepf_kconfig_record K) :
    Except (task_exception K) (threepf_kconfig_record K) := do
  let t_exit ← solved (bg.find_exit (t.record.kt_comoving / 3))
  let rec1 ← seek twopf_db t.record.k1_conventional
  let rec2 ← seek twopf_db t.record.k2_conventional
  let rec3 ← seek twopf_db t.record.k3_conventional
  return { t with record := { t.record with
    t_exit := t_exit
    t_massless := min (min rec1.t_massless rec2.t_massless) rec3.t_massless } }

/-- `compute_horizon_exit_times`: the twopf configurations first. -/
def compute_horizon_exit_times (s : State K) : Except (task_exception K) (State K) := do
  let twopf_db ← twopf_compute_horizon_exit_times bg s.twopf_db
  let database ← s.threepf_db.database.mapM (threepf_times bg twopf_db)
  return { threepf_db := { s.threepf_db with database := database }, twopf_db := twopf_db }

/-- `get_initial_time` for a twopf configuration. -/
def get_initial_time (rec : twopf_kconfig_record K) : K :=
  if ics.adaptive_ics then rec.t_massless - ics.adaptive_efolds else ics.N_initial

/-- `get_earliest_recordable_time`; nothing in the database is within the tolerance of `∓DBL_MAX`. -/
def get_earliest_recordable_time (db : twopf_kconfig_database K) (largest_conventional_k : Extremum K) :
    Except (task_exception K) K :=
  match largest_conventional_k with
  | some (some k) =>
    match db.found k with
    | some rec => .ok (get_initial_time ics rec)
    | none => .error (.runtime_error CPPTRANSPORT_TASK_TWOPF_LIST_DATABASE_MISS largest_conventional_k)
  | _ => .error (.runtime_error CPPTRANSPORT_TASK_TWOPF_LIST_DATABASE_MISS largest_conventional_k)

/-- `get_ics_exit_time`, by the smallest wavenumber or by `k_t`. -/
def get_ics_exit_time (db : twopf_kconfig_database K) (config : threepf_kconfig K) (smallest_wavenumber : Bool) :
    Except (task_exception K) K :=
  if smallest_wavenumber then do
    let rec ← seek db (min (min config.k1_conventional config.k2_conventional) config.k3_conventional)
    return rec.t_exit
  else .ok config.t_exit

end HorizonExit

/-! ### Searches -/

section Searches

variable {bg : background K} {ics : initial_conditions K}

/-- A record is still the one that was found. -/
def SameEntry (r r' : twopf_kconfig_record K) : Prop :=
  r'.serial = r.serial ∧ r'.k_conventional = r.k_conventional

namespace twopf_kconfig_database

variable {w w' : twopf_kconfig_database K} {k : K} {l : List (twopf_kconfig_record K)}

/-- A leg that is attached is found, perhaps in another record, within the tolerance. -/
theorem Indexed.found_of_attached (h : Indexed w) {leg : K × ℕ} (ha : Attached [] w.entries leg) :
    ∃ r ∈ w.database, w.found leg.1 = some r ∧ Within r.k_conventional leg.1 := by
  obtain ⟨e, he, -, hwithin, -⟩ := ha
  obtain ⟨r, hr, rfl⟩ := List.mem_map.mp he
  obtain ⟨s, hs⟩ := Option.isSome_iff_exists.mp (h.find_isSome hr hwithin)
  obtain ⟨r', hr', hserial, hwithin'⟩ := h.exists_of_find hs
  exact ⟨r', hr', by rw [found, hs, Option.bind_some, h.lookup_eq_some_iff.mpr ⟨hr', hserial⟩], hwithin'⟩

theorem map_entry_of_sameEntry {l l' : List (twopf_kconfig_record K)} (h : List.Forall₂ SameEntry l l') :
    l'.map entry = l.map entry := by
  induction h with
  | nil => rfl
  | cons hr _ ih => rw [List.map_cons, List.map_cons, ih, entry, entry, hr.1, hr.2]

/-- Writing times to the records leaves the index in order. -/
theorem Indexed.of_sameEntry (h : Indexed w) (hl : List.Forall₂ SameEntry w.database l) :
    Indexed { w with database := l } := by
  have hentry := map_entry_of_sameEntry hl
  have hserial : l.map (·.serial) = w.database.map (·.serial) := by
    have := congrArg (List.map Prod.snd) hentry
    rw [List.map_map, List.map_map] at this
    exact this
  refine ⟨h.separated, ?_, ?_, ?_⟩
  · rw [hentry]
    exact h.entries
  · have hsorted := List.pairwise_map.mpr h.sorted
    rw [← hserial] at hsorted
    exact List.pairwise_map.mp hsorted
  · intro r hr
    obtain ⟨r', hr', heq⟩ := List.mem_map.mp (hserial ▸ List.mem_map_of_mem hr)
    rw [← heq]
    exact h.serial r' hr'

end twopf_kconfig_database

open twopf_kconfig_database

variable {s s' : State K} {w w' : twopf_kconfig_database K}

theorem solved_eq_error {x : Except String K} {e : task_exception K} (h : solved x = .error e) :
    ∃ message, e = .failed message := by
  cases x with
  | ok N => cases h
  | error message => exact ⟨message, (Except.error.inj h).symm⟩

theorem sameEntry_twopf_times {r r' : twopf_kconfig_record K} (h : twopf_times bg r = .ok r') : SameEntry r r' := by
  rw [twopf_times] at h
  obtain ⟨t_exit, -, h⟩ := bind_eq_ok.mp h
  obtain ⟨t_massless, -, h⟩ := bind_eq_ok.mp h
  obtain rfl := pure_eq_ok.mp h
  exact ⟨rfl, rfl⟩

/-- When the times of twopf configurations have been written, legs are still attached. -/
theorem attached_of_times (h : Indexed w) (ht : twopf_compute_horizon_exit_times bg w = .ok w') :
    Indexed w' ∧ w'.entries = w.entries := by
  rw [twopf_compute_horizon_exit_times] at ht
  obtain ⟨l, hl, ht⟩ := bind_eq_ok.mp ht
  obtain rfl := pure_eq_ok.mp ht
  have hsame : List.Forall₂ SameEntry w.database l :=
    (forall₂_of_mapM_eq_ok hl).imp fun _ _ => sameEntry_twopf_times
  exact ⟨h.of_sameEntry hsame, map_entry_of_sameEntry hsame⟩

/-- The search for an attached leg is successful. -/
theorem seek_of_attached (h : Indexed w) {leg : K × ℕ} (ha : Attached [] w.entries leg) :
    ∃ r ∈ w.database, seek w leg.1 = .ok r ∧ Within r.k_conventional leg.1 := by
  obtain ⟨r, hr, hfound, hwithin⟩ := h.found_of_attached ha
  exact ⟨r, hr, by rw [seek, hfound], hwithin⟩

/-- The massless time is the least of those of three records that agree with the legs. -/
def MasslessOfLegs (w : twopf_kconfig_database K) (config : threepf_kconfig K) : Prop :=
  ∃ r₁ ∈ w.database, ∃ r₂ ∈ w.database, ∃ r₃ ∈ w.database,
    Within r₁.k_conventional config.k1_conventional ∧ Within r₂.k_conventional config.k2_conventional ∧
      Within r₃.k_conventional config.k3_conventional ∧
      config.t_massless = min (min r₁.t_massless r₂.t_massless) r₃.t_massless

theorem threepf_times_spec (h : Indexed w) {t : threepf_kconfig_record K}
    (ha : ∀ leg ∈ t.record.legs, Attached [] w.entries leg) :
    (∀ e, threepf_times bg w t = .error e → ∃ message, e = .failed message) ∧
      ∀ t', threepf_times bg w t = .ok t' → t'.record.legs = t.record.legs ∧ MasslessOfLegs w t'.record := by
  obtain ⟨r₁, hr₁, hseek₁, hwithin₁⟩ := seek_of_attached h (ha (t.record.k1_conventional, t.record.k1_serial) (by
    simp [threepf_kconfig.legs]))
  obtain ⟨r₂, hr₂, hseek₂, hwithin₂⟩ := seek_of_attached h (ha (t.record.k2_conventional, t.record.k2_serial) (by
    simp [threepf_kconfig.legs]))
  obtain ⟨r₃, hr₃, hseek₃, hwithin₃⟩ := seek_of_attached h (ha (t.record.k3_conventional, t.record.k3_serial) (by
    simp [threepf_kconfig.legs]))
  rw [threepf_times, hseek₁, hseek₂, hseek₃]
  simp only [ok_bind]
  constructor
  · intro e he
    rcases bind_eq_error.mp he with hsolved | ⟨N, -, hrest⟩
    · exact solved_eq_error hsolved
    · cases hrest
  · intro t' ht'
    obtain ⟨N, -, ht'⟩ := bind_eq_ok.mp ht'
    obtain rfl := pure_eq_ok.mp ht'
    exact ⟨rfl, r₁, hr₁, r₂, hr₂, r₃, hr₃, hwithin₁, hwithin₂, hwithin₃, rfl⟩

/-- The largest wavenumber is that of a leg of a triangle kept, if there is one. -/
def LargestLeg (db : threepf_kconfig_database K) : Prop :=
  (db.database = [] → db.get_kmax_2pf_conventional = ⊥) ∧
    (db.database ≠ [] → ∃ leg ∈ db.legs, db.get_kmax_2pf_conventional = wavenumber leg.1)

open threepf_kconfig_database State

theorem LargestLeg.insert_record {db : threepf_kconfig_database K} {t : threepf_kconfig_record K} (h : LargestLeg db)
    (hdb : (db.insert_record t).database = db.database ++ [t]) : LargestLeg (db.insert_record t) := by
  have hlegs := legs_insert_record hdb
  refine ⟨fun hnil => ?_, fun _ => ?_⟩
  · rw [hdb] at hnil
    simp at hnil
  have hraise : (db.insert_record t).get_kmax_2pf_conventional = raise db.get_kmax_2pf_conventional
      (max (max t.record.k1_conventional t.record.k2_conventional) t.record.k3_conventional) := rfl
  rw [hraise, raise, hlegs]
  split_ifs with hlt
  · -- the largest of three is one of them
    have hthree : ∃ leg ∈ t.record.legs,
        max (max t.record.k1_conventional t.record.k2_conventional) t.record.k3_conventional = leg.1 := by
      simp only [threepf_kconfig.legs, List.mem_cons, List.not_mem_nil, or_false, exists_eq_or_imp, exists_eq_left]
      grind
    obtain ⟨leg, hleg, heq⟩ := hthree
    exact ⟨leg, List.mem_append_right _ hleg, by rw [heq]⟩
  · have hne : db.database ≠ [] := by
      intro hnil
      rw [h.1 hnil] at hlt
      exact hlt (WithBot.bot_lt_coe _)
    obtain ⟨leg, hleg, heq⟩ := h.2 hne
    exact ⟨leg, List.mem_append_left _ hleg, heq⟩

theorem LargestLeg.apply {c : Call K} (hsound : State.Sound s) (h : LargestLeg s.threepf_db)
    (hs : s.apply c = some s') : LargestLeg s'.threepf_db := by
  obtain ⟨p, -, s'', -, -, -, -, happly, applied⟩ := exists_applied hsound c
  obtain rfl : s' = s'' := Option.some.inj (hs.symm.trans happly)
  generalize c.policy p.config = outcome at applied
  cases applied with
  | reject_remove => exact h
  | reject_retain => exact h
  | accept _ _ _ hdb => exact h.insert_record hdb

/-- What holds after any number of calls. -/
theorem sound_largest_of_reached {kstar : K} (h : threepf_task.Reached kstar s) :
    State.Sound s ∧ LargestLeg s.threepf_db := by
  obtain ⟨calls, hrun⟩ := h
  refine System.Run.invariant (S := runs kstar) (I := fun s => State.Sound s ∧ LargestLeg s.threepf_db) ?_
    (System.run_ofNext_of_foldlM hrun) ⟨sound_create kstar, fun _ => rfl, fun h => absurd rfl h⟩
  rintro s c s' ⟨hsound, hlargest⟩ hs
  obtain ⟨s'', happly, hsound', -⟩ := exists_apply hsound c
  obtain rfl : s' = s'' := Option.some.inj (Eq.trans (Eq.symm hs) happly)
  exact ⟨hsound', hlargest.apply hsound hs⟩

/-- The search for the largest leg. -/
theorem earliest_isOk_iff (h : LargestLeg s.threepf_db) (hindexed : Indexed w')
    (ha : ∀ leg ∈ s.threepf_db.legs, Attached [] w'.entries leg) :
    (∃ N, get_earliest_recordable_time ics w' s.threepf_db.get_kmax_2pf_conventional = .ok N) ↔
      s.threepf_db.database ≠ [] := by
  by_cases hdb : s.threepf_db.database = []
  · rw [h.1 hdb]
    simp [hdb, get_earliest_recordable_time]
  · obtain ⟨leg, hleg, heq⟩ := h.2 hdb
    obtain ⟨r, -, hfound, -⟩ := hindexed.found_of_attached (ha leg hleg)
    refine iff_of_true ⟨get_initial_time ics r, ?_⟩ hdb
    rw [heq]
    simp only [get_earliest_recordable_time, wavenumber, WithBot.some, WithTop.some, hfound]

/-- The search for the smallest leg. -/
theorem ics_exit_time_isOk (hindexed : Indexed w) {config : threepf_kconfig K}
    (ha : ∀ leg ∈ config.legs, Attached [] w.entries leg) (b : Bool) :
    ∃ N, get_ics_exit_time w config b = .ok N := by
  cases b with
  | false => exact ⟨_, rfl⟩
  | true =>
    have hthree : ∃ leg ∈ config.legs,
        min (min config.k1_conventional config.k2_conventional) config.k3_conventional = leg.1 := by
      simp only [threepf_kconfig.legs, List.mem_cons, List.not_mem_nil, or_false, exists_eq_or_imp, exists_eq_left]
      grind
    obtain ⟨leg, hleg, heq⟩ := hthree
    obtain ⟨r, -, hseek, -⟩ := seek_of_attached hindexed (ha leg hleg)
    exact ⟨r.t_exit, by rw [get_ics_exit_time, if_pos rfl, heq, hseek]; rfl⟩

/-- **Searches** for legs are successful, whatever triangles have been added: horizon-exit times cannot be computed
only if the root finder fails, and the massless time of a triangle is the least of those of its legs. The time from
which samples are stored is found just if there is a triangle. -/
theorem no_database_miss (bg : background K) (ics : initial_conditions K) {kstar : K}
    (h : threepf_task.Reached kstar s) :
    (∀ e, compute_horizon_exit_times bg s = .error e → ∃ message, e = .failed message) ∧
    ∀ s', compute_horizon_exit_times bg s = .ok s' →
      (∀ t ∈ s'.threepf_db.database, MasslessOfLegs s'.twopf_db t.record ∧
        ∀ b, ∃ N, get_ics_exit_time s'.twopf_db t.record b = .ok N) ∧
      ((∃ N, get_earliest_recordable_time ics s'.twopf_db s'.threepf_db.get_kmax_2pf_conventional = .ok N) ↔
        s'.threepf_db.database ≠ []) := by
  obtain ⟨hsound, hlargest⟩ := sound_largest_of_reached h
  have hattached {w : twopf_kconfig_database K} (hw : w.entries = s.twopf_db.entries) {t : threepf_kconfig_record K}
      (ht : t ∈ s.threepf_db.database) : ∀ leg ∈ t.record.legs, Attached [] w.entries leg := fun leg hleg =>
    hw ▸ hsound.attached leg (List.mem_flatMap.mpr ⟨t, ht, hleg⟩)
  rw [compute_horizon_exit_times]
  constructor
  · intro e he
    rcases bind_eq_error.mp he with htwopf | ⟨w, htwopf, hrest⟩
    · rw [twopf_compute_horizon_exit_times] at htwopf
      rcases bind_eq_error.mp htwopf with hfails | ⟨l, -, hdone⟩
      · obtain ⟨r, -, hr⟩ := exists_of_mapM_eq_error hfails
        rcases bind_eq_error.mp hr with hexit | ⟨t_exit, -, hrest⟩
        · exact solved_eq_error hexit
        · rcases bind_eq_error.mp hrest with hmassless | ⟨t_massless, -, hdone⟩
          · exact solved_eq_error hmassless
          · cases hdone
      · cases hdone
    · obtain ⟨hindexed, hentries⟩ := attached_of_times hsound.indexed htwopf
      rcases bind_eq_error.mp hrest with hfails | ⟨l, -, hdone⟩
      · obtain ⟨t, ht, hfails⟩ := exists_of_mapM_eq_error hfails
        exact (threepf_times_spec hindexed (hattached hentries ht)).1 e hfails
      · cases hdone
  · intro s' hs'
    obtain ⟨w, htwopf, hs'⟩ := bind_eq_ok.mp hs'
    obtain ⟨l, hl, hs'⟩ := bind_eq_ok.mp hs'
    obtain rfl := pure_eq_ok.mp hs'
    obtain ⟨hindexed, hentries⟩ := attached_of_times hsound.indexed htwopf
    have hforall := forall₂_of_mapM_eq_ok hl
    constructor
    · intro t' ht'
      obtain ⟨t, ht, htimes⟩ := mem_right_of_forall₂ hforall ht'
      obtain ⟨hlegs, hmassless⟩ := (threepf_times_spec hindexed (hattached hentries ht)).2 t' htimes
      refine ⟨hmassless, ics_exit_time_isOk hindexed ?_⟩
      rw [hlegs]
      exact hattached hentries ht
    · have hempty : l ≠ [] ↔ s.threepf_db.database ≠ [] := by
        rw [ne_eq, ne_eq, ← List.length_eq_zero_iff, ← List.length_eq_zero_iff, hforall.length_eq]
      show _ ↔ l ≠ []
      rw [hempty]
      exact earliest_isOk_iff hlargest hindexed fun leg hleg => hentries ▸ hsound.attached leg hleg

theorem no_database_miss_three : ∃ task, threepf_cubic_task.create 1 three_wavenumbers DefaultStoragePolicy
      (DefaultCubicTrianglePolicy CPPTRANSPORT_DEFAULT_KCONFIG_TOLERANCE) = some task ∧
    ∀ e, compute_horizon_exit_times ⟨fun k => .ok k, fun _ t_exit => .ok t_exit⟩ task.toState = .error e →
      ∃ message, e = .failed message := by
  obtain ⟨task, htask, hreached, -⟩ := cubic_holds (1 : ℚ) DefaultStoragePolicy three_wavenumbers
    (DefaultCubicTrianglePolicy CPPTRANSPORT_DEFAULT_KCONFIG_TOLERANCE)
  exact ⟨task, htask, (no_database_miss _ ⟨0, false, 0⟩ hreached).1⟩

end Searches

end Kconfig

end CppTransport.Runtime
