import CppTransport.Library.IndexLoops
import CppTransport.Runtime.ExactlyOnce
import CppTransport.Runtime.StorageFlags
import CppTransport.Runtime.TimeDatabases

/-!
# The samples of a task

The integrator carries a triangle through the times of the database of its mode, and shows each state to an observer
(`models/observers.h`). At the times that are stored, the observer cuts the state vector into correlation functions,
and pushes to the batcher what the triangle is flagged to store. The samples that end up in the containers of a task
thus depend on the flags, on the databases of times, on the observer and on the batchers, and on which worker is given
which triangle.

## The model

A state vector is a function from positions. The positions of its parts are those that the translator writes into the
code of a model. At each level of refinement the integrator goes through states, one for each time, until it returns or
throws; when it returns it has gone through all times. Which components are not a number, or infinite, is a parameter.

## What is proved

* `samples_complete`: if all triangles of a task have been given out, and the integration of each comes to an end at
  some level of refinement, then the containers of all workers together have each sample of the task once: for each
  time that is stored the background, the two-point functions of each leg, and the three-point functions of each
  triangle.
-/

namespace CppTransport.Runtime.Observers

open Library Kconfig TimeDatabases
open IntegrationKind (stats)

variable {K κ P : Type}

/-! ### State vectors -/

namespace Pool

variable (c : Setup)

def backg_size : ℕ := 2 * c.Nfields

def twopf_size : ℕ := (2 * c.Nfields) * (2 * c.Nfields)

def tensor_size : ℕ := 4

def threepf_size : ℕ := (2 * c.Nfields) * (2 * c.Nfields) * (2 * c.Nfields)

def backg_start : ℕ := 0

def tensor_start : ℕ := backg_start + backg_size c

def tensor_k1_start : ℕ := tensor_start c

def tensor_k2_start : ℕ := tensor_k1_start c + tensor_size

def tensor_k3_start : ℕ := tensor_k2_start c + tensor_size

def twopf_re_k1_start : ℕ := tensor_k3_start c + tensor_size

def twopf_im_k1_start : ℕ := twopf_re_k1_start c + twopf_size c

def twopf_re_k2_start : ℕ := twopf_im_k1_start c + twopf_size c

def twopf_im_k2_start : ℕ := twopf_re_k2_start c + twopf_size c

def twopf_re_k3_start : ℕ := twopf_im_k2_start c + twopf_size c

def twopf_im_k3_start : ℕ := twopf_re_k3_start c + twopf_size c

def threepf_start : ℕ := twopf_im_k3_start c + twopf_size c

def threepf_state_size : ℕ := backg_size c + 3 * tensor_size + 6 * twopf_size c + threepf_size c

end Pool

open Pool

/-- A part of a state vector. -/
def block (x : ℕ → K) (start size : ℕ) : List K := (List.range size).map fun i => x (start + i)

@[simp] theorem length_block (x : ℕ → K) (start size : ℕ) : (block x start size).length = size := by simp [block]

theorem block_append (x : ℕ → K) (start n m : ℕ) :
    block x start n ++ block x (start + n) m = block x start (n + m) := by
  simp only [block, List.range_add, List.map_append, List.map_map]
  congr 2
  funext i
  simp only [Function.comp, Nat.add_assoc]

/-- The components that an observer tests, in the order of the tests. -/
def tested (c : Setup) (x : ℕ → K) : List K :=
  block x backg_start (backg_size c) ++
    (block x (tensor_k1_start c) tensor_size ++ block x (tensor_k2_start c) tensor_size ++
      block x (tensor_k3_start c) tensor_size) ++
    (block x (twopf_re_k1_start c) (twopf_size c) ++ block x (twopf_im_k1_start c) (twopf_size c) ++
      block x (twopf_re_k2_start c) (twopf_size c) ++ block x (twopf_im_k2_start c) (twopf_size c) ++
      block x (twopf_re_k3_start c) (twopf_size c) ++ block x (twopf_im_k3_start c) (twopf_size c)) ++
    block x (threepf_start c) (threepf_size c)

/-- The parts of a state vector make up the whole: each component is tested, and belongs to one part. -/
theorem tested_eq (c : Setup) (x : ℕ → K) : tested c x = (List.range (threepf_state_size c)).map x := by
  have hwhole : (List.range (threepf_state_size c)).map x = block x 0 (threepf_state_size c) := by simp [block]
  rw [hwhole, threepf_state_size, show backg_size c + 3 * tensor_size + 6 * twopf_size c + threepf_size c =
    backg_size c + (tensor_size + tensor_size + tensor_size) + (twopf_size c + twopf_size c + twopf_size c +
      twopf_size c + twopf_size c + twopf_size c) + threepf_size c by omega]
  simp only [← block_append, tested, List.append_assoc, backg_start, tensor_start, tensor_k1_start, tensor_k2_start,
    tensor_k3_start, twopf_re_k1_start, twopf_im_k1_start, twopf_re_k2_start, twopf_im_k2_start, twopf_re_k3_start,
    twopf_im_k3_start, threepf_start, Nat.zero_add, Nat.add_assoc]

/-! ### Observers -/

/-- What the observer reads for one leg of a triangle. -/
structure leg (K : Type) where
  /-- `is_twopf_k1_stored` and so on. -/
  stored : Bool
  serial : ℕ
  tensor_tpf : List K
  tpf_re : List K
  tpf_im : List K

/-- The calls for one leg. -/
def push_leg (store_serial_number : ℕ) (bg : List K) (l : leg K) : List (ThreepfBatcher.Push K) :=
  if l.stored then
    [.tensor_twopf store_serial_number l.serial l.tensor_tpf, .twopf_real store_serial_number l.serial l.tpf_re bg,
      .twopf_imag store_serial_number l.serial l.tpf_im]
  else []

namespace threepf_singleconfig_batch_observer

section Rescaling

variable [Field K] (t : threepf_kconfig_record K)

/-- `k1_rescale` and so on. -/
def rescale (k : K) : K := (k / t.record.kt_comoving) * (k / t.record.kt_comoving) * (k / t.record.kt_comoving)

def shape_rescale : K :=
  let k1 := t.record.k1_comoving
  let k2 := t.record.k2_comoving
  let k3 := t.record.k3_comoving
  let kt := t.record.kt_comoving
  (k1 / kt) * (k1 / kt) * (k2 / kt) * (k2 / kt) * (k3 / kt) * (k3 / kt)

/-- One leg, whose correlation functions are rescaled. -/
def read_leg (c : Setup) (x : ℕ → K) (stored : Bool) (serial : ℕ) (k : K) (tensor re im : ℕ) : leg K where
  stored := stored
  serial := serial
  tensor_tpf := (block x tensor tensor_size).map (rescale t k * ·)
  tpf_re := (block x re (twopf_size c)).map (rescale t k * ·)
  tpf_im := (block x im (twopf_size c)).map (rescale t k * ·)

def legs (c : Setup) (x : ℕ → K) : List (leg K) :=
  [read_leg t c x t.store_twopf_k1 t.record.k1_serial t.record.k1_comoving (tensor_k1_start c) (twopf_re_k1_start c)
      (twopf_im_k1_start c),
    read_leg t c x t.store_twopf_k2 t.record.k2_serial t.record.k2_comoving (tensor_k2_start c) (twopf_re_k2_start c)
      (twopf_im_k2_start c),
    read_leg t c x t.store_twopf_k3 t.record.k3_serial t.record.k3_comoving (tensor_k3_start c) (twopf_re_k3_start c)
      (twopf_im_k3_start c)]

/-- The arguments of `push_threepf`. -/
def sample (c : Setup) (r : time_config K) (x : ℕ → K) : ThreepfSample K where
  time_serial := r.serial
  t := r.t
  kserial := t.record.serial
  values := (block x (threepf_start c) (threepf_size c)).map (shape_rescale t * ·)
  tpf := (legs t c x).flatMap fun l => [l.tpf_re, l.tpf_im]
  bg := block x backg_start (backg_size c)

/-- What is pushed at a time that is stored. -/
def push_config (c : Setup) (r : time_config K) (x : ℕ → K) : List (ThreepfBatcher.Push K) :=
  let bg_x := block x backg_start (backg_size c)
  (if t.store_background then [.backg r.serial bg_x] else []) ++ (legs t c x).flatMap (push_leg r.serial bg_x) ++
    [.threepf (sample t c r x)]

/-- `push`, when the current step of the observer is `r`. -/
def push (c : Setup) (r : time_config_record K) (x : ℕ → K) : List (ThreepfBatcher.Push K) :=
  if r.store then push_config t c r.record x else []

end Rescaling

end threepf_singleconfig_batch_observer

/-! ### Integrations -/

/-- What the integrator does at one level of refinement, for a mode with `n` times. -/
structure Integration (K : Type) (n : ℕ) where
  /-- The states that it shows to the observer. -/
  states : List (ℕ → K)
  ending : Ending
  length_le : states.length ≤ n
  /-- If it returns it has gone through all times. -/
  length_eq : ∀ s expired, ending = .completed s expired → states.length = n

/-- `integrate_times` with an observer, whose own iterator goes through the same database: it tests each state that it
is shown, and pushes. -/
def integrate_times (irregular : (ℕ → K) → Bool) (push : time_config_record K → (ℕ → K) → List P) :
    time_config_database K → List (ℕ → K) → List P × Option Thrown
  | r :: rs, x :: xs =>
    if irregular x then ([], some .runtime_exception)
    else
      let (ps, thrown) := integrate_times irregular push rs xs
      (push r x ++ ps, thrown)
  | _, _ => ([], none)

/-- `twopf_kmode` or `threepf_kmode` below the deepest level of refinement: the initial conditions are pushed, and the
integrator is started. -/
def kmode_attempt (irregular : (ℕ → K) → Bool) (push : time_config_record K → (ℕ → K) → List P) (ics : List P)
    (time_db : time_config_database K) (i : Integration K time_db.length) : Attempt P :=
  let (ps, thrown) := integrate_times irregular push time_db i.states
  ⟨ics ++ ps, thrown.elim i.ending .throws⟩

/-- The first integration that returns, if those before it have diverged, with its level of refinement. -/
def last_integration (irregular : (ℕ → K) → Bool) {n : ℕ} :
    ℕ → List (Integration K n) → Option (ℕ × Integration K n × Statistics)
  | _, [] => none
  | level, i :: is =>
    if i.states.any irregular then none
    else
      match i.ending with
      | .completed s _ => some (level, i, s)
      | .throws .overflow_error => last_integration irregular (level + 1) is
      | .throws .runtime_exception => none

/-- What `push_ics` and `push_kt_ics` are called with. -/
structure initial_conditions (c : Setup) (K : Type) where
  t_exit_1 : K
  ics_1 : List K
  t_exit_2 : K
  ics_2 : List K
  length_ics_1 : ics_1.length = 2 * c.Nfields
  length_ics_2 : ics_2.length = 2 * c.Nfields

/-- They are called if the batcher is collecting initial conditions. -/
def push_initial_conditions {c : Setup} (ics : initial_conditions c K) : List (ThreepfBatcher.Push K) :=
  if c.collect_initial_conditions then [.ics ics.t_exit_1 ics.ics_1, .kt_ics ics.t_exit_2 ics.ics_2] else []

/-- What the task and the integrator give for each triangle. -/
structure Integrations (c : Setup) (K : Type) where
  time_db : threepf_kconfig_record K → time_config_database K
  ics : threepf_kconfig_record K → initial_conditions c K
  /-- At refinement level `0, 1, …` up to the largest permitted. -/
  attempts : ∀ t, List (Integration K (time_db t).length)
  expired : threepf_kconfig_record K → Expired

section Triangles

variable [Field K] {c : Setup} (irregular : K → Bool)

/-- A state that an observer rejects. -/
def irregular_state (c : Setup) (x : ℕ → K) : Bool := (tested c x).any irregular

/-- `threepf_kmode` -/
def threepf_kmode (run : Integrations c K) (t : threepf_kconfig_record K)
    (i : Integration K (run.time_db t).length) : Attempt (ThreepfBatcher.Push K) :=
  kmode_attempt (irregular_state irregular c) (threepf_singleconfig_batch_observer.push t c)
    (push_initial_conditions (run.ics t)) (run.time_db t) i

/-- A triangle as an entry of a work list. -/
def Integrations.configuration (run : Integrations c K) (t : threepf_kconfig_record K) :
    Configuration (ThreepfBatcher.Push K) where
  serial := t.record.serial
  attempts := (run.attempts t).map (threepf_kmode irregular run t)
  expired := run.expired t

end Triangles

/-! ### What the containers should have -/

/-- The key of an item: its time and its configuration, where it has them. -/
def key (it : Item K) : Option ℕ × Option ℕ :=
  match it.payload with
  | .background time_serial _ => (some time_serial, none)
  | .sample time_serial kconfig_serial _ => (some time_serial, some kconfig_serial)
  | .initial_conditions _ _ => (none, some it.source_serial)
  | .statistics _ _ _ _ => (none, some it.source_serial)

/-- The two-point functions that a task samples. -/
def twopf_serials (s : State K) : List ℕ := (s.threepf_db.database.flatMap fun t => t.record.legs.map (·.2)).dedup

def threepf_serials (s : State K) : List ℕ := s.threepf_db.database.map (·.record.serial)

/-- One item for each time and each configuration. -/
def sampled_places (times serials : List ℕ) : List (Option ℕ × Option ℕ) :=
  (times ×ˢ serials).map (Prod.map some some)

/-- One item for each configuration. -/
def metadata_places (serials : List ℕ) : List (Option ℕ × Option ℕ) := serials.map fun serial => (none, some serial)

/-- The keys of the items in the containers of a task. -/
def places (c : Setup) (s : State K) (times : List ℕ) : ThreepfKind → List (Option ℕ × Option ℕ)
  | .backg => if s.threepf_db.database = [] then [] else times.map fun time => (some time, none)
  | .tensor_twopf | .twopf_re | .twopf_im => sampled_places times (twopf_serials s)
  | .threepf_momentum | .threepf_Nderiv => sampled_places times (threepf_serials s)
  | .stats => if c.collect_statistics then metadata_places (threepf_serials s) else []
  | .ics | .kt_ics => if c.collect_initial_conditions then metadata_places (threepf_serials s) else []

/-- The paired batcher makes an item of each two-point function, or of each three-point function. -/
def made_of : ZetaThreepfKind → ThreepfKind
  | .twopf | .gauge_xfm1 => .twopf_re
  | .threepf | .gauge_xfm2_123 | .gauge_xfm2_213 | .gauge_xfm2_312 => .threepf_momentum

/-- What the observer takes from a state at a time that is stored. -/
def threepf_payloads [Field K] (c : Setup) (agent : ComputeAgent K) (t : threepf_kconfig_record K) (r : time_config K)
    (x : ℕ → K) : ThreepfKind → List (Payload K)
  | .backg => if t.store_background then [.background r.serial (block x backg_start (backg_size c))] else []
  | .tensor_twopf => stored_legs.map fun l => .sample r.serial l.serial l.tensor_tpf
  | .twopf_re => stored_legs.map fun l => .sample r.serial l.serial l.tpf_re
  | .twopf_im => stored_legs.map fun l => .sample r.serial l.serial l.tpf_im
  | .threepf_momentum => [.sample r.serial t.record.serial sample.values]
  | .threepf_Nderiv => [.sample r.serial t.record.serial (agent.Nderiv sample)]
  | .stats | .ics | .kt_ics => []
where
  stored_legs := (threepf_singleconfig_batch_observer.legs t c x).filter (·.stored)
  sample := threepf_singleconfig_batch_observer.sample t c r x

/-- What the paired batcher computes from it. -/
def zeta_threepf_payloads [Field K] (c : Setup) (agent : ComputeAgent K) (t : threepf_kconfig_record K)
    (r : time_config K) (x : ℕ → K) : ZetaThreepfKind → List (Payload K)
  | .twopf => stored_legs.map fun l => .sample r.serial l.serial [(agent.zeta_twopf l.tpf_re bg).1]
  | .gauge_xfm1 => stored_legs.map fun l => .sample r.serial l.serial (agent.zeta_twopf l.tpf_re bg).2
  | .threepf => [.sample r.serial t.record.serial [(agent.zeta_threepf sample).1, (agent.zeta_threepf sample).2.1]]
  | .gauge_xfm2_123 => [.sample r.serial t.record.serial (agent.zeta_threepf sample).2.2.1]
  | .gauge_xfm2_213 => [.sample r.serial t.record.serial (agent.zeta_threepf sample).2.2.2.1]
  | .gauge_xfm2_312 => [.sample r.serial t.record.serial (agent.zeta_threepf sample).2.2.2.2]
where
  bg := block x backg_start (backg_size c)
  stored_legs := (threepf_singleconfig_batch_observer.legs t c x).filter (·.stored)
  sample := threepf_singleconfig_batch_observer.sample t c r x

/-- The initial conditions of a triangle. -/
def ics_payloads {c : Setup} (ics : initial_conditions c K) : ThreepfKind → List (Payload K)
  | .ics => if c.collect_initial_conditions then [.initial_conditions ics.t_exit_1 ics.ics_1] else []
  | .kt_ics => if c.collect_initial_conditions then [.initial_conditions ics.t_exit_2 ics.ics_2] else []
  | _ => []

/-- At the times that are stored. -/
def at_stored_times {β : Type} (f : time_config K → (ℕ → K) → List β) (time_db : time_config_database K)
    (xs : List (ℕ → K)) : List β :=
  (time_db.zip xs).flatMap fun p => if p.1.store then f p.1.record p.2 else []

/-- What a triangle should add to the containers, when its last integration has been at the level `last.1`. -/
def Integrations.items [Field K] {c : Setup} (run : Integrations c K) (agent : ComputeAgent K)
    (t : threepf_kconfig_record K) (last : ℕ × Integration K (run.time_db t).length × Statistics) (k : ThreepfKind) :
    List (Item K) :=
  (ics_payloads (run.ics t) k ++
    at_stored_times (fun r x => threepf_payloads c agent t r x k) (run.time_db t) last.2.1.states).map
      (Item.mk t.record.serial) ++
    stats_items (ThreepfBatcher.kept c) t.record.serial last.1 last.2.2 k

/-- What it should add to the paired containers. -/
def Integrations.zeta_items [Field K] {c : Setup} (run : Integrations c K) (agent : ComputeAgent K)
    (t : threepf_kconfig_record K) (last : ℕ × Integration K (run.time_db t).length × Statistics)
    (k : ZetaThreepfKind) : List (Item K) :=
  (at_stored_times (fun r x => zeta_threepf_payloads c agent t r x k) (run.time_db t) last.2.1.states).map
    (Item.mk t.record.serial)

/-- **Complete samples**: the rows are the items in some order, and there is one for each of the keys. -/
structure Sampled {κ : Type} (rows expected : κ → List (Item K)) (places : κ → List (Option ℕ × Option ℕ)) : Prop where
  items k : (rows k).Perm (expected k)
  keys k : ((rows k).map key).Perm (places k)
  once k : (places k).Nodup

section Containers

variable (c : Setup) (agent : ComputeAgent K) (is_paired : Bool) (works : List (Assignments (ThreepfBatcher.Push K)))

/-- The items in the containers of all workers. -/
def rows (k : ThreepfKind) : List (Item K) :=
  works.flatMap fun work =>
    (run_worker (ThreepfBatcher.request c agent) (ThreepfBatcher.create c is_paired) work).main.written k

/-- The items in their paired containers. -/
def zeta_rows (k : ZetaThreepfKind) : List (Item K) :=
  works.flatMap fun work =>
    (run_worker (ThreepfBatcher.request c agent) (ThreepfBatcher.create c is_paired) work).paired.elim [] (·.written k)

end Containers

/-! ### One integration -/

section Integrating

variable {irregular : (ℕ → K) → Bool} {push : time_config_record K → (ℕ → K) → List P}
variable {time_db : time_config_database K} {xs : List (ℕ → K)}

theorem integrate_times_eq (hlength : xs.length ≤ time_db.length) (hregular : xs.any irregular = false) :
    integrate_times irregular push time_db xs = ((time_db.zip xs).flatMap fun p => push p.1 p.2, none) := by
  induction time_db generalizing xs with
  | nil =>
    obtain rfl := List.eq_nil_of_length_eq_zero (Nat.le_zero.mp hlength)
    rfl
  | cons r rs ih =>
    cases xs with
    | nil => rfl
    | cons x xs =>
      rw [List.any_cons, Bool.or_eq_false_iff] at hregular
      rw [integrate_times, hregular.1, if_neg Bool.false_ne_true, ih (Nat.le_of_succ_le_succ hlength) hregular.2]
      rfl

theorem mem_integrate_times {p : P} (h : p ∈ (integrate_times irregular push time_db xs).1) :
    ∃ r x, p ∈ push r x := by
  induction time_db generalizing xs with
  | nil => simp [integrate_times] at h
  | cons r rs ih =>
    cases xs with
    | nil => simp [integrate_times] at h
    | cons x xs =>
      rw [integrate_times] at h
      split_ifs at h
      · cases h
      · rcases List.mem_append.mp h with h | h
        · exact ⟨r, x, h⟩
        · exact ih h

variable {κ π : Type} [IntegrationKind κ] {request : P → Request κ π K}
variable {ics : List P}

/-- **The attempt that succeeds** pushes at each time, if all vectors have the right size. -/
theorem final_attempt_eq (hpush : ∀ r x, ∀ p ∈ push r x, (request p).size = (request p).required)
    (hics : ∀ p ∈ ics, (request p).size = (request p).required) {is : List (Integration K time_db.length)}
    {level last : ℕ} {i : Integration K time_db.length} {s : Statistics}
    (h : last_integration irregular level is = some (last, i, s)) :
    i.states.length = time_db.length ∧
      final_attempt request level (is.map (kmode_attempt irregular push ics time_db)) =
        some (last, ⟨ics ++ (time_db.zip i.states).flatMap fun p => push p.1 p.2, i.ending⟩, s) := by
  induction is generalizing level with
  | nil => cases h
  | cons j js ih =>
    have hfits : (kmode_attempt irregular push ics time_db j).Fits request := by
      intro p hp
      rcases List.mem_append.mp hp with hp | hp
      · exact hics p hp
      · obtain ⟨r, x, hp⟩ := mem_integrate_times hp
        exact hpush r x p hp
    rw [last_integration] at h
    split_ifs at h with hirregular
    have hregular : j.states.any irregular = false := by simpa using hirregular
    have hkmode : kmode_attempt irregular push ics time_db j =
        ⟨ics ++ (time_db.zip j.states).flatMap fun p => push p.1 p.2, j.ending⟩ := by
      rw [kmode_attempt, integrate_times_eq j.length_le hregular]
      rfl
    rw [List.map_cons, final_attempt, if_pos hfits, hkmode]
    cases hending : j.ending with
    | completed s' expired =>
      rw [hending] at h
      obtain ⟨rfl, rfl, rfl⟩ : level = last ∧ j = i ∧ s' = s := by simpa using h
      exact ⟨j.length_eq _ _ hending, by rw [hending]⟩
    | throws e =>
      cases e with
      | overflow_error =>
        rw [hending] at h
        exact ih h
      | runtime_exception =>
        rw [hending] at h
        cases h

end Integrating

/-! ### One worker -/

section Workers

variable {κ π : Type} [IntegrationKind κ] [DecidableEq κ] [Fintype κ] [DecidableEq π] [Fintype π]
variable {request : P → Request κ π K} {b : IntegrationBatcher κ π K}

/-- Whether the calls of an attempt throw depends on their sizes only. -/
theorem push_all_snd (serial : ℕ) (ps : List P) (b : IntegrationBatcher κ π K) :
    (push_all request serial ps b).2 =
      if ∀ p ∈ ps, (request p).size = (request p).required then none else some .runtime_exception := by
  induction ps generalizing b with
  | nil => simp [push_all]
  | cons p ps ih =>
    rw [push_all, IntegrationBatcher.push]
    by_cases hp : (request p).size = (request p).required
    · rw [if_neg (not_not.mpr hp)]
      split_ifs <;> simp_all
    · rw [if_pos hp]
      simp [hp]

/-- An integration with an attempt that succeeds reports no failure. -/
theorem integrate_snd {serial level : ℕ} {attempts : List (Attempt P)}
    (h : (final_attempt request level attempts).isSome = true) (b : IntegrationBatcher κ π K) :
    (integrate request serial level attempts b).2 = true := by
  induction attempts generalizing level b with
  | nil => cases h
  | cons a rest ih =>
    rw [final_attempt] at h
    split_ifs at h with hfits
    · have hpush : (push_all request serial a.pushes b).2 = none :=
        (push_all_snd serial a.pushes b).trans (if_pos hfits)
      obtain ⟨b', e, hall⟩ : ∃ b' e, push_all request serial a.pushes b = (b', e) := ⟨_, _, rfl⟩
      rw [hall] at hpush
      obtain rfl : e = none := hpush
      cases hending : a.ending with
      | completed s expired => simp [integrate, kmode, hall, hending]
      | throws e =>
        rw [hending] at h
        cases e with
        | overflow_error =>
          simp only [integrate, kmode, hall, hending]
          exact ih h _
        | runtime_exception => cases h
    · cases h

/-- **A worker** whose integrations all succeed delivers what they should, on both sides. -/
theorem written_run_worker (fresh : b.Fresh) (work : Assignments P)
    (success : ∀ c ∈ work.queues.flatten, (final_attempt request 0 c.attempts).isSome = true) :
    (∀ k, (run_worker request b work).main.written k =
      work.queues.flatten.flatMap fun c => delivered request b.main.kept c k) ∧
    ∀ p₀ ∈ b.paired, ∃ p ∈ (run_worker request b work).paired, ∀ k, p.written k =
      work.queues.flatten.flatMap fun c => delivered_zeta request p₀.kept c k := by
  have hkeeps : ∀ (b : IntegrationBatcher κ π K) (cs : List (Configuration P)),
      (∀ c ∈ cs, (final_attempt request 0 c.attempts).isSome = true) → ReportsKeep request b cs := by
    intro b cs hcs
    induction cs generalizing b with
    | nil => trivial
    | cons c cs ih =>
      refine ⟨fun hfalse => ?_, ih _ fun c' hc' => hcs c' (List.mem_cons_of_mem c hc')⟩
      rw [integrate_snd (hcs c List.mem_cons_self) b] at hfalse
      cases hfalse
  by_cases some_list : work.queues = []
  · have idle : run_worker request b work = b.close := by rw [run_worker, some_list, List.foldl_nil]
    rw [idle, some_list]
    refine ⟨fun k => fresh.main k, fun p₀ hp₀ => ⟨p₀.flush, ?_, fun k => fresh.paired p₀ hp₀ k⟩⟩
    exact Option.mem_map_of_mem _ hp₀
  · have delivers := (IntegrationBatcher.process_all_spec request work.queues.flatten (delayed_set_flush_mode b)
      (fun c _ => fresh.foreign c.serial) work.distinct).2.1 (hkeeps _ _ success)
    rw [run_worker_eq request fresh some_list]
    refine ⟨fun k => ?_, fun p₀ hp₀ => ?_⟩
    · have hnone : (b.set_flush_mode .flush_delayed).main.total k = [] := fresh.main k
      show (_ : Batcher κ K).total k = _
      rw [delivers.main.total, hnone, List.nil_append]
      rfl
    · obtain ⟨q, hq, supplied⟩ := exists_of_rel_left delivers.paired
        (Option.mem_map_of_mem (fun p : Batcher π K => p.set_flush_mode .flush_delayed) hp₀)
      refine ⟨q.flush, Option.mem_map_of_mem _ hq, fun k => ?_⟩
      have hnone : (p₀.set_flush_mode .flush_delayed).total k = [] := fresh.paired p₀ hp₀ k
      show q.total k = _
      rw [supplied.total, hnone, List.nil_append]
      rfl

end Workers

/-! ### One triangle -/

section Items

variable {κ π β : Type} [IntegrationKind κ] {request : P → Request κ π K} {serial : ℕ}

theorem own_items_append [DecidableEq κ] (ps qs : List P) (k : κ) :
    own_items request serial (ps ++ qs) k = own_items request serial ps k ++ own_items request serial qs k :=
  List.flatMap_append

theorem own_items_flatMap [DecidableEq κ] (l : List β) (f : β → List P) (k : κ) :
    own_items request serial (l.flatMap f) k = l.flatMap fun b => own_items request serial (f b) k :=
  List.flatMap_assoc

theorem zeta_items_append [DecidableEq π] (ps qs : List P) (k : π) :
    zeta_items request serial (ps ++ qs) k = zeta_items request serial ps k ++ zeta_items request serial qs k :=
  List.flatMap_append

theorem zeta_items_flatMap [DecidableEq π] (l : List β) (f : β → List P) (k : π) :
    zeta_items request serial (l.flatMap f) k = l.flatMap fun b => zeta_items request serial (f b) k :=
  List.flatMap_assoc

end Items

section Triangle

open threepf_singleconfig_batch_observer ThreepfBatcher

variable [Field K] (c : Setup) (agent : ComputeAgent K) (t : threepf_kconfig_record K) (r : time_config K) (x : ℕ → K)

/-- All vectors that the observer pushes have the size that the batcher expects. -/
theorem fits_push (r : time_config_record K) :
    ∀ p ∈ push t c r x, (request c agent p).size = (request c agent p).required := by
  intro p hp
  rw [push] at hp
  split_ifs at hp
  · simp only [push_config, List.mem_append, List.mem_flatMap, List.mem_singleton] at hp
    obtain (hp | ⟨l, hl, hp⟩) | rfl := hp
    · split_ifs at hp
      · obtain rfl := List.mem_singleton.mp hp
        simp [request, push_backg, backg_size]
      · cases hp
    · have hsizes : l.tensor_tpf.length = 4 ∧ l.tpf_re.length = 2 * c.Nfields * 2 * c.Nfields ∧
          l.tpf_im.length = 2 * c.Nfields * 2 * c.Nfields := by
        simp only [legs, List.mem_cons, List.not_mem_nil, or_false] at hl
        rcases hl with rfl | rfl | rfl <;> simp [read_leg, tensor_size, twopf_size, Nat.mul_assoc]
      rw [push_leg] at hp
      split_ifs at hp
      · simp only [List.mem_cons, List.not_mem_nil, or_false] at hp
        rcases hp with rfl | rfl | rfl
        · exact hsizes.1
        · exact hsizes.2.1
        · exact hsizes.2.2
      · cases hp
    · simp [request, push_threepf, sample, threepf_size, Nat.mul_assoc]
  · cases hp

omit [Field K] in
theorem fits_push_initial_conditions {c : Setup} (ics : initial_conditions c K) :
    ∀ p ∈ push_initial_conditions ics, (request c agent p).size = (request c agent p).required := by
  intro p hp
  rw [push_initial_conditions] at hp
  split_ifs at hp
  · simp only [List.mem_cons, List.not_mem_nil, or_false] at hp
    rcases hp with rfl | rfl
    · exact ics.length_ics_1
    · exact ics.length_ics_2
  · cases hp

omit [Field K] in
theorem own_items_push_leg (serial ts : ℕ) (bg : List K) (l : leg K) (k : ThreepfKind) :
    own_items (request c agent) serial (push_leg ts bg l) k =
      if l.stored then
        match k with
        | .tensor_twopf => [⟨serial, .sample ts l.serial l.tensor_tpf⟩]
        | .twopf_re => [⟨serial, .sample ts l.serial l.tpf_re⟩]
        | .twopf_im => [⟨serial, .sample ts l.serial l.tpf_im⟩]
        | _ => []
      else [] := by
  rw [push_leg]
  split_ifs
  · cases k <;> rfl
  · rfl

omit [Field K] in
theorem zeta_items_push_leg (serial ts : ℕ) (bg : List K) (l : leg K) (k : ZetaThreepfKind) :
    zeta_items (request c agent) serial (push_leg ts bg l) k =
      if l.stored then
        match k with
        | .twopf => [⟨serial, .sample ts l.serial [(agent.zeta_twopf l.tpf_re bg).1]⟩]
        | .gauge_xfm1 => [⟨serial, .sample ts l.serial (agent.zeta_twopf l.tpf_re bg).2⟩]
        | _ => []
      else [] := by
  rw [push_leg]
  split_ifs
  · cases k <;> rfl
  · rfl

/-- **One time**: the items are what the observer takes from the state. -/
theorem own_items_push_config (serial : ℕ) (k : ThreepfKind) :
    own_items (request c agent) serial (push_config t c r x) k =
      (threepf_payloads c agent t r x k).map (Item.mk serial) := by
  rw [push_config, own_items_append, own_items_append, own_items_flatMap]
  simp only [own_items_push_leg, flatMap_ite]
  have hthreepf : own_items (request c agent) serial [.threepf (sample t c r x)] k =
      if k = .threepf_momentum then [⟨serial, .sample r.serial t.record.serial (sample t c r x).values⟩]
      else if k = .threepf_Nderiv then [⟨serial, .sample r.serial t.record.serial (agent.Nderiv (sample t c r x))⟩]
      else [] := by
    cases k <;> rfl
  have hbg : own_items (request c agent) serial
      (if t.store_background then [.backg r.serial (block x backg_start (backg_size c))] else []) k =
      if k = .backg ∧ t.store_background then
        [⟨serial, .background r.serial (block x backg_start (backg_size c))⟩] else [] := by
    cases t.store_background <;> cases k <;> rfl
  rw [hbg, hthreepf]
  cases hstored : t.store_background <;> cases k <;>
    simp [threepf_payloads, threepf_payloads.stored_legs, threepf_payloads.sample, hstored, List.map_eq_flatMap,
      List.flatMap_assoc, List.flatMap_eq_nil_iff]

/-- One time, for the paired batcher. -/
theorem zeta_items_push_config (serial : ℕ) (k : ZetaThreepfKind) :
    zeta_items (request c agent) serial (push_config t c r x) k =
      (zeta_threepf_payloads c agent t r x k).map (Item.mk serial) := by
  rw [push_config, zeta_items_append, zeta_items_append, zeta_items_flatMap]
  simp only [zeta_items_push_leg, flatMap_ite]
  have hthreepf : zeta_items (request c agent) serial [.threepf (sample t c r x)] k =
      match k with
      | .twopf | .gauge_xfm1 => []
      | k => (zeta_threepf_payloads c agent t r x k).map (Item.mk serial) := by
    cases k <;> rfl
  have hbg : zeta_items (request c agent) serial
      (if t.store_background then [.backg r.serial (block x backg_start (backg_size c))] else []) k = [] := by
    cases t.store_background <;> cases k <;> rfl
  rw [hbg, hthreepf]
  cases k <;>
    simp [zeta_threepf_payloads, zeta_threepf_payloads.stored_legs, zeta_threepf_payloads.bg, List.map_eq_flatMap,
      List.flatMap_assoc, List.flatMap_eq_nil_iff]

variable (time_db : time_config_database K) (xs : List (ℕ → K)) (ics : initial_conditions c K)

/-- **A whole integration**: the initial conditions, and what the observer takes at the times that are stored. -/
theorem own_items_integration (serial : ℕ) (k : ThreepfKind) :
    own_items (request c agent) serial
        (push_initial_conditions ics ++ (time_db.zip xs).flatMap fun p => push t c p.1 p.2) k =
      (ics_payloads ics k ++ at_stored_times (fun r x => threepf_payloads c agent t r x k) time_db xs).map
        (Item.mk serial) := by
  have hics : own_items (request c agent) serial (push_initial_conditions ics) k =
      (ics_payloads ics k).map (Item.mk serial) := by
    rw [push_initial_conditions]
    cases hcollect : c.collect_initial_conditions <;> cases k <;>
      simp [ics_payloads, own_items, items, request, push_ics, push_kt_ics, ThreepfBatcher.push_initial_conditions,
        hcollect]
  rw [own_items_append, hics, own_items_flatMap, List.map_append, at_stored_times, List.map_flatMap]
  congr 1
  refine List.flatMap_congr fun p _ => ?_
  rw [push]
  split_ifs
  · exact own_items_push_config c agent t _ _ serial k
  · rfl

theorem zeta_items_integration (serial : ℕ) (k : ZetaThreepfKind) :
    zeta_items (request c agent) serial
        (push_initial_conditions ics ++ (time_db.zip xs).flatMap fun p => push t c p.1 p.2) k =
      (at_stored_times (fun r x => zeta_threepf_payloads c agent t r x k) time_db xs).map (Item.mk serial) := by
  have hics : zeta_items (request c agent) serial (push_initial_conditions ics) k = [] := by
    rw [push_initial_conditions]
    cases c.collect_initial_conditions <;> cases k <;>
      simp [zeta_items, items, request, push_ics, push_kt_ics, ThreepfBatcher.push_initial_conditions]
  rw [zeta_items_append, hics, List.nil_append, zeta_items_flatMap, at_stored_times, List.map_flatMap]
  refine List.flatMap_congr fun p _ => ?_
  rw [push]
  split_ifs
  · exact zeta_items_push_config c agent t _ _ serial k
  · rfl

end Triangle

/-! ### Keys -/

section Keys

open threepf_singleconfig_batch_observer

/-- The keys of what an observer takes from a state. -/
def sample_keys (t : threepf_kconfig_record K) (time : ℕ) : ThreepfKind → List (Option ℕ × Option ℕ)
  | .backg => if t.store_background then [(some time, none)] else []
  | .tensor_twopf | .twopf_re | .twopf_im => t.stored_legs.map fun j => (some time, some j)
  | .threepf_momentum | .threepf_Nderiv => [(some time, some t.record.serial)]
  | .stats | .ics | .kt_ics => []

/-- The keys of what comes with an integration. -/
def metadata_keys (c : Setup) (t : threepf_kconfig_record K) : ThreepfKind → List (Option ℕ × Option ℕ)
  | .stats => if c.collect_statistics then [(none, some t.record.serial)] else []
  | .ics | .kt_ics => if c.collect_initial_conditions then [(none, some t.record.serial)] else []
  | _ => []

theorem map_key_at_stored_times {f : time_config K → (ℕ → K) → List (Payload K)} {g : ℕ → List (Option ℕ × Option ℕ)}
    {serial : ℕ} (h : ∀ r x, ((f r x).map (Item.mk serial)).map key = g r.serial) {time_db : time_config_database K}
    {xs : List (ℕ → K)} (hlength : xs.length = time_db.length) :
    ((at_stored_times f time_db xs).map (Item.mk serial)).map key =
      ((time_db.filter (·.store)).map (·.record.serial)).flatMap g := by
  induction time_db generalizing xs with
  | nil => rfl
  | cons r rs ih =>
    obtain ⟨x, xs, rfl⟩ := List.exists_cons_of_length_eq_add_one hlength
    have ih := ih (Nat.succ.inj hlength)
    rw [at_stored_times] at ih ⊢
    rw [List.zip_cons_cons, List.flatMap_cons, List.map_append, List.map_append, ih]
    cases hr : r.store with
    | true => rw [if_pos rfl, h, List.filter_cons_of_pos (by simpa using hr), List.map_cons, List.flatMap_cons]
    | false =>
      rw [if_neg Bool.false_ne_true, List.filter_cons_of_neg (by simpa using hr)]
      rfl

variable [Field K] (c : Setup) (agent : ComputeAgent K) (t : threepf_kconfig_record K) (r : time_config K) (x : ℕ → K)

theorem map_serial_legs : ((legs t c x).filter (·.stored)).map (·.serial) = t.stored_legs := by
  rw [legs, threepf_kconfig_record.stored_legs]
  cases h₁ : t.store_twopf_k1 <;> cases h₂ : t.store_twopf_k2 <;> cases h₃ : t.store_twopf_k3 <;>
    simp [read_leg]

/-- One item for each leg that is stored. -/
theorem map_key_legs (serial : ℕ) (f : leg K → List K) :
    ((((legs t c x).filter (·.stored)).map fun l => .sample r.serial l.serial (f l)).map (Item.mk serial)).map key =
      t.stored_legs.map fun j => (some r.serial, some j) := by
  rw [← map_serial_legs c t x, List.map_map, List.map_map, List.map_map]
  rfl

theorem map_key_payloads (serial : ℕ) (k : ThreepfKind) :
    ((threepf_payloads c agent t r x k).map (Item.mk serial)).map key = sample_keys t r.serial k := by
  cases k with
  | backg =>
    rw [threepf_payloads, sample_keys]
    split_ifs
    · rfl
    · rfl
  | tensor_twopf | twopf_re | twopf_im => exact map_key_legs c t r x serial _
  | _ => rfl

theorem map_key_zeta_payloads (serial : ℕ) (k : ZetaThreepfKind) :
    ((zeta_threepf_payloads c agent t r x k).map (Item.mk serial)).map key = sample_keys t r.serial (made_of k) := by
  cases k with
  | twopf | gauge_xfm1 => exact map_key_legs c t r x serial _
  | _ => rfl

end Keys

/-! ### All triangles -/

section Task

variable [Field K] [LinearOrder K] [IsStrictOrderedRing K] {s : State K}

theorem nodup_sampled_places {times serials : List ℕ} (htimes : times.Nodup) (hserials : serials.Nodup) :
    (sampled_places times serials).Nodup :=
  (htimes.product hserials).map (Function.Injective.prodMap (Option.some_injective ℕ) (Option.some_injective ℕ))

omit [Field K] [LinearOrder K] [IsStrictOrderedRing K] in
/-- No two items have the same key. -/
theorem nodup_places (h : State.Flagged s) (c : Setup) {times : List ℕ} (htimes : times.Nodup) (k : ThreepfKind) :
    (places c s times k).Nodup := by
  have hserials : (threepf_serials s).Nodup := h.sorted.imp fun h => Nat.ne_of_lt h
  have hmetadata : (metadata_places (threepf_serials s)).Nodup := hserials.map fun a b hab => by simpa using hab
  cases k with
  | backg =>
    rw [places]
    split_ifs
    · exact List.nodup_nil
    · exact htimes.map fun a b hab => by simpa using hab
  | twopf_re | twopf_im | tensor_twopf => exact nodup_sampled_places htimes (List.nodup_dedup _)
  | threepf_momentum | threepf_Nderiv => exact nodup_sampled_places htimes hserials
  | stats | ics | kt_ics =>
    rw [places]
    split_ifs
    · exact hmetadata
    · exact List.nodup_nil

/-- The legs that are flagged are all legs. -/
theorem perm_twopf_serials (h : State.Flagged s) (nodup : (s.threepf_db.database.flatMap (·.stored_legs)).Nodup) :
    (s.threepf_db.database.flatMap (·.stored_legs)).Perm (twopf_serials s) := by
  refine (List.perm_ext_iff_of_nodup nodup (List.nodup_dedup _)).mpr fun j => ?_
  simp only [List.mem_dedup, List.mem_flatMap, List.mem_map]
  constructor
  · rintro ⟨t, ht, hj⟩
    refine ⟨t, ht, ?_⟩
    obtain ⟨-, rfl⟩ | ⟨-, rfl⟩ | ⟨-, rfl⟩ := mem_stored_legs.mp hj <;> simp [threepf_kconfig.legs]
  · rintro ⟨t, ht, leg, hleg, rfl⟩
    obtain ⟨u, hu, hj⟩ := (h.stored_iff leg.2).mp (h.legs leg (List.mem_flatMap.mpr ⟨t, ht, hleg⟩))
    exact ⟨u, hu, mem_stored_legs.mpr hj⟩

theorem flatMap_map_eq_sampled_places (times serials : List ℕ) :
    (times.flatMap fun time => serials.map fun j => (some time, some j)) = sampled_places times serials := by
  rw [sampled_places, show times ×ˢ serials = times.flatMap fun time => serials.map (Prod.mk time) from rfl,
    List.map_flatMap]
  simp only [List.map_map]
  rfl

/-- **All triangles** together have the keys of the task, in some order. -/
theorem perm_places (h : State.Flagged s) (nodup : (s.threepf_db.database.flatMap (·.stored_legs)).Nodup) (c : Setup)
    (times : List ℕ) (k : ThreepfKind) :
    (s.threepf_db.database.flatMap fun t => metadata_keys c t k ++ times.flatMap fun time => sample_keys t time k).Perm
      (places c s times k) := by
  have hswap : (s.threepf_db.database.flatMap fun t => times.flatMap fun time => sample_keys t time k).Perm
      (times.flatMap fun time => s.threepf_db.database.flatMap fun t => sample_keys t time k) :=
    perm_flatMap_swap _ _ _
  have htwopf : (times.flatMap fun time => s.threepf_db.database.flatMap fun t =>
      t.stored_legs.map fun j => (some time, some j)).Perm (sampled_places times (twopf_serials s)) := by
    rw [← flatMap_map_eq_sampled_places]
    refine List.Perm.flatMap_left _ fun time _ => ?_
    rw [← List.map_flatMap]
    exact (perm_twopf_serials h nodup).map _
  have hthreepf : (times.flatMap fun time => s.threepf_db.database.flatMap fun t =>
      [(some time, some t.record.serial)]) = sampled_places times (threepf_serials s) := by
    rw [← flatMap_map_eq_sampled_places]
    simp only [threepf_serials, List.map_map, ← List.map_eq_flatMap]
    rfl
  have hmetadata (b : Bool) : (s.threepf_db.database.flatMap fun t =>
      (if b then [(none, some t.record.serial)] else []) ++ times.flatMap fun _ => []) =
        if b then metadata_places (threepf_serials s) else ([] : List (Option ℕ × Option ℕ)) := by
    simp only [flatMap_nil_right, List.append_nil]
    cases b with
    | true =>
      rw [if_pos rfl, metadata_places, threepf_serials, List.map_map]
      exact List.map_eq_flatMap.symm
    | false => exact List.flatMap_eq_nil_iff.mpr fun _ _ => rfl
  cases k with
  | backg =>
    refine hswap.trans (.of_eq ?_)
    simp only [sample_keys, places, flatMap_ite]
    split_ifs with hempty
    · simp [hempty, List.flatMap_eq_nil_iff]
    · -- one triangle is flagged
      have hone := (h.storedOnce nodup).background hempty
      rw [List.countP_eq_length_filter] at hone
      obtain ⟨t, ht⟩ := List.length_eq_one_iff.mp hone
      rw [ht]
      exact List.map_eq_flatMap.symm
  | twopf_re | twopf_im | tensor_twopf => exact hswap.trans htwopf
  | threepf_momentum | threepf_Nderiv => exact hswap.trans (.of_eq hthreepf)
  | stats | ics | kt_ics => exact .of_eq (hmetadata _)

end Task

/-! ### Times -/

section Times

variable [LinearOrder K]

theorem pairwise_serials_sampled (start earliest : K) (ts : List K) (serial : ℕ) :
    ((sampled start earliest ts serial).map (·.record.serial)).Pairwise (· < ·) ∧
      ∀ n ∈ (sampled start earliest ts serial).map (·.record.serial), serial ≤ n := by
  induction ts generalizing serial with
  | nil => exact ⟨List.Pairwise.nil, fun _ hn => absurd hn List.not_mem_nil⟩
  | cons t ts ih =>
    obtain ⟨hpairwise, hle⟩ := ih (serial + 1)
    rw [sampled]
    split_ifs
    · refine ⟨List.pairwise_cons.mpr ⟨fun n hn => hle n hn, hpairwise⟩, fun n hn => ?_⟩
      rcases List.mem_cons.mp hn with rfl | hn
      · exact le_rfl
      · exact Nat.le_of_succ_le (hle n hn)
    · exact ⟨hpairwise, fun n hn => Nat.le_of_succ_le (hle n hn)⟩

/-- All modes store at the same times. -/
theorem stored_serials [Sub K] (tk : twopf_db_task K κ) {k : κ} {Nbegin earliest_recordable : K}
    (hk : tk.get_earliest_recordable_time k = .ok earliest_recordable) (hstart : Nbegin ≤ earliest_recordable)
    (hrecorded : ∃ t ∈ tk.times.times, earliest_recordable ≤ t) {time_db stored_time_db : time_config_database K}
    (hbuild : tk.build_time_config_database Nbegin k = .ok time_db)
    (hcache : tk.cache_stored_time_config_database k = .ok stored_time_db) :
    (time_db.filter (·.store)).map (·.record.serial) = stored_time_db.map (·.record.serial) := by
  obtain ⟨hbuild', hcache'⟩ := databases_eq tk hk hstart hrecorded
  cases hbuild'.symm.trans hbuild
  cases hcache'.symm.trans hcache
  have hspecial : (special Nbegin earliest_recordable tk.times.times).filter (·.store) = [] := by
    rw [special]
    split_ifs
    · rfl
    · rfl
  rw [List.filter_append, hspecial, List.nil_append, filter_store_sampled hstart]

end Times

/-! ### The task -/

section Main

open ThreepfBatcher threepf_singleconfig_batch_observer

variable [Field K] {c : Setup} {irregular : K → Bool} {run : Integrations c K} {t : threepf_kconfig_record K}
variable {last : ℕ × Integration K (run.time_db t).length × Statistics}

/-- A triangle delivers what it should. -/
theorem delivered_configuration (agent : ComputeAgent K)
    (h : last_integration (irregular_state irregular c) 0 (run.attempts t) = some last) :
    (final_attempt (request c agent) 0 (run.configuration irregular t).attempts).isSome = true ∧
      (∀ k, delivered (request c agent) (ThreepfBatcher.kept c) (run.configuration irregular t) k =
        run.items agent t last k) ∧
      ∀ k, delivered_zeta (request c agent) (fun _ => true) (run.configuration irregular t) k =
        run.zeta_items agent t last k := by
  obtain ⟨level, i, st⟩ := last
  obtain ⟨-, hfinal⟩ := final_attempt_eq (fun r x => fits_push c agent t x r)
    (fits_push_initial_conditions agent (run.ics t)) h
  have hattempts : final_attempt (request c agent) 0 (run.configuration irregular t).attempts = _ := hfinal
  refine ⟨by rw [hattempts]; rfl, fun k => ?_, fun k => ?_⟩
  · rw [delivered, hattempts]
    show (if ThreepfBatcher.kept c k then own_items (request c agent) t.record.serial _ k else []) ++ _ = _
    rw [own_items_integration, Integrations.items]
    congr 1
    cases hkept : ThreepfBatcher.kept c k with
    | true => rw [if_pos rfl]
    | false =>
      -- nothing of this kind has been pushed
      have hnil : at_stored_times (fun r x => threepf_payloads c agent t r x k) (run.time_db t) i.states = [] := by
        refine List.flatMap_eq_nil_iff.mpr fun p _ => ?_
        cases k <;> first | cases hkept | simp [threepf_payloads]
      rw [if_neg Bool.false_ne_true, hnil]
      cases k <;> first | cases hkept | simp_all [ics_payloads, ThreepfBatcher.kept]
  · rw [delivered_zeta, hattempts]
    exact zeta_items_integration c agent t (run.time_db t) i.states (run.ics t) t.record.serial k

/-- The keys of what it delivers. -/
theorem map_key_items (agent : ComputeAgent K) {times : List ℕ}
    (htimes : ((run.time_db t).filter (·.store)).map (·.record.serial) = times)
    (hlength : last.2.1.states.length = (run.time_db t).length) (k : ThreepfKind) :
    (run.items agent t last k).map key = metadata_keys c t k ++ times.flatMap fun time => sample_keys t time k := by
  have hsamples := map_key_at_stored_times (g := fun time => sample_keys t time k)
    (fun r x => map_key_payloads c agent t r x t.record.serial k) hlength
  rw [Integrations.items, List.map_append, List.map_append, List.map_append, hsamples, htimes]
  cases k with
  | stats =>
    cases hcollect : c.collect_statistics <;>
      simp [ics_payloads, metadata_keys, sample_keys, flatMap_nil_right, stats_items, ThreepfBatcher.kept,
        hcollect, stats, key]
  | ics =>
    cases hcollect : c.collect_initial_conditions <;>
      simp [ics_payloads, metadata_keys, sample_keys, flatMap_nil_right, stats_items, hcollect, stats, key]
  | kt_ics =>
    cases hcollect : c.collect_initial_conditions <;>
      simp [ics_payloads, metadata_keys, sample_keys, flatMap_nil_right, stats_items, hcollect, stats, key]
  | _ => simp [ics_payloads, metadata_keys, stats_items, stats]

theorem map_key_zeta_items (agent : ComputeAgent K) {times : List ℕ}
    (htimes : ((run.time_db t).filter (·.store)).map (·.record.serial) = times)
    (hlength : last.2.1.states.length = (run.time_db t).length) (k : ZetaThreepfKind) :
    (run.zeta_items agent t last k).map key = times.flatMap fun time => sample_keys t time (made_of k) := by
  rw [Integrations.zeta_items, map_key_at_stored_times (g := fun time => sample_keys t time (made_of k))
    (fun r x => map_key_zeta_payloads c agent t r x t.record.serial k) hlength, htimes]

/-- What all workers do for the triangles that they have been given. -/
theorem perm_given {β : Type} {ts : List (threepf_kconfig_record K)}
    {works : List (Assignments (ThreepfBatcher.Push K))}
    (hworks : (works.flatMap (·.queues.flatten)).Perm (ts.map (run.configuration irregular)))
    (f : Configuration (ThreepfBatcher.Push K) → List β) :
    (works.flatMap fun work => work.queues.flatten.flatMap f).Perm
      (ts.flatMap fun t => f (run.configuration irregular t)) := by
  rw [← List.flatMap_assoc]
  simpa only [List.flatMap_map] using hworks.flatMap_right f

variable [LinearOrder K] [IsStrictOrderedRing K]

/-- **The samples of a task are complete**, and none is there twice: all triangles have been given out, to any number
of workers, in any number of work lists, and the integration of each has come to an end. -/
theorem samples_complete {cn : K} {s : State K} (h : (State.runs cn).Reachable s) (tk : twopf_db_task K κ) {k : κ}
    {earliest_recordable : K} (hk : tk.get_earliest_recordable_time k = .ok earliest_recordable)
    (hrecorded : ∃ t ∈ tk.times.times, earliest_recordable ≤ t) (agent : ComputeAgent K) (is_paired : Bool)
    (run : Integrations c K)
    (hdb : ∀ t ∈ s.threepf_db.database, ∃ Nbegin ≤ earliest_recordable,
      tk.build_time_config_database Nbegin k = .ok (run.time_db t))
    (last : ∀ t, ℕ × Integration K (run.time_db t).length × Statistics)
    (hlast : ∀ t ∈ s.threepf_db.database,
      last_integration (irregular_state irregular c) 0 (run.attempts t) = some (last t))
    (works : List (Assignments (ThreepfBatcher.Push K)))
    (hworks : (works.flatMap (·.queues.flatten)).Perm (s.threepf_db.database.map (run.configuration irregular))) :
    ∃ stored_time_db, tk.cache_stored_time_config_database k = .ok stored_time_db ∧
      let times := stored_time_db.map (·.record.serial)
      Sampled (rows c agent is_paired works)
          (fun k => s.threepf_db.database.flatMap fun t => run.items agent t (last t) k) (places c s times) ∧
        (is_paired = true → Sampled (zeta_rows c agent is_paired works)
          (fun k => s.threepf_db.database.flatMap fun t => run.zeta_items agent t (last t) k)
          fun k => places c s times (made_of k)) := by
  have hflagged := (State.flagged_of_reachable h).2
  have hlegs := State.nodup_stored_legs_of_reachable h
  obtain ⟨-, hcache⟩ := databases_eq tk hk (le_refl earliest_recordable) hrecorded
  refine ⟨_, hcache, ?_⟩
  intro times
  have htimes : times.Nodup :=
    (pairwise_serials_sampled _ _ tk.times.times _).1.imp fun h => Nat.ne_of_lt h
  have hstored : ∀ t ∈ s.threepf_db.database, ((run.time_db t).filter (·.store)).map (·.record.serial) = times := by
    intro t ht
    obtain ⟨Nbegin, hstart, hbuild⟩ := hdb t ht
    exact stored_serials tk hk hstart hrecorded hbuild hcache
  have hlength : ∀ t ∈ s.threepf_db.database, (last t).2.1.states.length = (run.time_db t).length := fun t ht =>
    (final_attempt_eq (fun r x => fits_push c agent t x r) (fits_push_initial_conditions agent (run.ics t))
      (hlast t ht)).1
  have hdelivered := fun t ht => delivered_configuration agent (hlast t ht)
  -- every entry of a work list is a triangle
  have hentry : ∀ work ∈ works, ∀ e ∈ work.queues.flatten, ∃ t ∈ s.threepf_db.database,
      run.configuration irregular t = e := fun work hwork e he =>
    List.mem_map.mp (hworks.subset (List.mem_flatMap.mpr ⟨work, hwork, he⟩))
  have hsuccess : ∀ work ∈ works, ∀ e ∈ work.queues.flatten,
      (final_attempt (request c agent) 0 e.attempts).isSome = true := by
    intro work hwork e he
    obtain ⟨t, ht, rfl⟩ := hentry work hwork e he
    exact (hdelivered t ht).1
  have hwritten : ∀ work ∈ works, _ := fun work hwork =>
    written_run_worker (fresh_create c is_paired) work (hsuccess work hwork)
  constructor
  · have hitems : ∀ k, (rows c agent is_paired works k).Perm
        (s.threepf_db.database.flatMap fun t => run.items agent t (last t) k) := by
      intro k
      rw [show rows c agent is_paired works k = _ from List.flatMap_congr fun work hwork => (hwritten work hwork).1 k]
      exact (perm_given hworks _).trans (.of_eq (List.flatMap_congr fun t ht => (hdelivered t ht).2.1 k))
    refine ⟨hitems, fun k => ((hitems k).map key).trans ?_, nodup_places hflagged c htimes⟩
    rw [List.map_flatMap, List.flatMap_congr fun t ht => map_key_items agent (hstored t ht) (hlength t ht) k]
    exact perm_places hflagged hlegs c times k
  · rintro rfl
    have hitems : ∀ k, (zeta_rows c agent true works k).Perm
        (s.threepf_db.database.flatMap fun t => run.zeta_items agent t (last t) k) := by
      intro k
      have hrows : ∀ work ∈ works,
          ((run_worker (request c agent) (ThreepfBatcher.create c true) work).paired.elim [] (·.written k)) =
            work.queues.flatten.flatMap fun e => delivered_zeta (request c agent) (fun _ => true) e k := by
        intro work hwork
        obtain ⟨p, hp, hwritten⟩ := (hwritten work hwork).2 _ rfl
        rw [Option.mem_def.mp hp]
        exact hwritten k
      rw [show zeta_rows c agent true works k = _ from List.flatMap_congr hrows]
      exact (perm_given hworks _).trans (.of_eq (List.flatMap_congr fun t ht => (hdelivered t ht).2.2 k))
    refine ⟨hitems, fun k => ((hitems k).map key).trans ?_, fun k => nodup_places hflagged c htimes _⟩
    rw [List.map_flatMap, List.flatMap_congr fun t ht => map_key_zeta_items agent (hstored t ht) (hlength t ht) k]
    refine List.Perm.trans (.of_eq ?_) (perm_places hflagged hlegs c times (made_of k))
    cases k <;> rfl

end Main

/-! ### Two times -/

section TwoTimes

/-- Times 0 and 1, before which all modes begin. -/
def two_times : twopf_db_task ℚ ℕ where
  times := ⟨[0, 1], by decide, by decide⟩
  adaptive_ics := false
  adaptive_efolds := 0
  N_initial := -1
  find _ := some ⟨0⟩

def integration_at_0_and_1 : Integration ℚ 3 where
  states := [fun _ => 0, fun _ => 1, fun _ => 2]
  ending := .completed ⟨0, 0, 0⟩ ⟨false, false, false⟩
  length_le := le_rfl
  length_eq _ _ _ := rfl

/-- A first integration diverges after its first state, a second one comes to an end. -/
def second_attempt : Integrations smallSetup ℚ where
  time_db _ := [⟨⟨0, -1⟩, false⟩, ⟨⟨1, 0⟩, true⟩, ⟨⟨2, 1⟩, true⟩]
  ics _ := ⟨0, [0, 0], 0, [0, 0], rfl, rfl⟩
  attempts _ := [⟨[fun _ => 0], .throws .overflow_error, by simp, by simp⟩, integration_at_0_and_1]
  expired _ := ⟨false, false, false⟩

/-- One work list with the triangles of `sharing`. -/
def one_list : Assignments (ThreepfBatcher.Push ℚ) where
  queues := [State.sharing.threepf_db.database.map (second_attempt.configuration fun _ => false)]
  distinct := by
    rw [List.flatten_singleton, List.map_map]
    exact (State.flagged_of_reachable State.reachable_sharing).2.sorted.imp fun h => Nat.ne_of_lt h

def no_agent : ComputeAgent ℚ := ⟨fun _ _ => (0, []), fun _ => [], fun _ => (0, 0, [], [], [])⟩

theorem samples_complete_sharing :
    ((rows smallSetup no_agent true [one_list] .twopf_re).map key).Perm
      (places smallSetup State.sharing [1, 2] .twopf_re) := by
  have hk : two_times.get_earliest_recordable_time 0 = .ok (-1) := rfl
  have hbuild : two_times.build_time_config_database (-1) 0 =
      .ok [⟨⟨0, -1⟩, false⟩, ⟨⟨1, 0⟩, true⟩, ⟨⟨2, 1⟩, true⟩] := by decide +kernel
  have hlast : ∀ t ∈ State.sharing.threepf_db.database,
      last_integration (irregular_state (fun _ => false) smallSetup) 0 (second_attempt.attempts t) =
        some (1, integration_at_0_and_1, ⟨0, 0, 0⟩) := fun _ _ => rfl
  have hworks : ([one_list].flatMap (·.queues.flatten)).Perm
      (State.sharing.threepf_db.database.map (second_attempt.configuration fun _ => false)) := by simp [one_list]
  obtain ⟨_, hcache, h, -⟩ := samples_complete State.reachable_sharing two_times hk ⟨0, by decide, by decide⟩
    no_agent true second_attempt (fun _ _ => ⟨-1, le_rfl, hbuild⟩) (fun _ => (1, integration_at_0_and_1, ⟨0, 0, 0⟩))
    hlast [one_list] hworks
  cases hcache
  exact h.keys _

end TwoTimes

end CppTransport.Runtime.Observers
