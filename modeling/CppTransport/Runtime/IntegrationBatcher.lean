import CppTransport.Library.StagedBuffer
import Mathlib.Algebra.BigOperators.Group.Finset.Basic
import Mathlib.Data.Fintype.Basic

/-!
# Batchers of an integration

A worker that integrates a work list pushes its samples to a batcher, which keeps
them in memory, one batch for each kind of item, and writes all batches to a
container when they outgrow its capacity. An integration that hits a divergence is
unwound and tried again on a finer mesh, so that while a work list is processed the
flush is put off until an integration reports that it has finished. An integration
batcher can be paired with a zeta batcher, to which it passes what it computes from
each sample; the pair is flushed and unwound together.

## The model

* `Batcher`: what a `generic_batcher` and the batches of its subclasses hold. The
  batches are a function of the kind of item; `written` is what `flush` has handed to
  the writers;
* every `push_` function checks the size of its argument, emplaces its items, passes
  others to the paired batcher, and checks for a flush. `Request` holds what
  distinguishes them, `IntegrationBatcher.push` is what they share;
* whether the checkpoint interval has expired is told to each function that asks the
  timer, by a parameter `expired`.
-/

namespace CppTransport.Runtime

open Library Finset

/-! ### Items -/

/-- Payload of an item of `integration_items` or `postintegration_items`. -/
inductive Payload (K : Type*) where
  /-- `backg_item`. -/
  | background (time_serial : ℕ) (coords : List K)
  /-- Items with a value for each time and k-configuration. -/
  | sample (time_serial kconfig_serial : ℕ) (elements : List K)
  /-- `ics_item` and `ics_kt_item`. -/
  | initial_conditions (texit : K) (coords : List K)
  /-- `configuration_statistics`. -/
  | statistics (integration batching refinements steps : ℕ)
deriving DecidableEq

/-- An item, with the serial number of the integration that produced it. -/
structure Item (K : Type*) where
  /-- Used when unwinding a batch. -/
  source_serial : ℕ
  /-- The other fields. -/
  payload : Payload K
deriving DecidableEq

/-! ### Generic batchers -/

/-- `generic_batcher::flush_mode`. -/
inductive FlushMode where
  /-- Flush whenever the batcher becomes full. -/
  | flush_immediate
  /-- Wait until the end of an integration is reported. -/
  | flush_delayed
deriving DecidableEq

/-- A batcher with one batch for each kind in `κ`. -/
structure Batcher (κ K : Type*) extends StagedBuffer κ (Item K) where
  /-- Capacity available. -/
  capacity : ℕ
  /-- Storage taken by one item of each kind. -/
  weight : κ → ℕ
  /-- Needs flushing at next opportunity? -/
  flush_due : Bool
  /-- Flushing mode. -/
  mode : FlushMode

namespace Batcher

variable {κ K : Type*} (b : Batcher κ K)

/-- A new batcher: nothing batched, and nothing written. -/
def create (capacity : ℕ) (weight : κ → ℕ) (kept : κ → Bool) : Batcher κ K where
  kept := kept
  staged _ := []
  written _ := []
  capacity := capacity
  weight := weight
  flush_due := false
  mode := .flush_immediate

@[simp] theorem total_create (capacity : ℕ) (weight : κ → ℕ) (kept : κ → Bool) (k : κ) :
    (create capacity weight kept : Batcher κ K).total k = [] := by
  unfold create StagedBuffer.total StagedBuffer.pending
  split_ifs <;> rfl

/-- `set_flush_mode`. -/
def set_flush_mode (f : FlushMode) : Batcher κ K := { b with mode := f }

/-- `flush`: the batches are written and cleared. -/
def flush : Batcher κ K := { b with toStagedBuffer := b.commit }

/-- `unbatch`: the items of one integration are taken out of the given batches. -/
def unbatch (kinds : κ → Bool) (source_serial : ℕ) : Batcher κ K :=
  { b with toStagedBuffer := b.discard kinds fun it => it.source_serial = source_serial }

/-- The end of each report: flush if one is due, or else if the checkpoint interval has expired. -/
def flush_if_due (expired : Bool) : Batcher κ K :=
  if b.flush_due then { b with flush_due := false }.flush
  else if expired then b.flush else b

/-- `emplace_back` on one of the batches. -/
def emplace_back [DecidableEq κ] (kind : κ) (it : Item K) : Batcher κ K :=
  { b with toStagedBuffer := b.stage kind it }

variable [Fintype κ]

/-- `storage`: size of all currently batched items. -/
def storage : ℕ := ∑ k, b.weight k * (b.staged k).length

/-- `check_for_flush`. -/
def check_for_flush : Batcher κ K :=
  if b.capacity < b.storage then
    match b.mode with
    | .flush_immediate => b.flush
    | .flush_delayed => { b with flush_due := true }
  else b

/-- The body of the `push_` functions of a zeta batcher. -/
def push [DecidableEq κ] (kind : κ) (it : Item K) : Batcher κ K := (b.emplace_back kind it).check_for_flush

end Batcher

/-! ### Integration batchers -/

/-- Kinds of item of an integration batcher, among them the per-configuration statistics. -/
class IntegrationKind (κ : Type*) where
  /-- The kind kept in `stats_batch`. -/
  stats : κ

open IntegrationKind (stats)

/-- What distinguishes one call of a `push_` function from another. -/
structure Request (κ π K : Type*) [IntegrationKind κ] where
  /-- Length of the argument `values`. -/
  size : ℕ
  /-- Length that it is checked for. -/
  required : ℕ
  /-- The items are collected: initial conditions are not always. -/
  enabled : Bool
  /-- Items for the batches of the batcher itself. -/
  own : List (κ × Payload K)
  /-- Items for the paired batcher. -/
  zeta : List (π × Payload K)
  /-- Statistics are not pushed, they come with the report of a successful integration. -/
  no_stats : ∀ e ∈ own, e.1 ≠ stats

/-- Exceptions that end an integration. -/
inductive Thrown where
  /-- `std::overflow_error`: the integration diverged. -/
  | overflow_error
  /-- `runtime_exception`: among others a `STORAGE_ERROR` or a `REFINEMENT_FAILURE`. -/
  | runtime_exception
deriving DecidableEq

/-- A `twopf_batcher` or `threepf_batcher`, with its paired zeta batcher if there is one. -/
structure IntegrationBatcher (κ π K : Type*) where
  /-- The batcher itself. -/
  main : Batcher κ K
  /-- `paired_batcher`. -/
  paired : Option (Batcher π K)
  /-- Number of integrations handled. -/
  num_integrations : ℕ
  /-- Number of integrations which have failed. -/
  failures : ℕ
  /-- Failed serial numbers. -/
  failed_serials : List ℕ
  /-- Number of integrations which required refinement. -/
  refinements : ℕ

/-- Arguments of `report_integration_success`. -/
structure Statistics where
  /-- Integration time. -/
  integration : ℕ
  /-- Batching time. -/
  batching : ℕ
  /-- Number of steps. -/
  steps : ℕ
deriving DecidableEq

/-- Answers of the checkpoint timers while a report is handled. -/
structure Expired where
  /-- Of the batcher, at the first look. -/
  first : Bool
  /-- Of the batcher, at the second look, which only a successful integration makes. -/
  second : Bool
  /-- Of the paired batcher. -/
  paired : Bool
deriving DecidableEq

namespace IntegrationBatcher

variable {κ π K : Type*} (b : IntegrationBatcher κ π K)

/-- `set_flush_mode`, which is passed on to the paired batcher. -/
def set_flush_mode (f : FlushMode) : IntegrationBatcher κ π K :=
  { b with main := b.main.set_flush_mode f, paired := b.paired.map (·.set_flush_mode f) }

/-- `close`: the last flush of the batcher and of its partner. -/
def close : IntegrationBatcher κ π K := { b with main := b.main.flush, paired := b.paired.map (·.flush) }

/-- `report_refinement`. -/
def report_refinement : IntegrationBatcher κ π K := { b with refinements := b.refinements + 1 }

section Reports

variable [IntegrationKind κ] [DecidableEq κ]

/-- `unbatch`: every batch but that of the statistics is unwound, and the paired batcher is. -/
def unbatch (source_serial : ℕ) : IntegrationBatcher κ π K where
  __ := b
  main := b.main.unbatch (· ≠ stats) source_serial
  paired := b.paired.map (·.unbatch (fun _ => true) source_serial)

/-- `report_integration_success`: the statistics are stored between two chances to flush. -/
def report_integration_success (kserial : ℕ) (s : Statistics) (refinement : ℕ) (expired : Expired) :
    IntegrationBatcher κ π K :=
  let before := b.main.flush_if_due expired.first
  let it : Item K := ⟨kserial, .statistics s.integration s.batching refinement s.steps⟩
  let stored := if b.main.kept stats then before.emplace_back stats it else before
  { b with
    main := stored.flush_if_due expired.second
    paired := b.paired.map (·.flush_if_due expired.paired)
    num_integrations := b.num_integrations + 1 }

variable [Fintype κ]

/-- `report_integration_failure`. -/
def report_integration_failure (kserial : ℕ) (expired : Expired) : IntegrationBatcher κ π K where
  main := b.main.check_for_flush.flush_if_due expired.first
  paired := b.paired.map (·.flush_if_due expired.paired)
  num_integrations := b.num_integrations
  failures := b.failures + 1
  failed_serials := b.failed_serials.insert kserial
  refinements := b.refinements

variable [Fintype π] [DecidableEq π]

/-- The body of the `push_` functions. -/
def push (source_serial : ℕ) (r : Request κ π K) : Except Thrown (IntegrationBatcher κ π K) :=
  if r.size ≠ r.required then .error .runtime_exception
  else if r.enabled then
    let main := r.own.foldl (fun m e => m.emplace_back e.1 ⟨source_serial, e.2⟩) b.main
    .ok { b with
      main := main.check_for_flush
      paired := b.paired.map fun p => r.zeta.foldl (fun p e => p.push e.1 ⟨source_serial, e.2⟩) p }
  else .ok b

end Reports

end IntegrationBatcher

/-! ### The batchers of twopf and threepf tasks -/

/-- What a batcher reads from its task, its model and the platform. -/
structure Setup where
  /-- Number of fields. -/
  Nfields : ℕ
  /-- Capacity of the integration batcher. -/
  capacity : ℕ
  /-- Capacity of the paired batcher. -/
  zeta_capacity : ℕ
  /-- Are we collecting per-configuration statistics? -/
  collect_statistics : Bool
  /-- Are we collecting initial conditions? -/
  collect_initial_conditions : Bool
  /-- `sizeof(unsigned int)`. -/
  sizeof_unsigned_int : ℕ
  /-- `sizeof(size_t)`. -/
  sizeof_size_t : ℕ
  /-- `sizeof(boost::timer::nanosecond_type)`. -/
  sizeof_nanosecond_type : ℕ
  /-- `sizeof(number)`. -/
  sizeof_number : ℕ

/-- Storage of an item with `serials` serial numbers and `numbers` values. -/
def Setup.item_size (c : Setup) (serials numbers : ℕ) : ℕ :=
  serials * c.sizeof_unsigned_int + numbers * c.sizeof_number

/-- Storage of a record of statistics. -/
def Setup.stats_size (c : Setup) : ℕ :=
  2 * c.sizeof_unsigned_int + c.sizeof_size_t + 2 * c.sizeof_nanosecond_type

/-- Arguments of `push_threepf`; the configuration is named by its serial number. -/
structure ThreepfSample (K : Type*) where
  /-- Serial number of the sample time. -/
  time_serial : ℕ
  /-- Sample time. -/
  t : K
  /-- Serial number of the configuration. -/
  kserial : ℕ
  /-- The three-point function. -/
  values : List K
  /-- Real and imaginary two-point functions of the three legs. -/
  tpf : List (List K)
  /-- Background. -/
  bg : List K

/-- `compute_agent`, with the members it writes its results to. -/
structure ComputeAgent (K : Type*) where
  /-- `zeta_twopf` and `gauge_xfm1`, from a twopf and the background. -/
  zeta_twopf : List K → List K → K × List K
  /-- The three-point function with momenta turned into derivatives by `shift`. -/
  Nderiv : ThreepfSample K → List K
  /-- `zeta_threepf`, `redbsp`, `gauge_xfm2_123`, `gauge_xfm2_213` and `gauge_xfm2_312`. -/
  zeta_threepf : ThreepfSample K → K × K × List K × List K × List K

/-- Batches of a `twopf_batcher`. -/
inductive TwopfKind where
  | backg | twopf | tensor_twopf | stats | ics
deriving DecidableEq

/-- Batches of a `zeta_twopf_batcher`. -/
inductive ZetaTwopfKind where
  | twopf | gauge_xfm1
deriving DecidableEq

/-- Batches of a `threepf_batcher`. -/
inductive ThreepfKind where
  | backg | twopf_re | twopf_im | tensor_twopf | threepf_momentum | threepf_Nderiv | stats | ics | kt_ics
deriving DecidableEq

/-- Batches of a `zeta_threepf_batcher`. -/
inductive ZetaThreepfKind where
  | twopf | threepf | gauge_xfm1 | gauge_xfm2_123 | gauge_xfm2_213 | gauge_xfm2_312
deriving DecidableEq

instance : Fintype TwopfKind where
  elems := {.backg, .twopf, .tensor_twopf, .stats, .ics}
  complete k := by cases k <;> decide

instance : Fintype ZetaTwopfKind where
  elems := {.twopf, .gauge_xfm1}
  complete k := by cases k <;> decide

instance : Fintype ThreepfKind where
  elems := {.backg, .twopf_re, .twopf_im, .tensor_twopf, .threepf_momentum, .threepf_Nderiv, .stats, .ics,
    .kt_ics}
  complete k := by cases k <;> decide

instance : Fintype ZetaThreepfKind where
  elems := {.twopf, .threepf, .gauge_xfm1, .gauge_xfm2_123, .gauge_xfm2_213, .gauge_xfm2_312}
  complete k := by cases k <;> decide

instance : IntegrationKind TwopfKind := ⟨.stats⟩

instance : IntegrationKind ThreepfKind := ⟨.stats⟩

variable {K : Type*} (c : Setup) (agent : ComputeAgent K)

namespace TwopfBatcher

/-- `push_backg`. -/
def push_backg (time_serial : ℕ) (values : List K) : Request TwopfKind ZetaTwopfKind K where
  size := values.length
  required := 2 * c.Nfields
  enabled := true
  own := [(.backg, .background time_serial values)]
  zeta := []
  no_stats := by simp [stats]

/-- `push_twopf`, and `push_paired_twopf` for the paired batcher. -/
def push_twopf (time_serial k_serial : ℕ) (values backg : List K) : Request TwopfKind ZetaTwopfKind K where
  size := values.length
  required := 2 * c.Nfields * 2 * c.Nfields
  enabled := true
  own := [(.twopf, .sample time_serial k_serial values)]
  zeta := [(.twopf, .sample time_serial k_serial [(agent.zeta_twopf values backg).1]),
    (.gauge_xfm1, .sample time_serial k_serial (agent.zeta_twopf values backg).2)]
  no_stats := by simp [stats]

/-- `push_tensor_twopf`. -/
def push_tensor_twopf (time_serial k_serial : ℕ) (values : List K) : Request TwopfKind ZetaTwopfKind K where
  size := values.length
  required := 4
  enabled := true
  own := [(.tensor_twopf, .sample time_serial k_serial values)]
  zeta := []
  no_stats := by simp [stats]

/-- `push_ics`; the serial number of the configuration is the source of the item. -/
def push_ics (t_exit : K) (values : List K) : Request TwopfKind ZetaTwopfKind K where
  size := values.length
  required := 2 * c.Nfields
  enabled := c.collect_initial_conditions
  own := [(.ics, .initial_conditions t_exit values)]
  zeta := []
  no_stats := by simp [stats]

/-- A call of one of the `push_` functions. -/
inductive Push (K : Type*) where
  /-- `push_backg`. -/
  | backg (time_serial : ℕ) (values : List K)
  /-- `push_twopf`. -/
  | twopf (time_serial k_serial : ℕ) (values backg : List K)
  /-- `push_tensor_twopf`. -/
  | tensor_twopf (time_serial k_serial : ℕ) (values : List K)
  /-- `push_ics`. -/
  | ics (t_exit : K) (values : List K)

/-- What a call asks of the batcher. -/
def request : Push K → Request TwopfKind ZetaTwopfKind K
  | .backg time_serial values => push_backg c time_serial values
  | .twopf time_serial k_serial values backg => push_twopf c agent time_serial k_serial values backg
  | .tensor_twopf time_serial k_serial values => push_tensor_twopf time_serial k_serial values
  | .ics t_exit values => push_ics c t_exit values

/-- `storage` of a `twopf_batcher`, for one item of each batch. -/
def weight : TwopfKind → ℕ
  | .backg => c.item_size 1 (2 * c.Nfields)
  | .twopf => c.item_size 3 (2 * c.Nfields * 2 * c.Nfields)
  | .tensor_twopf => c.item_size 3 4
  | .stats => c.stats_size
  | .ics => c.item_size 1 (2 * c.Nfields)

/-- `storage` of a `zeta_twopf_batcher`, for one item of each batch. -/
def zeta_weight : ZetaTwopfKind → ℕ
  | .twopf => c.item_size 3 2
  | .gauge_xfm1 => c.item_size 3 (2 * c.Nfields)

/-- The batches that `flush` passes to the writers. -/
def kept : TwopfKind → Bool
  | .stats => c.collect_statistics
  | .ics => c.collect_initial_conditions
  | _ => true

/-- A new `twopf_batcher`, paired or not. -/
def create (is_paired : Bool) : IntegrationBatcher TwopfKind ZetaTwopfKind K where
  main := .create c.capacity (weight c) (kept c)
  paired := if is_paired then some (.create c.zeta_capacity (zeta_weight c) fun _ => true) else none
  num_integrations := 0
  failures := 0
  failed_serials := []
  refinements := 0

end TwopfBatcher

namespace ThreepfBatcher

/-- `push_backg`. -/
def push_backg (time_serial : ℕ) (values : List K) : Request ThreepfKind ZetaThreepfKind K where
  size := values.length
  required := 2 * c.Nfields
  enabled := true
  own := [(.backg, .background time_serial values)]
  zeta := []
  no_stats := by simp [stats]

/-- `push_twopf` with `twopf_type::real`, and `push_paired_twopf` for the paired batcher. -/
def push_twopf_real (time_serial k_serial : ℕ) (values backg : List K) :
    Request ThreepfKind ZetaThreepfKind K where
  size := values.length
  required := 2 * c.Nfields * 2 * c.Nfields
  enabled := true
  own := [(.twopf_re, .sample time_serial k_serial values)]
  zeta := [(.twopf, .sample time_serial k_serial [(agent.zeta_twopf values backg).1]),
    (.gauge_xfm1, .sample time_serial k_serial (agent.zeta_twopf values backg).2)]
  no_stats := by simp [stats]

/-- `push_twopf` with `twopf_type::imag`, which the paired batcher does not see. -/
def push_twopf_imag (time_serial k_serial : ℕ) (values : List K) :
    Request ThreepfKind ZetaThreepfKind K where
  size := values.length
  required := 2 * c.Nfields * 2 * c.Nfields
  enabled := true
  own := [(.twopf_im, .sample time_serial k_serial values)]
  zeta := []
  no_stats := by simp [stats]

/-- `push_threepf`, and `push_paired_threepf` for the paired batcher. -/
def push_threepf (s : ThreepfSample K) : Request ThreepfKind ZetaThreepfKind K where
  size := s.values.length
  required := 2 * c.Nfields * 2 * c.Nfields * 2 * c.Nfields
  enabled := true
  own := [(.threepf_momentum, .sample s.time_serial s.kserial s.values),
    (.threepf_Nderiv, .sample s.time_serial s.kserial (agent.Nderiv s))]
  zeta :=
    let (zeta_threepf, redbsp, xfm2_123, xfm2_213, xfm2_312) := agent.zeta_threepf s
    [(.threepf, .sample s.time_serial s.kserial [zeta_threepf, redbsp]),
      (.gauge_xfm2_123, .sample s.time_serial s.kserial xfm2_123),
      (.gauge_xfm2_213, .sample s.time_serial s.kserial xfm2_213),
      (.gauge_xfm2_312, .sample s.time_serial s.kserial xfm2_312)]
  no_stats := by simp [stats]

/-- `push_tensor_twopf`. -/
def push_tensor_twopf (time_serial k_serial : ℕ) (values : List K) :
    Request ThreepfKind ZetaThreepfKind K where
  size := values.length
  required := 4
  enabled := true
  own := [(.tensor_twopf, .sample time_serial k_serial values)]
  zeta := []
  no_stats := by simp [stats]

/-- `push_ics` and `push_kt_ics`, which differ in the batch they fill. -/
def push_initial_conditions (batch : ThreepfKind) (h : batch ≠ stats) (t_exit : K) (values : List K) :
    Request ThreepfKind ZetaThreepfKind K where
  size := values.length
  required := 2 * c.Nfields
  enabled := c.collect_initial_conditions
  own := [(batch, .initial_conditions t_exit values)]
  zeta := []
  no_stats := by simpa using h

/-- `push_ics`. -/
def push_ics (t_exit : K) (values : List K) : Request ThreepfKind ZetaThreepfKind K :=
  push_initial_conditions c .ics (by simp [stats]) t_exit values

/-- `push_kt_ics`. -/
def push_kt_ics (t_exit : K) (values : List K) : Request ThreepfKind ZetaThreepfKind K :=
  push_initial_conditions c .kt_ics (by simp [stats]) t_exit values

/-- A call of one of the `push_` functions. -/
inductive Push (K : Type*) where
  /-- `push_backg`. -/
  | backg (time_serial : ℕ) (values : List K)
  /-- `push_twopf` with `twopf_type::real`. -/
  | twopf_real (time_serial k_serial : ℕ) (values backg : List K)
  /-- `push_twopf` with `twopf_type::imag`. -/
  | twopf_imag (time_serial k_serial : ℕ) (values : List K)
  /-- `push_threepf`. -/
  | threepf (s : ThreepfSample K)
  /-- `push_tensor_twopf`. -/
  | tensor_twopf (time_serial k_serial : ℕ) (values : List K)
  /-- `push_ics`. -/
  | ics (t_exit : K) (values : List K)
  /-- `push_kt_ics`. -/
  | kt_ics (t_exit : K) (values : List K)

/-- What a call asks of the batcher. -/
def request : Push K → Request ThreepfKind ZetaThreepfKind K
  | .backg time_serial values => push_backg c time_serial values
  | .twopf_real time_serial k_serial values backg => push_twopf_real c agent time_serial k_serial values backg
  | .twopf_imag time_serial k_serial values => push_twopf_imag c time_serial k_serial values
  | .threepf s => push_threepf c agent s
  | .tensor_twopf time_serial k_serial values => push_tensor_twopf time_serial k_serial values
  | .ics t_exit values => push_ics c t_exit values
  | .kt_ics t_exit values => push_kt_ics c t_exit values

/-- `storage` of a `threepf_batcher`, for one item of each batch. -/
def weight : ThreepfKind → ℕ
  | .backg => c.item_size 1 (2 * c.Nfields)
  | .tensor_twopf => c.item_size 3 4
  | .twopf_re | .twopf_im => c.item_size 3 (2 * c.Nfields * 2 * c.Nfields)
  | .threepf_momentum | .threepf_Nderiv => c.item_size 3 (2 * c.Nfields * 2 * c.Nfields * 2 * c.Nfields)
  | .stats => c.stats_size
  | .ics | .kt_ics => c.item_size 1 (2 * c.Nfields)

/-- `storage` of a `zeta_threepf_batcher`, for one item of each batch. -/
def zeta_weight : ZetaThreepfKind → ℕ
  | .twopf => c.item_size 2 1
  | .threepf => c.item_size 3 3
  | .gauge_xfm1 => c.item_size 3 (2 * c.Nfields)
  | .gauge_xfm2_123 | .gauge_xfm2_213 | .gauge_xfm2_312 => c.item_size 3 (2 * c.Nfields * 2 * c.Nfields)

/-- The batches that `flush` passes to the writers. -/
def kept : ThreepfKind → Bool
  | .stats => c.collect_statistics
  | .ics | .kt_ics => c.collect_initial_conditions
  | _ => true

/-- A new `threepf_batcher`, paired or not. -/
def create (is_paired : Bool) : IntegrationBatcher ThreepfKind ZetaThreepfKind K where
  main := .create c.capacity (weight c) (kept c)
  paired := if is_paired then some (.create c.zeta_capacity (zeta_weight c) fun _ => true) else none
  num_integrations := 0
  failures := 0
  failed_serials := []
  refinements := 0

end ThreepfBatcher

end CppTransport.Runtime
