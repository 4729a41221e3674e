import CppTransport.Runtime.ZetaCompute

/-!
# Work lists of zeta three-point functions

A worker that processes a list of configurations hands the same buffers to the computation of every one. There are
three with a vector for each sample time, for the quadratic gauge transformations, and where the two-point function of
a leg is stored the first of them receives the linear transformation as well.

## The model

* The computations are those of `ZetaCompute`, for models whose gauge transformations have the sizes of their indices.
  A quadratic transformation is written into a vector that the caller has sized, and what a write beyond its end does
  is undefined; the sums then read what has been written.
* The rows are listed in the order in which they are pushed. Timers, messages and flushing are left out.

## What is proved

`independent_iff`: the configurations are processed independently exactly when no two-point function is stored with a
configuration that another one follows, unless there are no fields or no sample times. After such a configuration the
first buffer has the sizes of the linear transformation.
-/

namespace CppTransport.Runtime.ZetaWorkLists

variable {K : Type*} [Field K]

/-! ### Models and records -/

/-- The gauge transformations have a component for every index, or pair of indices. -/
structure SizedModel (K : Type*) extends Model K where
  compute_gauge_xfm_1_length : ∀ bg, (compute_gauge_xfm_1 bg).length = 2 * N_fields
  compute_gauge_xfm_2_length : ∀ bg ka kb kc t,
    (compute_gauge_xfm_2 bg ka kb kc t).length = 2 * N_fields * (2 * N_fields)

/-- A pipe, with the serial numbers of its sample times. -/
structure Pipe (K : Type*) extends Datapipe K where
  time_serials : List ℕ
  time_serials_length : time_serials.length = t_axis.length

structure threepf_kconfig_record (K : Type*) where
  config : ThreepfKconfig K
  is_twopf_k1_stored : Bool
  is_twopf_k2_stored : Bool
  is_twopf_k3_stored : Bool

/-- A row that is pushed to the batcher. -/
inductive Row (K : Type*) where
  | twopf (time_serial k_serial : ℕ) (zeta_twopf : K)
  | threepf (time_serial k_serial : ℕ) (zeta_threepf redbsp : K)
  | gauge_xfm1 (time_serial k_serial : ℕ) (gauge_xfm1 : List K)
  | gauge_xfm2_123 (time_serial k_serial : ℕ) (gauge_xfm2 : List K)
  | gauge_xfm2_213 (time_serial k_serial : ℕ) (gauge_xfm2 : List K)
  | gauge_xfm2_312 (time_serial k_serial : ℕ) (gauge_xfm2 : List K)

/-- The buffers for computed values. -/
structure Buffers (K : Type*) where
  zeta_npf : List K
  redbsp : List K
  gauge_xfm2_123 : List (List K)
  gauge_xfm2_213 : List (List K)
  gauge_xfm2_312 : List (List K)

/-! ### The handler -/

omit [Field K] in
/-- `compute_gauge_xfm_2` writes its components into a vector. -/
def write (components : List K) (v : List K) : Option (List K) :=
  if components.length ≤ v.length then some (components ++ v.drop components.length) else none

namespace SizedModel

variable (mdl : SizedModel K) (pipe : Pipe K)

/-- The handle for the compute delegate. -/
abbrev handle : Handle K := mdl.make_handle pipe.toDatapipe

/-- `zeta_timeseries_compute::threepf` -/
def threepf (h : Handle K) (k : ThreepfKconfig K) (b : Buffers K) : Option (Buffers K) := do
  let k1 := k.k1_comoving
  let k2 := k.k2_comoving
  let k3 := k.k3_comoving
  let times := List.range h.pipe.t_axis.length
  let gauge_xfm2_123 ← times.mapM fun j => write (mdl.gauge_xfm2 h k1 k2 k3 j) (b.gauge_xfm2_123.getD j [])
  let gauge_xfm2_213 ← times.mapM fun j => write (mdl.gauge_xfm2 h k2 k1 k3 j) (b.gauge_xfm2_213.getD j [])
  let gauge_xfm2_312 ← times.mapM fun j => write (mdl.gauge_xfm2 h k3 k1 k2 j) (b.gauge_xfm2_312.getD j [])
  let points := mdl.timeseries_threepf h k
  return ⟨points.map (·.zeta_threepf), points.map (·.redbsp), gauge_xfm2_123, gauge_xfm2_213, gauge_xfm2_312⟩

/-- `zeta_timeseries_compute::twopf`, whose list of gauge transformations is the first buffer. -/
def twopf (h : Handle K) (k_serial : ℕ) (b : Buffers K) : Buffers K :=
  { b with
    zeta_npf := mdl.timeseries_twopf h k_serial
    gauge_xfm2_123 := h.dN }

/-- The part of the loop body for one leg. -/
def leg (h : Handle K) (stored : Bool) (k_serial : ℕ) (b : Buffers K) : Buffers K × List (Row K) :=
  if stored then
    let b := mdl.twopf h k_serial b
    (b, (pipe.time_serials.zipIdx).flatMap fun (serial, j) =>
      [.twopf serial k_serial (entry b.zeta_npf j), .gauge_xfm1 serial k_serial (b.gauge_xfm2_123.getD j [])])
  else (b, [])

/-- What is pushed for the configuration itself. -/
def shape_rows (k_serial : ℕ) (b : Buffers K) : List (Row K) :=
  (pipe.time_serials.zipIdx).flatMap fun (serial, j) =>
    [.threepf serial k_serial (entry b.zeta_npf j) (entry b.redbsp j),
      .gauge_xfm2_123 serial k_serial (b.gauge_xfm2_123.getD j []),
      .gauge_xfm2_213 serial k_serial (b.gauge_xfm2_213.getD j []),
      .gauge_xfm2_312 serial k_serial (b.gauge_xfm2_312.getD j [])]

/-- The body of the loop over the work list. -/
def process (h : Handle K) (b : Buffers K) (rec : threepf_kconfig_record K) : Option (Buffers K × List (Row K)) := do
  let k := rec.config
  let b ← mdl.threepf h k b
  let rows := shape_rows pipe k.serial b
  let (b, rows_k1) := mdl.leg pipe h rec.is_twopf_k1_stored k.k1_serial b
  let (b, rows_k2) := mdl.leg pipe h rec.is_twopf_k2_stored k.k2_serial b
  let (b, rows_k3) := mdl.leg pipe h rec.is_twopf_k3_stored k.k3_serial b
  return (b, rows ++ rows_k1 ++ rows_k2 ++ rows_k3)

/-- The loop over the work list. -/
def loop (h : Handle K) : Buffers K → List (threepf_kconfig_record K) → Option (List (Row K))
  | _, [] => some []
  | b, rec :: list => do
    let (b, rows) ← mdl.process pipe h b rec
    return rows ++ (← loop h b list)

/-- The buffers when the loop begins. -/
def buffers : Buffers K :=
  let size := 2 * mdl.N_fields * (2 * mdl.N_fields)
  { zeta_npf := []
    redbsp := []
    gauge_xfm2_123 := List.replicate pipe.time_serials.length (List.replicate size 0)
    gauge_xfm2_213 := List.replicate pipe.time_serials.length (List.replicate size 0)
    gauge_xfm2_312 := List.replicate pipe.time_serials.length (List.replicate size 0) }

/-- `slave_work_handler::postintegration_handler`: the rows that are pushed, if no write goes beyond the end of a
vector. -/
def postintegration_handler (list : List (threepf_kconfig_record K)) : Option (List (Row K)) :=
  mdl.loop pipe (mdl.handle pipe) (mdl.buffers pipe) list

/-- The buffers that are handed to the computation for one configuration after the other. -/
def buffers_on_entry (h : Handle K) : Buffers K → List (threepf_kconfig_record K) → List (Buffers K)
  | _, [] => []
  | b, rec :: list =>
    b :: match mdl.process pipe h b rec with
      | some (b, _) => buffers_on_entry h b list
      | none => []

/-! ### Sizes -/

omit [Field K] in
/-- A vector of one size for each sample time. -/
def Filled (times size : ℕ) (l : List (List K)) : Prop := l.length = times ∧ ∀ v ∈ l, v.length = size

/-- **The size that the quadratic transformations need**, in every buffer. -/
structure Sized (b : Buffers K) : Prop where
  gauge_xfm2_123 : Filled pipe.t_axis.length (2 * mdl.N_fields * (2 * mdl.N_fields)) b.gauge_xfm2_123
  gauge_xfm2_213 : Filled pipe.t_axis.length (2 * mdl.N_fields * (2 * mdl.N_fields)) b.gauge_xfm2_213
  gauge_xfm2_312 : Filled pipe.t_axis.length (2 * mdl.N_fields * (2 * mdl.N_fields)) b.gauge_xfm2_312

/-- The sizes that are declared for the rows. -/
def Declared : Row K → Prop
  | .twopf _ _ _ => True
  | .threepf _ _ _ _ => True
  | .gauge_xfm1 _ _ v => v.length = 2 * mdl.N_fields
  | .gauge_xfm2_123 _ _ v => v.length = 2 * mdl.N_fields * (2 * mdl.N_fields)
  | .gauge_xfm2_213 _ _ v => v.length = 2 * mdl.N_fields * (2 * mdl.N_fields)
  | .gauge_xfm2_312 _ _ v => v.length = 2 * mdl.N_fields * (2 * mdl.N_fields)

section

omit [Field K]

variable {times size : ℕ} {l : List (List K)}

theorem Filled.length_getD (h : Filled times size l) {j : ℕ} (hj : j < times) : (l.getD j []).length = size := by
  have hlt : j < l.length := h.1 ▸ hj
  rw [List.getD_eq_getElem _ _ hlt]
  exact h.2 _ (List.getElem_mem hlt)

theorem filled_map_range {f : ℕ → List K} (hf : ∀ j, (f j).length = size) :
    Filled times size ((List.range times).map f) := by
  refine ⟨by rw [List.length_map, List.length_range], fun v hv => ?_⟩
  obtain ⟨j, -, rfl⟩ := List.mem_map.mp hv
  exact hf j

/-- Vectors of the right size are overwritten. -/
theorem mapM_write (h : Filled times size l) {f : ℕ → List K} (hf : ∀ j, (f j).length = size) :
    (List.range times).mapM (fun j => write (f j) (l.getD j [])) = some ((List.range times).map f) := by
  have hwrite : ∀ j ∈ List.range times, write (f j) (l.getD j []) = some (f j) := by
    intro j hj
    have hlength := h.length_getD (List.mem_range.mp hj)
    rw [write, if_pos (by rw [hf, hlength]), List.drop_eq_nil_of_le (by rw [hf, hlength]), List.append_nil]
  generalize List.range times = js at hwrite
  induction js with
  | nil => rfl
  | cons j js ih =>
    rw [List.mapM_cons, hwrite j List.mem_cons_self, ih fun i hi => hwrite i (List.mem_cons_of_mem _ hi)]
    rfl

end

theorem sized_buffers : mdl.Sized pipe (mdl.buffers pipe) := by
  have hfilled : Filled pipe.t_axis.length (2 * mdl.N_fields * (2 * mdl.N_fields))
      (List.replicate pipe.time_serials.length (List.replicate (2 * mdl.N_fields * (2 * mdl.N_fields)) (0 : K))) := by
    refine ⟨by rw [List.length_replicate, pipe.time_serials_length], fun v hv => ?_⟩
    rw [List.eq_of_mem_replicate hv, List.length_replicate]
  exact ⟨hfilled, hfilled, hfilled⟩

/-- The linear transformation, at every sample time. -/
theorem filled_dN : Filled pipe.t_axis.length (2 * mdl.N_fields) (mdl.handle pipe).dN := by
  have hlength : ∀ n : ℕ, (n.fold (fun i _ background => background.mapIdx fun j b =>
      b ++ [entry (pipe.background_line i) j]) (List.replicate pipe.t_axis.length [])).length = pipe.t_axis.length := by
    intro n
    induction n with
    | zero => rw [Nat.fold_zero, List.length_replicate]
    | succ n ih => rw [Nat.fold_succ, List.length_mapIdx, ih]
  refine ⟨(List.length_map _).trans (hlength _), fun v hv => ?_⟩
  obtain ⟨bg, -, rfl⟩ := List.mem_map.mp hv
  exact mdl.compute_gauge_xfm_1_length bg

/-! ### One configuration -/

/-- What the computation leaves in the buffers if they have the right sizes. -/
def computed (h : Handle K) (k : ThreepfKconfig K) : Buffers K :=
  let times := List.range h.pipe.t_axis.length
  let points := mdl.timeseries_threepf h k
  { zeta_npf := points.map (·.zeta_threepf)
    redbsp := points.map (·.redbsp)
    gauge_xfm2_123 := times.map (mdl.gauge_xfm2 h k.k1_comoving k.k2_comoving k.k3_comoving)
    gauge_xfm2_213 := times.map (mdl.gauge_xfm2 h k.k2_comoving k.k1_comoving k.k3_comoving)
    gauge_xfm2_312 := times.map (mdl.gauge_xfm2 h k.k3_comoving k.k1_comoving k.k2_comoving) }

variable {b : Buffers K}

theorem sized_computed (k : ThreepfKconfig K) : mdl.Sized pipe (mdl.computed (mdl.handle pipe) k) :=
  ⟨filled_map_range fun _ => mdl.compute_gauge_xfm_2_length .., filled_map_range fun _ =>
    mdl.compute_gauge_xfm_2_length .., filled_map_range fun _ => mdl.compute_gauge_xfm_2_length ..⟩

theorem threepf_of_sized (hb : mdl.Sized pipe b) (k : ThreepfKconfig K) :
    mdl.threepf (mdl.handle pipe) k b = some (mdl.computed (mdl.handle pipe) k) := by
  have h123 := mapM_write hb.gauge_xfm2_123 (f := mdl.gauge_xfm2 (mdl.handle pipe) k.k1_comoving
    k.k2_comoving k.k3_comoving) fun _ => mdl.compute_gauge_xfm_2_length ..
  have h213 := mapM_write hb.gauge_xfm2_213 (f := mdl.gauge_xfm2 (mdl.handle pipe) k.k2_comoving
    k.k1_comoving k.k3_comoving) fun _ => mdl.compute_gauge_xfm_2_length ..
  have h312 := mapM_write hb.gauge_xfm2_312 (f := mdl.gauge_xfm2 (mdl.handle pipe) k.k3_comoving
    k.k1_comoving k.k2_comoving) fun _ => mdl.compute_gauge_xfm_2_length ..
  have htimes : (mdl.handle pipe).pipe.t_axis = pipe.t_axis := rfl
  simp only [threepf, htimes, h123, h213, h312]
  rfl

/-- The computation does not depend on what the buffers hold. -/
theorem process_congr (hb : mdl.Sized pipe b) {b' : Buffers K} (hb' : mdl.Sized pipe b')
    (rec : threepf_kconfig_record K) :
    mdl.process pipe (mdl.handle pipe) b rec =
      mdl.process pipe (mdl.handle pipe) b' rec := by
  rw [process, process, mdl.threepf_of_sized pipe hb, mdl.threepf_of_sized pipe hb']

omit [Field K] in
/-- Rows for every sample time. -/
theorem forall_mem_flatMap_zipIdx {f : ℕ × ℕ → List (Row K)}
    (hf : ∀ serial, ∀ j < pipe.t_axis.length, ∀ row ∈ f (serial, j), mdl.Declared row) :
    ∀ row ∈ pipe.time_serials.zipIdx.flatMap f, mdl.Declared row := by
  intro row hrow
  obtain ⟨⟨serial, j⟩, hmem, hrow⟩ := List.mem_flatMap.mp hrow
  have hj : j < pipe.time_serials.length := (List.mem_zipIdx' hmem).1
  exact hf serial j (pipe.time_serials_length ▸ hj) row hrow

/-- A leg: its rows, and what becomes of the buffers for gauge transformations. -/
theorem leg_spec (stored : Bool) (k_serial : ℕ) (b : Buffers K) :
    (∀ row ∈ (mdl.leg pipe (mdl.handle pipe) stored k_serial b).2, mdl.Declared row) ∧
      (mdl.leg pipe (mdl.handle pipe) stored k_serial b).1.gauge_xfm2_123 =
        (if stored then (mdl.handle pipe).dN else b.gauge_xfm2_123) ∧
      (mdl.leg pipe (mdl.handle pipe) stored k_serial b).1.gauge_xfm2_213 = b.gauge_xfm2_213 ∧
      (mdl.leg pipe (mdl.handle pipe) stored k_serial b).1.gauge_xfm2_312 = b.gauge_xfm2_312 := by
  cases stored with
  | false => exact ⟨fun row hrow => absurd hrow List.not_mem_nil, rfl, rfl, rfl⟩
  | true =>
    refine ⟨mdl.forall_mem_flatMap_zipIdx pipe fun serial j hj row hrow => ?_, rfl, rfl, rfl⟩
    rcases List.mem_cons.mp hrow with rfl | hrow
    · trivial
    · rw [List.mem_singleton.mp hrow]
      exact (mdl.filled_dN pipe).length_getD hj

end SizedModel

/-- The two-point function of some leg is stored. -/
def threepf_kconfig_record.Stores (rec : threepf_kconfig_record K) : Prop :=
  rec.is_twopf_k1_stored ∨ rec.is_twopf_k2_stored ∨ rec.is_twopf_k3_stored

namespace SizedModel

variable (mdl : SizedModel K) (pipe : Pipe K) {b : Buffers K}

/-- **One configuration**, with buffers of the right sizes: its rows have the declared sizes, and the first buffer has
the linear transformation afterwards if some two-point function is stored. -/
theorem process_of_sized (hb : mdl.Sized pipe b) (rec : threepf_kconfig_record K) :
    ∃ b' rows, mdl.process pipe (mdl.handle pipe) b rec = some (b', rows) ∧
      (∀ row ∈ rows, mdl.Declared row) ∧ (¬rec.Stores → mdl.Sized pipe b') ∧
      (rec.Stores → b'.gauge_xfm2_123 = (mdl.handle pipe).dN) ∧
      Filled pipe.t_axis.length (2 * mdl.N_fields * (2 * mdl.N_fields)) b'.gauge_xfm2_213 ∧
      Filled pipe.t_axis.length (2 * mdl.N_fields * (2 * mdl.N_fields)) b'.gauge_xfm2_312 := by
  have hsized := mdl.sized_computed pipe rec.config
  have hshape : ∀ row ∈ shape_rows pipe rec.config.serial (mdl.computed (mdl.handle pipe) rec.config),
      mdl.Declared row := by
    refine mdl.forall_mem_flatMap_zipIdx pipe fun serial j hj row hrow => ?_
    simp only [List.mem_cons, List.not_mem_nil, or_false] at hrow
    obtain rfl | rfl | rfl | rfl := hrow
    · trivial
    · exact hsized.gauge_xfm2_123.length_getD hj
    · exact hsized.gauge_xfm2_213.length_getD hj
    · exact hsized.gauge_xfm2_312.length_getD hj
  obtain ⟨l1, hl1⟩ : ∃ l1, mdl.leg pipe (mdl.handle pipe) rec.is_twopf_k1_stored rec.config.k1_serial
    (mdl.computed (mdl.handle pipe) rec.config) = l1 := ⟨_, rfl⟩
  obtain ⟨l2, hl2⟩ : ∃ l2, mdl.leg pipe (mdl.handle pipe) rec.is_twopf_k2_stored rec.config.k2_serial l1.1 = l2 :=
    ⟨_, rfl⟩
  obtain ⟨l3, hl3⟩ : ∃ l3, mdl.leg pipe (mdl.handle pipe) rec.is_twopf_k3_stored rec.config.k3_serial l2.1 = l3 :=
    ⟨_, rfl⟩
  have hprocess : mdl.process pipe (mdl.handle pipe) b rec = some (l3.1,
      shape_rows pipe rec.config.serial (mdl.computed (mdl.handle pipe) rec.config) ++ l1.2 ++ l2.2 ++ l3.2) := by
    rw [process, mdl.threepf_of_sized pipe hb, ← hl3, ← hl2, ← hl1]
    rfl
  obtain ⟨hrows₁, h123₁, h213₁, h312₁⟩ := hl1 ▸ mdl.leg_spec pipe rec.is_twopf_k1_stored rec.config.k1_serial
    (mdl.computed (mdl.handle pipe) rec.config)
  obtain ⟨hrows₂, h123₂, h213₂, h312₂⟩ := hl2 ▸ mdl.leg_spec pipe rec.is_twopf_k2_stored rec.config.k2_serial l1.1
  obtain ⟨hrows₃, h123₃, h213₃, h312₃⟩ := hl3 ▸ mdl.leg_spec pipe rec.is_twopf_k3_stored rec.config.k3_serial l2.1
  have h213 := h213₃.trans (h213₂.trans h213₁)
  have h312 := h312₃.trans (h312₂.trans h312₁)
  refine ⟨_, _, hprocess, ?_, ?_, ?_, h213 ▸ hsized.gauge_xfm2_213, h312 ▸ hsized.gauge_xfm2_312⟩
  · intro row hrow
    simp only [List.mem_append] at hrow
    rcases hrow with ((hrow | hrow) | hrow) | hrow
    · exact hshape row hrow
    · exact hrows₁ row hrow
    · exact hrows₂ row hrow
    · exact hrows₃ row hrow
  · intro hno
    obtain ⟨hno₁, hno₂, hno₃⟩ : rec.is_twopf_k1_stored = false ∧ rec.is_twopf_k2_stored = false ∧
        rec.is_twopf_k3_stored = false := by
      simpa [threepf_kconfig_record.Stores] using hno
    rw [hno₁, if_neg Bool.false_ne_true] at h123₁
    rw [hno₂, if_neg Bool.false_ne_true, h123₁] at h123₂
    rw [hno₃, if_neg Bool.false_ne_true, h123₂] at h123₃
    exact ⟨h123₃ ▸ hsized.gauge_xfm2_123, h213 ▸ hsized.gauge_xfm2_213, h312 ▸ hsized.gauge_xfm2_312⟩
  · rintro (hstored | hstored | hstored)
    · rw [hstored, if_pos rfl] at h123₁
      rw [h123₃, h123₂, h123₁, ite_self, ite_self]
    · rw [hstored, if_pos rfl] at h123₂
      rw [h123₃, h123₂, ite_self]
    · rw [hstored, if_pos rfl] at h123₃
      exact h123₃

/-! ### Work lists -/

/-- **The configurations of a work list are processed independently**: the buffers have the right sizes on every entry,
the rows are those of every configuration alone, and these have the declared sizes. -/
structure Independent (list : List (threepf_kconfig_record K)) : Prop where
  entry : ∀ b ∈ mdl.buffers_on_entry pipe (mdl.handle pipe) (mdl.buffers pipe) list, mdl.Sized pipe b
  rows : ∃ rows alone, mdl.postintegration_handler pipe list = some rows ∧
    list.mapM (fun rec => mdl.postintegration_handler pipe [rec]) = some alone ∧ rows = alone.flatten ∧
    ∀ row ∈ rows, mdl.Declared row

/-- No configuration spoils the buffers for one that follows. -/
def Kept (list : List (threepf_kconfig_record K)) : Prop :=
  mdl.N_fields = 0 ∨ pipe.t_axis = [] ∨ ∀ rec ∈ list.dropLast, ¬rec.Stores

/-- The sizes of the two transformations agree only where there is nothing to transform. -/
theorem filled_dN_iff : Filled pipe.t_axis.length (2 * mdl.N_fields * (2 * mdl.N_fields)) (mdl.handle pipe).dN ↔
    mdl.N_fields = 0 ∨ pipe.t_axis = [] := by
  have hdN := mdl.filled_dN pipe
  constructor
  · intro h
    rcases htimes : pipe.t_axis with _ | ⟨t, ts⟩
    · exact .inr rfl
    · have hpos : 0 < pipe.t_axis.length := by rw [htimes]; exact Nat.succ_pos _
      have hsize := (hdN.length_getD hpos).symm.trans (h.length_getD hpos)
      refine .inl ?_
      by_contra hne
      have hlt : 2 * mdl.N_fields * 1 < 2 * mdl.N_fields * (2 * mdl.N_fields) :=
        Nat.mul_lt_mul_of_pos_left (by omega) (by omega)
      omega
  · rintro (hzero | hnil)
    · rw [hzero] at hdN ⊢
      exact hdN
    · rw [hnil] at hdN ⊢
      refine ⟨hdN.1, fun v hv => ?_⟩
      rw [List.length_eq_zero_iff.mp hdN.1] at hv
      exact absurd hv List.not_mem_nil

/-- The run, from buffers of the right sizes. -/
theorem loop_of_kept (hb : mdl.Sized pipe b) {list : List (threepf_kconfig_record K)} (hkept : mdl.Kept pipe list) :
    (∀ b' ∈ mdl.buffers_on_entry pipe (mdl.handle pipe) b list, mdl.Sized pipe b') ∧
      ∃ rows alone, mdl.loop pipe (mdl.handle pipe) b list = some rows ∧
        list.mapM (fun rec => mdl.postintegration_handler pipe [rec]) = some alone ∧ rows = alone.flatten ∧
        ∀ row ∈ rows, mdl.Declared row := by
  induction list generalizing b with
  | nil => exact ⟨fun _ h => absurd h List.not_mem_nil, [], [], rfl, rfl, rfl, fun _ h => absurd h List.not_mem_nil⟩
  | cons rec list ih =>
    obtain ⟨b', rows, hprocess, hdeclared, hsized, hstored, h213, h312⟩ := mdl.process_of_sized pipe hb rec
    have hsingle : mdl.postintegration_handler pipe [rec] = some (rows ++ []) := by
      rw [postintegration_handler, loop, mdl.process_congr pipe (mdl.sized_buffers pipe) hb, hprocess]
      rfl
    -- the buffers are right for the next configuration, if there is one
    have hnext : list ≠ [] → mdl.Sized pipe b' := by
      intro hne
      by_cases hstores : rec.Stores
      · have hnothing : mdl.N_fields = 0 ∨ pipe.t_axis = [] := by
          rcases hkept with hzero | hnil | hno
          · exact .inl hzero
          · exact .inr hnil
          · rw [List.dropLast_cons_of_ne_nil hne] at hno
            exact absurd hstores (hno rec List.mem_cons_self)
        exact ⟨hstored hstores ▸ (mdl.filled_dN_iff pipe).mpr hnothing, h213, h312⟩
      · exact hsized hstores
    rcases list with _ | ⟨rec', list⟩
    · refine ⟨?_, rows ++ [], [rows ++ []], ?_, ?_, ?_, ?_⟩
      · rintro b'' hb''
        simp only [buffers_on_entry, hprocess, List.mem_singleton] at hb''
        exact hb'' ▸ hb
      · rw [loop, hprocess]
        rfl
      · rw [List.mapM_cons, hsingle]
        rfl
      · simp
      · simpa using hdeclared
    · have hkept' : mdl.Kept pipe (rec' :: list) := by
        refine hkept.imp_right (Or.imp_right fun hno r hr => hno r ?_)
        rw [List.dropLast_cons_of_ne_nil (List.cons_ne_nil _ _)]
        exact List.mem_cons_of_mem _ hr
      obtain ⟨hentry, rows', alone, hloop, halone, heq, hdeclared'⟩ := ih (hnext (List.cons_ne_nil _ _)) hkept'
      refine ⟨?_, rows ++ rows', (rows ++ []) :: alone, ?_, ?_, ?_, ?_⟩
      · intro b'' hb''
        rw [buffers_on_entry, hprocess, List.mem_cons] at hb''
        rcases hb'' with rfl | hb''
        · exact hb
        · exact hentry b'' hb''
      · rw [loop, hprocess]
        simp [hloop]
      · rw [List.mapM_cons, hsingle, halone]
        rfl
      · rw [heq, List.append_nil, List.flatten_cons]
      · intro row hrow
        rcases List.mem_append.mp hrow with hrow | hrow
        · exact hdeclared row hrow
        · exact hdeclared' row hrow

/-- The converse: a configuration that spoils the buffers is seen on the next entry. -/
theorem kept_of_entry (hb : mdl.Sized pipe b) {list : List (threepf_kconfig_record K)}
    (h : ∀ b' ∈ mdl.buffers_on_entry pipe (mdl.handle pipe) b list, mdl.Sized pipe b') : mdl.Kept pipe list := by
  induction list generalizing b with
  | nil => exact .inr (.inr fun _ h => absurd h List.not_mem_nil)
  | cons rec list ih =>
    rcases list with _ | ⟨rec', list⟩
    · exact .inr (.inr fun _ h => absurd h List.not_mem_nil)
    · obtain ⟨b', rows, hprocess, -, -, hstored, -⟩ := mdl.process_of_sized pipe hb rec
      rw [buffers_on_entry, hprocess] at h
      have hb' : mdl.Sized pipe b' := h b' (List.mem_cons_of_mem _ List.mem_cons_self)
      by_cases hstores : rec.Stores
      · rcases (mdl.filled_dN_iff pipe).mp (hstored hstores ▸ hb'.gauge_xfm2_123) with hzero | hnil
        · exact .inl hzero
        · exact .inr (.inl hnil)
      · refine (ih hb' fun b'' hb'' => h b'' (List.mem_cons_of_mem _ hb'')).imp_right (Or.imp_right fun hno r hr => ?_)
        rw [List.dropLast_cons_of_ne_nil (List.cons_ne_nil _ _)] at hr
        rcases List.mem_cons.mp hr with rfl | hr
        · exact hstores
        · exact hno r hr

/-- **Zeta three-point work lists**: the configurations are processed independently exactly when no two-point function
is stored with a configuration that another one follows, or there is nothing to transform. -/
theorem independent_iff (list : List (threepf_kconfig_record K)) :
    mdl.Independent pipe list ↔
      mdl.N_fields = 0 ∨ pipe.t_axis = [] ∨ ∀ rec ∈ list.dropLast, ¬rec.Stores := by
  constructor
  · intro h
    exact mdl.kept_of_entry pipe (mdl.sized_buffers pipe) h.entry
  · intro h
    obtain ⟨hentry, hrows⟩ := mdl.loop_of_kept pipe (mdl.sized_buffers pipe) h
    exact ⟨hentry, hrows⟩

end SizedModel

/-- A model with one field. -/
def oneFieldSized : SizedModel ℚ where
  toModel := oneField
  compute_gauge_xfm_1_length _ := rfl
  compute_gauge_xfm_2_length _ _ _ _ _ := rfl

/-- The first leg of the first configuration is stored: then the first buffer is too short for the second. -/
theorem second_configuration_dependent :
    ¬∀ (mdl : SizedModel ℚ) (pipe : Pipe ℚ) (list : List (threepf_kconfig_record ℚ)), mdl.Independent pipe list := by
  intro h
  have hentry := (h oneFieldSized ⟨onePipe, [1], rfl⟩
    [⟨equilateral, true, false, false⟩, ⟨equilateral, false, false, false⟩]).rows
  obtain ⟨rows, -, hhandler, -⟩ := hentry
  cases hhandler

end CppTransport.Runtime.ZetaWorkLists
