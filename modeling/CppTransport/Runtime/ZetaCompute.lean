import CppTransport.Library.Loops
import Mathlib.Algebra.Field.Basic
import Mathlib.Data.List.GetD
import Mathlib.Tactic.Ring

/-!
# The zeta three-point function, paired and unpaired

The correlation functions of ζ are computed in two places. When a ζ task is
paired to an integration, the batcher that receives a sample of the momentum
three-point function pushes the ζ products of that sample to the paired batcher.
Otherwise the ζ task reads back the time lines which the integration stored, with
the three-point function of time derivatives, and works component by component
on whole lines.

## The model

* numbers are the elements of a field; the functions of the model (gauge
  transformations, tensors `B` and `C`, index flattening) are arbitrary, except
  that `flatten` of three indices is injective and within the size of the vector;
* vectors are lists, and reading beyond the end, which does not happen, gives 0;
* `push_threepf`: the batcher, with the `postprocess_delegate` it calls;
* `threepf`: `zeta_timeseries_compute`, over a pipe of stored time lines.

## What is proved

* `entry_Nderiv_values`: the stored time-derivative function is the momentum
  function plus the shift of its index positions;
* `paired_eq_unpaired_iff`: the paired products at a sample are the unpaired ones
  if and only if the shifts, contracted with the linear gauge transformation,
  add up to zero there: the paired path contracts the momentum function itself.
-/

namespace CppTransport.Runtime

open Library

variable {K : Type*} [Field K]

/-- An entry of a vector. -/
def entry (v : List K) (i : ℕ) : K := v.getD i 0

/-- What both paths ask of the model. -/
structure Model (K : Type*) where
  /-- Number of fields. -/
  N_fields : ℕ
  /-- `flatten` of two phase-space indices. -/
  flatten2 : ℕ → ℕ → ℕ
  /-- `flatten` of three phase-space indices. -/
  flatten3 : ℕ → ℕ → ℕ → ℕ
  /-- `fields_flatten` of three field indices. -/
  fields_flatten : ℕ → ℕ → ℕ → ℕ
  /-- The index is that of a momentum. -/
  is_momentum : ℕ → Bool
  /-- The momentum of the same species. -/
  momentum : ℕ → ℕ
  /-- The species of an index. -/
  species : ℕ → ℕ
  /-- Linear gauge transformation at a background. -/
  compute_gauge_xfm_1 : List K → List K
  /-- Quadratic gauge transformation at a background, for three wavenumbers and a time. -/
  compute_gauge_xfm_2 : List K → K → K → K → K → List K
  /-- The tensor `B` at a background, for three wavenumbers and a time. -/
  B : List K → K → K → K → K → List K
  /-- The tensor `C` at a background, for three wavenumbers and a time. -/
  C : List K → K → K → K → K → List K
  /-- Three indices are flattened to a place in the vector. -/
  flatten3_lt : ∀ l < 2 * N_fields, ∀ m < 2 * N_fields, ∀ n < 2 * N_fields,
    flatten3 l m n < 2 * N_fields * (2 * N_fields) * (2 * N_fields)
  /-- No two triples of indices share a place. -/
  flatten3_inj : ∀ l < 2 * N_fields, ∀ m < 2 * N_fields, ∀ n < 2 * N_fields,
    ∀ l' < 2 * N_fields, ∀ m' < 2 * N_fields, ∀ n' < 2 * N_fields,
    flatten3 l m n = flatten3 l' m' n' → l = l' ∧ m = m' ∧ n = n'

/-- `threepf_kconfig`: serial numbers and comoving wavenumbers of a configuration and its legs. -/
structure ThreepfKconfig (K : Type*) where
  /-- Serial number of the configuration. -/
  serial : ℕ
  /-- Serial number of the first leg. -/
  k1_serial : ℕ
  /-- Serial number of the second leg. -/
  k2_serial : ℕ
  /-- Serial number of the third leg. -/
  k3_serial : ℕ
  /-- Wavenumber of the first leg. -/
  k1_comoving : K
  /-- Wavenumber of the second leg. -/
  k2_comoving : K
  /-- Wavenumber of the third leg. -/
  k3_comoving : K

/-- Real and imaginary parts of the two-point function of one leg. -/
structure Twopf (K : Type*) where
  /-- Real parts. -/
  re : List K
  /-- Imaginary parts. -/
  im : List K

/-- What is known of a configuration at a sample time: the arguments of `push_threepf`. -/
structure Sample (K : Type*) where
  /-- Serial number of the sample time. -/
  time_serial : ℕ
  /-- The sample time. -/
  t : K
  /-- The momentum three-point function. -/
  values : List K
  /-- Two-point function of the first leg. -/
  k1 : Twopf K
  /-- Two-point function of the second leg. -/
  k2 : Twopf K
  /-- Two-point function of the third leg. -/
  k3 : Twopf K
  /-- The background. -/
  bg : List K

/-- The ζ products at one sample time. -/
structure ZetaPoint (K : Type*) where
  /-- The three-point function. -/
  zeta_threepf : K
  /-- The reduced bispectrum. -/
  redbsp : K
  /-- Quadratic gauge transformation for legs 1, 2, 3. -/
  gauge_xfm2_123 : List K
  /-- Quadratic gauge transformation for legs 2, 1, 3. -/
  gauge_xfm2_213 : List K
  /-- Quadratic gauge transformation for legs 3, 1, 2. -/
  gauge_xfm2_312 : List K

/-! ### `postprocess_delegate` -/

namespace Model

variable (mdl : Model K)

/-- `postprocess_delegate::zeta_twopf`, the gauge transformation being precomputed. -/
def zeta_twopf (twopf gauge_xfm : List K) : K :=
  (2 * mdl.N_fields).fold (fun m _ zeta => (2 * mdl.N_fields).fold (fun n _ zeta =>
    zeta + entry gauge_xfm m * entry gauge_xfm n * entry twopf (mdl.flatten2 m n)) zeta) 0

/-- `postprocess_delegate::zeta_threepf`. -/
def zeta_threepf (kconfig : ThreepfKconfig K) (t : K) (threepf : List K) (tpf1 tpf2 tpf3 : Twopf K)
    (bg : List K) : ZetaPoint K :=
  let k1 := kconfig.k1_comoving
  let k2 := kconfig.k2_comoving
  let k3 := kconfig.k3_comoving
  let k1k2 := k3 * k3 / (k1 * k2)
  let k1k3 := k2 * k2 / (k1 * k3)
  let k2k3 := k1 * k1 / (k2 * k3)
  let gauge_xfm1 := mdl.compute_gauge_xfm_1 bg
  let gauge_xfm2_123 := mdl.compute_gauge_xfm_2 bg k1 k2 k3 t
  let gauge_xfm2_213 := mdl.compute_gauge_xfm_2 bg k2 k1 k3 t
  let gauge_xfm2_312 := mdl.compute_gauge_xfm_2 bg k3 k1 k2 t
  let linear := (2 * mdl.N_fields).fold (fun l _ zeta => (2 * mdl.N_fields).fold (fun m _ zeta =>
    (2 * mdl.N_fields).fold (fun n _ zeta =>
      zeta + entry gauge_xfm1 l * entry gauge_xfm1 m * entry gauge_xfm1 n
        * entry threepf (mdl.flatten3 l m n)) zeta) zeta) 0
  let zeta := (2 * mdl.N_fields).fold (fun l _ zeta => (2 * mdl.N_fields).fold (fun m _ zeta =>
    (2 * mdl.N_fields).fold (fun p _ zeta => (2 * mdl.N_fields).fold (fun q _ zeta =>
      let lm := mdl.flatten2 l m
      let lp := mdl.flatten2 l p
      let mq := mdl.flatten2 m q
      let component1 := entry gauge_xfm2_123 lm * entry gauge_xfm1 p * entry gauge_xfm1 q * k2k3
        * (entry tpf2.re lp * entry tpf3.re mq - entry tpf2.im lp * entry tpf3.im mq)
      let component2 := entry gauge_xfm2_213 lm * entry gauge_xfm1 p * entry gauge_xfm1 q * k1k3
        * (entry tpf1.re lp * entry tpf3.re mq - entry tpf1.im lp * entry tpf3.im mq)
      let component3 := entry gauge_xfm2_312 lm * entry gauge_xfm1 p * entry gauge_xfm1 q * k1k2
        * (entry tpf1.re lp * entry tpf2.re mq - entry tpf1.im lp * entry tpf2.im mq)
      zeta + component1 + component2 + component3) zeta) zeta) zeta) linear
  let z_tpf_k1 := mdl.zeta_twopf tpf1.re gauge_xfm1
  let z_tpf_k2 := mdl.zeta_twopf tpf2.re gauge_xfm1
  let z_tpf_k3 := mdl.zeta_twopf tpf3.re gauge_xfm1
  let form_factor := 6 / 5
    * (z_tpf_k1 * z_tpf_k2 * k1k2 + z_tpf_k1 * z_tpf_k3 * k1k3 + z_tpf_k2 * z_tpf_k3 * k2k3)
  { zeta_threepf := zeta
    redbsp := zeta / form_factor
    gauge_xfm2_123 := gauge_xfm2_123
    gauge_xfm2_213 := gauge_xfm2_213
    gauge_xfm2_312 := gauge_xfm2_312 }

end Model

/-- Where the momentum operator stands among the three. -/
inductive OperatorPosition where
  /-- To the left of both others. -/
  | left
  /-- Between them. -/
  | middle
  /-- To the right of both others. -/
  | right
deriving DecidableEq

/-- Which index of a two-point function is fixed, the other being summed over. -/
inductive FixedIndex where
  /-- The first. -/
  | first
  /-- The second. -/
  | second
deriving DecidableEq

/-- `q_fixed` of `compute_shift`. -/
def OperatorPosition.q_fixed : OperatorPosition → FixedIndex
  | .left => .second
  | .middle => .first
  | .right => .first

/-- `r_fixed` of `compute_shift`. -/
def OperatorPosition.r_fixed : OperatorPosition → FixedIndex
  | .left => .second
  | .middle => .second
  | .right => .first

namespace Model

variable (mdl : Model K)

/-- The component with index `a` in the fixed place and `b` in the other. -/
def fixed_flatten (fixed : FixedIndex) (a b : ℕ) : ℕ :=
  mdl.flatten2 (if fixed = .first then a else b) (if fixed = .second then a else b)

/-- `postprocess_delegate::compute_shift`; `p` is the index of the momentum insertion. -/
def compute_shift (t : K) (p q r : ℕ) (p_comoving q_comoving r_comoving : K) (tpf_q tpf_r : Twopf K)
    (bg : List K) (pos : OperatorPosition) : K :=
  let B_qrp := mdl.B bg q_comoving r_comoving p_comoving t
  let C_pqr := mdl.C bg p_comoving q_comoving r_comoving t
  let C_prq := mdl.C bg p_comoving r_comoving q_comoving t
  let p_species := mdl.species p
  mdl.N_fields.fold (fun m _ shift => mdl.N_fields.fold (fun n _ shift =>
    let q_m_id := mdl.fixed_flatten pos.q_fixed q m
    let q_n_id := mdl.fixed_flatten pos.q_fixed q n
    let r_n_id := mdl.fixed_flatten pos.r_fixed r n
    let mom_q_m_id := mdl.fixed_flatten pos.q_fixed (mdl.momentum q) m
    let mom_r_m_id := mdl.fixed_flatten pos.r_fixed (mdl.momentum r) m
    let dimless_conversion := p_comoving * p_comoving / (q_comoving * r_comoving)
    let shift := shift - entry B_qrp (mdl.fields_flatten m n p_species) * dimless_conversion
      * (entry tpf_q.re q_m_id * entry tpf_r.re r_n_id - entry tpf_q.im q_m_id * entry tpf_r.im r_n_id)
    let shift := shift - entry C_pqr (mdl.fields_flatten p_species m n) * dimless_conversion
      * (entry tpf_q.re mom_q_m_id * entry tpf_r.re r_n_id
        - entry tpf_q.im mom_q_m_id * entry tpf_r.im r_n_id)
    -- the imaginary part of the last factor is not taken here
    shift - entry C_prq (mdl.fields_flatten p_species m n) * dimless_conversion
      * (entry tpf_q.re q_n_id * entry tpf_r.re mom_r_m_id
        - entry tpf_q.im q_n_id * entry tpf_r.re mom_r_m_id)) shift) 0

/-- `postprocess_delegate::shift`: `value` with each momentum insertion made a time derivative. -/
def shift (l m n : ℕ) (k : ThreepfKconfig K) (t : K) (tpf1 tpf2 tpf3 : Twopf K) (bg : List K)
    (value : K) : K :=
  let value := if mdl.is_momentum l then value + mdl.compute_shift t l m n
    k.k1_comoving k.k2_comoving k.k3_comoving tpf2 tpf3 bg .left else value
  let value := if mdl.is_momentum m then value + mdl.compute_shift t m l n
    k.k2_comoving k.k1_comoving k.k3_comoving tpf1 tpf3 bg .middle else value
  if mdl.is_momentum n then value + mdl.compute_shift t n l m
    k.k3_comoving k.k1_comoving k.k2_comoving tpf1 tpf2 bg .middle else value

/-! ### `threepf_batcher` -/

/-- The loop of `push_threepf` that makes the time-derivative three-point function; the serial number
of the sample time is passed where the time is expected. -/
def Nderiv_values (k : ThreepfKconfig K) (s : Sample K) : List K :=
  (2 * mdl.N_fields).fold (fun l _ v => (2 * mdl.N_fields).fold (fun m _ v =>
    (2 * mdl.N_fields).fold (fun n _ v =>
      v.set (mdl.flatten3 l m n)
        (mdl.shift l m n k (s.time_serial : K) s.k1 s.k2 s.k3 s.bg
          (entry s.values (mdl.flatten3 l m n)))) v) v) (List.replicate s.values.length 0)

/-- `threepf_batcher::push_paired_threepf`: what it pushes to the paired batcher. -/
def push_paired_threepf (k : ThreepfKconfig K) (s : Sample K) (threepf : List K) : ZetaPoint K :=
  mdl.zeta_threepf k s.t threepf s.k1 s.k2 s.k3 s.bg

end Model

/-- What `push_threepf` stores and pushes. -/
structure Pushed (K : Type*) where
  /-- Item of the momentum three-point function. -/
  momentum : List K
  /-- Item of the time-derivative three-point function. -/
  Nderiv : List K
  /-- Items of the paired batcher. -/
  paired : ZetaPoint K

/-- `threepf_batcher::push_threepf` with a paired batcher; it throws if the number of values is
wrong. -/
def Model.push_threepf (mdl : Model K) (k : ThreepfKconfig K) (s : Sample K) : Option (Pushed K) :=
  if s.values.length = 2 * mdl.N_fields * (2 * mdl.N_fields) * (2 * mdl.N_fields) then
    some { momentum := s.values
           Nderiv := mdl.Nderiv_values k s
           paired := mdl.push_paired_threepf k s s.values }
  else none

/-! ### `zeta_timeseries_compute` -/

/-- Types of correlation functions that the datapipe hands out. -/
inductive CfDataType where
  /-- Real part of the two-point function. -/
  | cf_twopf_re
  /-- Imaginary part of the two-point function. -/
  | cf_twopf_im
  /-- Three-point function of time derivatives. -/
  | cf_threepf_Nderiv
deriving DecidableEq

/-- A datapipe attached to a container: the lines it hands out have one value for each sample time. -/
structure Datapipe (K : Type*) where
  /-- The sample times. -/
  t_axis : List K
  /-- The line of a component of the background. -/
  background_line : ℕ → List K
  /-- The line of a component of a correlation function, for a configuration. -/
  cf_line : CfDataType → ℕ → ℕ → List K

/-- `zeta_timeseries_compute::handle`. -/
structure Handle (K : Type*) where
  /-- The datapipe. -/
  pipe : Datapipe K
  /-- The background at each sample time. -/
  background : List (List K)
  /-- The linear gauge transformation at each sample time. -/
  dN : List (List K)

namespace Model

variable (mdl : Model K)

/-- The constructor of the handle: the lines of the background are sliced by time. -/
def make_handle (pipe : Datapipe K) : Handle K :=
  let background := (2 * mdl.N_fields).fold
    (fun i _ background => background.mapIdx fun j b => b ++ [entry (pipe.background_line i) j])
    (List.replicate pipe.t_axis.length [])
  { pipe := pipe
    background := background
    dN := background.map mdl.compute_gauge_xfm_1 }

/-- `zeta_timeseries_compute::twopf`. -/
def timeseries_twopf (h : Handle K) (serial : ℕ) : List K :=
  (2 * mdl.N_fields).fold (fun m _ zeta => (2 * mdl.N_fields).fold (fun n _ zeta =>
    let sigma_line := h.pipe.cf_line .cf_twopf_re (mdl.flatten2 m n) serial
    zeta.mapIdx fun j z => z + entry (h.dN.getD j []) m * entry (h.dN.getD j []) n * entry sigma_line j)
    zeta) (List.replicate h.pipe.t_axis.length 0)

/-- The gauge transformations that `zeta_timeseries_compute::threepf` caches, for wavenumbers in a given
order and a sample time. -/
def gauge_xfm2 (h : Handle K) (ka kb kc : K) (j : ℕ) : List K :=
  mdl.compute_gauge_xfm_2 (h.background.getD j []) ka kb kc (entry h.pipe.t_axis j)

/-- `zeta_timeseries_compute::threepf`, linear part of the gauge transformation. -/
def timeseries_linear (h : Handle K) (k : ThreepfKconfig K) (zeta_threepf : List K) : List K :=
  (2 * mdl.N_fields).fold (fun l _ zeta => (2 * mdl.N_fields).fold (fun m _ zeta =>
    (2 * mdl.N_fields).fold (fun n _ zeta =>
      let threepf_line := h.pipe.cf_line .cf_threepf_Nderiv (mdl.flatten3 l m n) k.serial
      zeta.mapIdx fun j z => z + entry (h.dN.getD j []) l * entry (h.dN.getD j []) m
        * entry (h.dN.getD j []) n * entry threepf_line j) zeta) zeta) zeta_threepf

/-- `zeta_timeseries_compute::threepf`, quadratic part. -/
def timeseries_quadratic (h : Handle K) (k : ThreepfKconfig K) (zeta_threepf : List K) : List K :=
  let k1 := k.k1_comoving
  let k2 := k.k2_comoving
  let k3 := k.k3_comoving
  let k1k2 := k3 * k3 / (k1 * k2)
  let k1k3 := k2 * k2 / (k1 * k3)
  let k2k3 := k1 * k1 / (k2 * k3)
  let dN (j : ℕ) := h.dN.getD j []
  (2 * mdl.N_fields).fold (fun l _ zeta => (2 * mdl.N_fields).fold (fun m _ zeta =>
    (2 * mdl.N_fields).fold (fun p _ zeta => (2 * mdl.N_fields).fold (fun q _ zeta =>
      let lm := mdl.flatten2 l m
      let k1_re_lp := h.pipe.cf_line .cf_twopf_re (mdl.flatten2 l p) k.k1_serial
      let k1_im_lp := h.pipe.cf_line .cf_twopf_im (mdl.flatten2 l p) k.k1_serial
      let k2_re_lp := h.pipe.cf_line .cf_twopf_re (mdl.flatten2 l p) k.k2_serial
      let k2_im_lp := h.pipe.cf_line .cf_twopf_im (mdl.flatten2 l p) k.k2_serial
      let k2_re_mq := h.pipe.cf_line .cf_twopf_re (mdl.flatten2 m q) k.k2_serial
      let k2_im_mq := h.pipe.cf_line .cf_twopf_im (mdl.flatten2 m q) k.k2_serial
      let k3_re_mq := h.pipe.cf_line .cf_twopf_re (mdl.flatten2 m q) k.k3_serial
      let k3_im_mq := h.pipe.cf_line .cf_twopf_im (mdl.flatten2 m q) k.k3_serial
      zeta.mapIdx fun j z =>
        let component1 :=
          entry (mdl.gauge_xfm2 h k1 k2 k3 j) lm * entry (dN j) p * entry (dN j) q * k2k3
            * (entry k2_re_lp j * entry k3_re_mq j - entry k2_im_lp j * entry k3_im_mq j)
        let component2 :=
          entry (mdl.gauge_xfm2 h k2 k1 k3 j) lm * entry (dN j) p * entry (dN j) q * k1k3
            * (entry k1_re_lp j * entry k3_re_mq j - entry k1_im_lp j * entry k3_im_mq j)
        let component3 :=
          entry (mdl.gauge_xfm2 h k3 k1 k2 j) lm * entry (dN j) p * entry (dN j) q * k1k2
            * (entry k1_re_lp j * entry k2_re_mq j - entry k1_im_lp j * entry k2_im_mq j)
        z + component1 + component2 + component3) zeta) zeta) zeta) zeta_threepf

/-- `zeta_timeseries_compute::threepf`: the products at each sample time, from loops that run over
whole lines. -/
def timeseries_threepf (h : Handle K) (k : ThreepfKconfig K) : List (ZetaPoint K) :=
  let k1 := k.k1_comoving
  let k2 := k.k2_comoving
  let k3 := k.k3_comoving
  let k1k2 := k3 * k3 / (k1 * k2)
  let k1k3 := k2 * k2 / (k1 * k3)
  let k2k3 := k1 * k1 / (k2 * k3)
  let zeta := mdl.timeseries_quadratic h k
    (mdl.timeseries_linear h k (List.replicate h.pipe.t_axis.length 0))
  let twopf_k1 := mdl.timeseries_twopf h k.k1_serial
  let twopf_k2 := mdl.timeseries_twopf h k.k2_serial
  let twopf_k3 := mdl.timeseries_twopf h k.k3_serial
  (List.range h.pipe.t_axis.length).map fun j =>
    let form_factor := 6 / 5 * (entry twopf_k1 j * entry twopf_k2 j * k1k2
      + entry twopf_k1 j * entry twopf_k3 j * k1k3 + entry twopf_k2 j * entry twopf_k3 j * k2k3)
    { zeta_threepf := entry zeta j
      redbsp := entry zeta j / form_factor
      gauge_xfm2_123 := mdl.gauge_xfm2 h k1 k2 k3 j
      gauge_xfm2_213 := mdl.gauge_xfm2 h k2 k1 k3 j
      gauge_xfm2_312 := mdl.gauge_xfm2 h k3 k1 k2 j }

end Model

/-! ### What the batcher computes -/

namespace Model

variable (mdl : Model K) {k : ThreepfKconfig K} {s : Sample K} {threepf : List K}

/-- What `shift` adds to the component `l`, `m`, `n` for the stored time-derivative function. -/
def shiftBy (k : ThreepfKconfig K) (s : Sample K) (l m n : ℕ) : K :=
  mdl.shift l m n k (s.time_serial : K) s.k1 s.k2 s.k3 s.bg 0

/-- The shift does not depend on the value that is shifted. -/
theorem shift_eq_add (l m n : ℕ) (t : K) (tpf1 tpf2 tpf3 : Twopf K) (bg : List K) (value : K) :
    mdl.shift l m n k t tpf1 tpf2 tpf3 bg value
      = value + mdl.shift l m n k t tpf1 tpf2 tpf3 bg 0 := by
  simp only [shift]
  split_ifs <;> ring

/-- **The stored function** is the momentum function, each component shifted. -/
theorem entry_Nderiv_values
    (size : s.values.length = 2 * mdl.N_fields * (2 * mdl.N_fields) * (2 * mdl.N_fields))
    {l m n : ℕ} (hl : l < 2 * mdl.N_fields) (hm : m < 2 * mdl.N_fields) (hn : n < 2 * mdl.N_fields) :
    entry (mdl.Nderiv_values k s) (mdl.flatten3 l m n)
      = entry s.values (mdl.flatten3 l m n) + mdl.shiftBy k s l m n := by
  have place : mdl.flatten3 l m n < s.values.length := size ▸ mdl.flatten3_lt l hl m hm n hn
  have writes := Writes.fold (n := 2 * mdl.N_fields) fun l' hl' =>
    Writes.fold (n := 2 * mdl.N_fields) fun m' hm' => Writes.fold (n := 2 * mdl.N_fields) fun n' hn' =>
      Writes.set (M := K) (q := mdl.flatten3 l' m' n') (d := 0) place
        (x := mdl.shift l m n k (s.time_serial : K) s.k1 s.k2 s.k3 s.bg
          (entry s.values (mdl.flatten3 l m n)))
        (y := mdl.shift l' m' n' k (s.time_serial : K) s.k1 s.k2 s.k3 s.bg
          (entry s.values (mdl.flatten3 l' m' n'))) fun same => by
            obtain ⟨rfl, rfl, rfl⟩ := mdl.flatten3_inj l' hl' m' hm' n' hn' l hl m hm n hn same
            rfl
  obtain ⟨-, written, -⟩ := writes (List.replicate s.values.length 0) (by simp)
  calc entry (mdl.Nderiv_values k s) (mdl.flatten3 l m n)
      = mdl.shift l m n k (s.time_serial : K) s.k1 s.k2 s.k3 s.bg
          (entry s.values (mdl.flatten3 l m n)) := written ⟨l, hl, m, hm, n, hn, rfl⟩
    _ = _ := mdl.shift_eq_add l m n _ _ _ _ _ _

/-- The two-point function of ζ, as a sum. -/
theorem zeta_twopf_eq (twopf gauge_xfm : List K) :
    mdl.zeta_twopf twopf gauge_xfm = ∑ m ∈ Finset.range (2 * mdl.N_fields),
      ∑ n ∈ Finset.range (2 * mdl.N_fields),
        entry gauge_xfm m * entry gauge_xfm n * entry twopf (mdl.flatten2 m n) := by
  have adds := Adds.fold (n := 2 * mdl.N_fields) fun m _ => Adds.fold (n := 2 * mdl.N_fields)
    (g := fun n => entry gauge_xfm m * entry gauge_xfm n * entry twopf (mdl.flatten2 m n))
      fun n _ s => rfl
  exact (adds 0).trans (zero_add _)

/-- The contraction of a three-point function with the linear gauge transformation. -/
def linear (bg threepf : List K) : K :=
  ∑ l ∈ Finset.range (2 * mdl.N_fields), ∑ m ∈ Finset.range (2 * mdl.N_fields),
    ∑ n ∈ Finset.range (2 * mdl.N_fields),
      entry (mdl.compute_gauge_xfm_1 bg) l * entry (mdl.compute_gauge_xfm_1 bg) m
        * entry (mdl.compute_gauge_xfm_1 bg) n * entry threepf (mdl.flatten3 l m n)

/-- A component of the quadratic part: the coefficients of one leg with the two-point functions of the
other two. -/
def component (bg xfm2 : List K) (ratio : K) (tpf_a tpf_b : Twopf K) (l m p q : ℕ) : K :=
  entry xfm2 (mdl.flatten2 l m) * entry (mdl.compute_gauge_xfm_1 bg) p
    * entry (mdl.compute_gauge_xfm_1 bg) q * ratio
    * (entry tpf_a.re (mdl.flatten2 l p) * entry tpf_b.re (mdl.flatten2 m q)
      - entry tpf_a.im (mdl.flatten2 l p) * entry tpf_b.im (mdl.flatten2 m q))

/-- `component1`: legs 2 and 3. -/
def component1 (k : ThreepfKconfig K) (s : Sample K) : ℕ → ℕ → ℕ → ℕ → K :=
  mdl.component s.bg (mdl.compute_gauge_xfm_2 s.bg k.k1_comoving k.k2_comoving k.k3_comoving s.t)
    (k.k1_comoving * k.k1_comoving / (k.k2_comoving * k.k3_comoving)) s.k2 s.k3

/-- `component2`: legs 1 and 3. -/
def component2 (k : ThreepfKconfig K) (s : Sample K) : ℕ → ℕ → ℕ → ℕ → K :=
  mdl.component s.bg (mdl.compute_gauge_xfm_2 s.bg k.k2_comoving k.k1_comoving k.k3_comoving s.t)
    (k.k2_comoving * k.k2_comoving / (k.k1_comoving * k.k3_comoving)) s.k1 s.k3

/-- `component3`: legs 1 and 2. -/
def component3 (k : ThreepfKconfig K) (s : Sample K) : ℕ → ℕ → ℕ → ℕ → K :=
  mdl.component s.bg (mdl.compute_gauge_xfm_2 s.bg k.k3_comoving k.k1_comoving k.k2_comoving s.t)
    (k.k3_comoving * k.k3_comoving / (k.k1_comoving * k.k2_comoving)) s.k1 s.k2

/-- The quadratic part of the gauge transformation. -/
def quadratic (k : ThreepfKconfig K) (s : Sample K) : K :=
  ∑ l ∈ Finset.range (2 * mdl.N_fields), ∑ m ∈ Finset.range (2 * mdl.N_fields),
    ∑ p ∈ Finset.range (2 * mdl.N_fields), ∑ q ∈ Finset.range (2 * mdl.N_fields),
      (mdl.component1 k s l m p q + mdl.component2 k s l m p q + mdl.component3 k s l m p q)

/-- **The paired path** contracts the three-point function that it is given. -/
theorem push_paired_threepf_zeta :
    (mdl.push_paired_threepf k s threepf).zeta_threepf
      = mdl.linear s.bg threepf + mdl.quadratic k s := by
  have linear := Adds.fold (n := 2 * mdl.N_fields) fun l _ =>
    Adds.fold (n := 2 * mdl.N_fields) fun m _ => Adds.fold (n := 2 * mdl.N_fields)
      (g := fun n => entry (mdl.compute_gauge_xfm_1 s.bg) l * entry (mdl.compute_gauge_xfm_1 s.bg) m
        * entry (mdl.compute_gauge_xfm_1 s.bg) n * entry threepf (mdl.flatten3 l m n))
      fun n _ z => rfl
  have quadratic := Adds.fold (n := 2 * mdl.N_fields) fun l _ =>
    Adds.fold (n := 2 * mdl.N_fields) fun m _ => Adds.fold (n := 2 * mdl.N_fields) fun p _ =>
      Adds.fold (n := 2 * mdl.N_fields) fun q _ (z : K) =>
        show z + mdl.component1 k s l m p q + mdl.component2 k s l m p q + mdl.component3 k s l m p q
          = z + (mdl.component1 k s l m p q + mdl.component2 k s l m p q + mdl.component3 k s l m p q)
        by ring
  calc (mdl.push_paired_threepf k s threepf).zeta_threepf
      = _ + mdl.quadratic k s := quadratic _
    _ = 0 + mdl.linear s.bg threepf + mdl.quadratic k s := congrArg (· + _) (linear 0)
    _ = mdl.linear s.bg threepf + mdl.quadratic k s := by rw [zero_add]

end Model

/-! ### What the time series are -/

/-- A line has the value of sample `j` at place `j`. -/
theorem entry_map {α : Type*} {samples : List α} {f : α → K} {j : ℕ} {s : α}
    (hs : samples[j]? = some s) : entry (samples.map f) j = f s := by
  simp [entry, hs]

namespace Model

variable (mdl : Model K) {k : ThreepfKconfig K} {s : Sample K} {samples : List (Sample K)}
  {pushes : List (Pushed K)} {pipe : Datapipe K} {j : ℕ}

/-- The pipe hands out lines with the two-point function of a leg. -/
def StoresLeg (samples : List (Sample K)) (pipe : Datapipe K) (serial : ℕ)
    (leg : Sample K → Twopf K) : Prop :=
  ∀ a < 2 * mdl.N_fields, ∀ b < 2 * mdl.N_fields,
    pipe.cf_line .cf_twopf_re (mdl.flatten2 a b) serial
        = samples.map (fun s => entry (leg s).re (mdl.flatten2 a b))
      ∧ pipe.cf_line .cf_twopf_im (mdl.flatten2 a b) serial
        = samples.map (fun s => entry (leg s).im (mdl.flatten2 a b))

/-- The pipe reads a container in which the samples of a configuration were stored: `pushes` are the
items of the calls of `push_threepf`, one call for each sample. -/
structure Stores (k : ThreepfKconfig K) (samples : List (Sample K)) (pushes : List (Pushed K))
    (pipe : Datapipe K) : Prop where
  /-- Each sample was pushed. -/
  pushed : List.Forall₂ (fun s p => mdl.push_threepf k s = some p) samples pushes
  /-- The time axis. -/
  t_axis : pipe.t_axis = samples.map (·.t)
  /-- A background has one component for each phase-space index. -/
  bg_size : ∀ s ∈ samples, s.bg.length = 2 * mdl.N_fields
  /-- The background. -/
  background : ∀ i < 2 * mdl.N_fields, pipe.background_line i = samples.map fun s => entry s.bg i
  /-- The two-point function of the first leg. -/
  k1 : mdl.StoresLeg samples pipe k.k1_serial Sample.k1
  /-- The two-point function of the second leg. -/
  k2 : mdl.StoresLeg samples pipe k.k2_serial Sample.k2
  /-- The two-point function of the third leg. -/
  k3 : mdl.StoresLeg samples pipe k.k3_serial Sample.k3
  /-- The time-derivative three-point function. -/
  Nderiv : ∀ l < 2 * mdl.N_fields, ∀ m < 2 * mdl.N_fields, ∀ n < 2 * mdl.N_fields,
    pipe.cf_line .cf_threepf_Nderiv (mdl.flatten3 l m n) k.serial
      = pushes.map fun p => entry p.Nderiv (mdl.flatten3 l m n)

/-- The items that a call pushes, and the size of what it was given. -/
theorem push_threepf_eq_some_iff {p : Pushed K} :
    mdl.push_threepf k s = some p
      ↔ s.values.length = 2 * mdl.N_fields * (2 * mdl.N_fields) * (2 * mdl.N_fields)
        ∧ p = ⟨s.values, mdl.Nderiv_values k s, mdl.push_paired_threepf k s s.values⟩ := by
  simp [push_threepf, eq_comm]

/-- After `n` lines, the slice at a sample time has the first `n` components. -/
theorem getElem?_slices (lines : ℕ → List K) {T : ℕ} (hj : j < T) (n : ℕ) :
    (n.fold (fun i _ background => background.mapIdx fun j b => b ++ [entry (lines i) j])
      (List.replicate T []))[j]? = some ((List.range n).map fun i => entry (lines i) j) := by
  induction n with
  | zero => simp [hj]
  | succ n ih =>
    rw [Nat.fold_succ, List.getElem?_mapIdx, ih, List.range_succ, List.map_append]
    rfl

/-- The handle has the background of each sample. -/
theorem background_make_handle (h : mdl.Stores k samples pushes pipe) (hs : samples[j]? = some s) :
    (mdl.make_handle pipe).background[j]? = some s.bg := by
  have hj : j < pipe.t_axis.length := by
    rw [h.t_axis, List.length_map]
    exact (List.getElem?_eq_some_iff.mp hs).1
  have size : s.bg.length = 2 * mdl.N_fields := h.bg_size s (List.mem_of_getElem? hs)
  rw [make_handle, getElem?_slices _ hj]
  congr 1
  refine List.ext_getElem (by simp [size]) fun i hi hi' => ?_
  have lt : i < 2 * mdl.N_fields := by simpa using hi
  simp only [List.getElem_map, List.getElem_range]
  rw [h.background i lt, entry_map hs, entry, List.getD_eq_getElem _ _ hi']

theorem dN_make_handle (h : mdl.Stores k samples pushes pipe) (hs : samples[j]? = some s) :
    (mdl.make_handle pipe).dN.getD j [] = mdl.compute_gauge_xfm_1 s.bg := by
  have background := mdl.background_make_handle h hs
  rw [make_handle] at background ⊢
  simp only [List.getD_eq_getElem?_getD, List.getElem?_map]
  rw [background]
  rfl

/-- What the call for sample `j` pushed. -/
theorem Stores.pushes_getElem? (h : mdl.Stores k samples pushes pipe) (hs : samples[j]? = some s) :
    s.values.length = 2 * mdl.N_fields * (2 * mdl.N_fields) * (2 * mdl.N_fields)
      ∧ pushes[j]? = some ⟨s.values, mdl.Nderiv_values k s, mdl.push_paired_threepf k s s.values⟩ := by
  obtain ⟨hj, rfl⟩ := List.getElem?_eq_some_iff.mp hs
  have hp : j < pushes.length := h.pushed.length_eq ▸ hj
  obtain ⟨size, items⟩ := mdl.push_threepf_eq_some_iff.mp (h.pushed.get hj hp)
  exact ⟨size, List.getElem?_eq_some_iff.mpr ⟨hp, items⟩⟩

/-- The stored line of a component of the time-derivative function. -/
theorem entry_Nderiv_line (h : mdl.Stores k samples pushes pipe) (hs : samples[j]? = some s)
    {l m n : ℕ} (hl : l < 2 * mdl.N_fields) (hm : m < 2 * mdl.N_fields) (hn : n < 2 * mdl.N_fields) :
    entry (pipe.cf_line .cf_threepf_Nderiv (mdl.flatten3 l m n) k.serial) j
      = entry s.values (mdl.flatten3 l m n) + mdl.shiftBy k s l m n := by
  obtain ⟨size, items⟩ := h.pushes_getElem? mdl hs
  rw [h.Nderiv l hl m hm n hn, entry_map items]
  exact mdl.entry_Nderiv_values size hl hm hn

theorem lt_t_axis_length (h : mdl.Stores k samples pushes pipe) (hs : samples[j]? = some s) :
    j < pipe.t_axis.length := by
  rw [h.t_axis, List.length_map]
  exact (List.getElem?_eq_some_iff.mp hs).1

/-- The two-point function of ζ at a sample, from the stored lines of a leg. -/
theorem entry_timeseries_twopf (h : mdl.Stores k samples pushes pipe) (hs : samples[j]? = some s)
    {serial : ℕ} {leg : Sample K → Twopf K} (stored : mdl.StoresLeg samples pipe serial leg) :
    entry (mdl.timeseries_twopf (mdl.make_handle pipe) serial) j
      = mdl.zeta_twopf (leg s).re (mdl.compute_gauge_xfm_1 s.bg) := by
  have hj : j < pipe.t_axis.length := mdl.lt_t_axis_length h hs
  have adds := AddsAt.fold (n := 2 * mdl.N_fields) fun m hm =>
    AddsAt.fold (n := 2 * mdl.N_fields) fun n hn => AddsAt.mapIdx (f := fun j (z : K) =>
      z + entry ((mdl.make_handle pipe).dN.getD j []) m * entry ((mdl.make_handle pipe).dN.getD j []) n
        * entry (pipe.cf_line .cf_twopf_re (mdl.flatten2 m n) serial) j) hj fun z => by
          rw [mdl.dN_make_handle h hs, (stored m hm n hn).1, entry_map hs]
  rw [mdl.zeta_twopf_eq]
  exact adds.getD_replicate_zero hj

/-- The linear loop adds, at a sample, the contraction of the stored time-derivative function. -/
theorem addsAt_timeseries_linear (h : mdl.Stores k samples pushes pipe) (hs : samples[j]? = some s) :
    AddsAt pipe.t_axis.length j (mdl.linear s.bg (mdl.Nderiv_values k s))
      (mdl.timeseries_linear (mdl.make_handle pipe) k) := by
  have hj : j < pipe.t_axis.length := mdl.lt_t_axis_length h hs
  refine AddsAt.fold fun l hl => AddsAt.fold fun m hm => AddsAt.fold fun n hn =>
    AddsAt.mapIdx hj fun z => ?_
  have line : entry (pipe.cf_line .cf_threepf_Nderiv (mdl.flatten3 l m n) k.serial) j
      = entry (mdl.Nderiv_values k s) (mdl.flatten3 l m n) := by
    rw [mdl.entry_Nderiv_line h hs hl hm hn,
      mdl.entry_Nderiv_values (h.pushes_getElem? mdl hs).1 hl hm hn]
  rw [mdl.dN_make_handle h hs]
  exact congrArg (fun x => z + _ * x) line

/-- The caches of the handle at a sample. -/
theorem gauge_xfm2_make_handle (h : mdl.Stores k samples pushes pipe) (hs : samples[j]? = some s)
    (ka kb kc : K) :
    mdl.gauge_xfm2 (mdl.make_handle pipe) ka kb kc j = mdl.compute_gauge_xfm_2 s.bg ka kb kc s.t := by
  have t : entry pipe.t_axis j = s.t := by rw [h.t_axis, entry_map hs]
  rw [gauge_xfm2, List.getD_eq_getElem?_getD, mdl.background_make_handle h hs, ← t]
  rfl

/-- The quadratic loop adds, at a sample, the quadratic part. -/
theorem addsAt_timeseries_quadratic (h : mdl.Stores k samples pushes pipe)
    (hs : samples[j]? = some s) :
    AddsAt pipe.t_axis.length j (mdl.quadratic k s)
      (mdl.timeseries_quadratic (mdl.make_handle pipe) k) := by
  have hj : j < pipe.t_axis.length := mdl.lt_t_axis_length h hs
  refine AddsAt.fold fun l hl => AddsAt.fold fun m hm => AddsAt.fold fun p hp =>
    AddsAt.fold fun q hq => AddsAt.mapIdx hj fun z => ?_
  have pipe_eq : (mdl.make_handle pipe).pipe = pipe := rfl
  simp only [mdl.dN_make_handle h hs, mdl.gauge_xfm2_make_handle h hs, pipe_eq,
    (h.k1 l hl p hp).1, (h.k1 l hl p hp).2, (h.k2 l hl p hp).1, (h.k2 l hl p hp).2,
    (h.k2 m hm q hq).1, (h.k2 m hm q hq).2, (h.k3 m hm q hq).1, (h.k3 m hm q hq).2, entry_map hs]
  simp only [component1, component2, component3, component, add_assoc]

/-- **The unpaired path** computes what the delegate computes from the time-derivative function. -/
theorem timeseries_threepf_getElem? (h : mdl.Stores k samples pushes pipe)
    (hs : samples[j]? = some s) :
    (mdl.timeseries_threepf (mdl.make_handle pipe) k)[j]?
      = some (mdl.push_paired_threepf k s (mdl.Nderiv_values k s)) := by
  have hj : j < pipe.t_axis.length := mdl.lt_t_axis_length h hs
  have zeta : entry (mdl.timeseries_quadratic (mdl.make_handle pipe) k
      (mdl.timeseries_linear (mdl.make_handle pipe) k (List.replicate pipe.t_axis.length 0))) j
        = (mdl.push_paired_threepf k s (mdl.Nderiv_values k s)).zeta_threepf := by
    rw [push_paired_threepf_zeta]
    exact ((mdl.addsAt_timeseries_quadratic h hs).comp
      (mdl.addsAt_timeseries_linear h hs)).getD_replicate_zero hj
  have range : (List.range (mdl.make_handle pipe).pipe.t_axis.length)[j]? = some j :=
    List.getElem?_range hj
  simp only [timeseries_threepf, List.getElem?_map, range, Option.map_some]
  simp only [mdl.entry_timeseries_twopf h hs h.k1, mdl.entry_timeseries_twopf h hs h.k2,
    mdl.entry_timeseries_twopf h hs h.k3, mdl.gauge_xfm2_make_handle h hs]
  rw [show (mdl.make_handle pipe).pipe = pipe from rfl, zeta]
  rfl

/-- The shifts, contracted with the linear gauge transformation, add up to zero. -/
def ShiftsCancel (k : ThreepfKconfig K) (s : Sample K) : Prop :=
  ∑ l ∈ Finset.range (2 * mdl.N_fields), ∑ m ∈ Finset.range (2 * mdl.N_fields),
    ∑ n ∈ Finset.range (2 * mdl.N_fields),
      entry (mdl.compute_gauge_xfm_1 s.bg) l * entry (mdl.compute_gauge_xfm_1 s.bg) m
        * entry (mdl.compute_gauge_xfm_1 s.bg) n * mdl.shiftBy k s l m n = 0

/-- The two contractions differ by the contracted shifts. -/
theorem linear_Nderiv_values_eq_iff
    (size : s.values.length = 2 * mdl.N_fields * (2 * mdl.N_fields) * (2 * mdl.N_fields)) :
    mdl.linear s.bg s.values = mdl.linear s.bg (mdl.Nderiv_values k s) ↔ mdl.ShiftsCancel k s := by
  have split : mdl.linear s.bg (mdl.Nderiv_values k s) = mdl.linear s.bg s.values
      + ∑ l ∈ Finset.range (2 * mdl.N_fields), ∑ m ∈ Finset.range (2 * mdl.N_fields),
        ∑ n ∈ Finset.range (2 * mdl.N_fields),
          entry (mdl.compute_gauge_xfm_1 s.bg) l * entry (mdl.compute_gauge_xfm_1 s.bg) m
            * entry (mdl.compute_gauge_xfm_1 s.bg) n * mdl.shiftBy k s l m n := by
    simp only [linear, ← Finset.sum_add_distrib]
    refine Finset.sum_congr rfl fun l hl => Finset.sum_congr rfl fun m hm =>
      Finset.sum_congr rfl fun n hn => ?_
    rw [mdl.entry_Nderiv_values size (Finset.mem_range.mp hl) (Finset.mem_range.mp hm)
      (Finset.mem_range.mp hn), mul_add]
  rw [split, ShiftsCancel, left_eq_add]

/-- The delegate's products depend on the three-point function only through its contraction. -/
theorem push_paired_threepf_eq_iff {threepf' : List K} :
    mdl.push_paired_threepf k s threepf = mdl.push_paired_threepf k s threepf'
      ↔ mdl.linear s.bg threepf = mdl.linear s.bg threepf' := by
  constructor
  · intro h
    have zeta := congrArg ZetaPoint.zeta_threepf h
    rwa [push_paired_threepf_zeta, push_paired_threepf_zeta, add_left_inj] at zeta
  · intro h
    -- the other products are functions of the three-point function of ζ
    obtain ⟨F, hF⟩ : ∃ F : K → ZetaPoint K, ∀ threepf,
        mdl.push_paired_threepf k s threepf = F (mdl.push_paired_threepf k s threepf).zeta_threepf :=
      ⟨fun z => { zeta_threepf := z, redbsp := z / _, gauge_xfm2_123 := _, gauge_xfm2_213 := _,
                  gauge_xfm2_312 := _ }, fun _ => rfl⟩
    rw [hF threepf, hF threepf', push_paired_threepf_zeta, push_paired_threepf_zeta, h]

end Model

/-- **When the two paths agree**: the products pushed to the paired batcher for a sample are those that
the time series give at it, if and only if the contracted shifts cancel. -/
theorem paired_eq_unpaired_iff (mdl : Model K) (k : ThreepfKconfig K) (samples : List (Sample K))
    (pushes : List (Pushed K)) (pipe : Datapipe K) (h : mdl.Stores k samples pushes pipe) (j : ℕ)
    (s : Sample K) (hs : samples[j]? = some s) :
    pushes[j]?.map (·.paired) = (mdl.timeseries_threepf (mdl.make_handle pipe) k)[j]?
      ↔ mdl.ShiftsCancel k s := by
  obtain ⟨size, pushed⟩ := h.pushes_getElem? mdl hs
  rw [pushed, mdl.timeseries_threepf_getElem? h hs, Option.map_some, Option.some_inj,
    mdl.push_paired_threepf_eq_iff, mdl.linear_Nderiv_values_eq_iff size]

/-! ### A model with one field -/

/-- One field with its momentum; the tensor `B` is 1 and the tensor `C` is 0. -/
def oneField : Model ℚ where
  N_fields := 1
  flatten2 i j := 2 * i + j
  flatten3 i j k := 4 * i + 2 * j + k
  fields_flatten i j k := i + j + k
  is_momentum i := 1 ≤ i
  momentum i := if i < 1 then i + 1 else i
  species i := i % 1
  compute_gauge_xfm_1 _ := [1, 1]
  compute_gauge_xfm_2 _ _ _ _ _ := [0, 0, 0, 0]
  B _ _ _ _ _ := [1]
  C _ _ _ _ _ := [0]
  flatten3_lt := by decide
  flatten3_inj := by
    intro l hl m hm n hn l' hl' m' hm' n' hn' same
    omega

/-- An equilateral configuration. -/
def equilateral : ThreepfKconfig ℚ := ⟨0, 0, 1, 2, 1, 1, 1⟩

/-- The field is correlated with itself, and so is its momentum; there is no three-point function. -/
def oneSample : Sample ℚ :=
  ⟨0, 0, [0, 0, 0, 0, 0, 0, 0, 0], ⟨[1, 0, 0, 1], [0, 0, 0, 0]⟩, ⟨[1, 0, 0, 1], [0, 0, 0, 0]⟩,
    ⟨[1, 0, 0, 1], [0, 0, 0, 0]⟩, [0, 0]⟩

/-- The items pushed for the sample. -/
def onePush : Pushed ℚ :=
  ⟨oneSample.values, oneField.Nderiv_values equilateral oneSample,
    oneField.push_paired_threepf equilateral oneSample oneSample.values⟩

/-- The lines of a container with this sample. -/
def onePipe : Datapipe ℚ where
  t_axis := [0]
  background_line _ := [0]
  cf_line
    | .cf_twopf_re, c, _ => [entry [1, 0, 0, 1] c]
    | .cf_twopf_im, c, _ => [entry [0, 0, 0, 0] c]
    | .cf_threepf_Nderiv, c, _ => [entry onePush.Nderiv c]

theorem onePipe_stores : oneField.Stores equilateral [oneSample] [onePush] onePipe := by
  constructor
  case pushed => exact .cons (if_pos rfl) .nil
  case t_axis => rfl
  case bg_size => simp [oneSample, oneField]
  case background => decide
  case k1 => exact fun _ _ _ _ => ⟨rfl, rfl⟩
  case k2 => exact fun _ _ _ _ => ⟨rfl, rfl⟩
  case k3 => exact fun _ _ _ _ => ⟨rfl, rfl⟩
  case Nderiv => exact fun _ _ _ _ _ _ => rfl

/-- The paired path finds no three-point function of ζ, the unpaired path finds -3. -/
theorem oneSample_paired_ne_unpaired :
    oneField.Stores equilateral [oneSample] [onePush] onePipe
      ∧ [onePush][0]?.map (·.paired)
        ≠ (oneField.timeseries_threepf (oneField.make_handle onePipe) equilateral)[0]? := by
  refine ⟨onePipe_stores, fun same => ?_⟩
  have zeta := congrArg (Option.map ZetaPoint.zeta_threepf) same
  have paired : ([onePush][0]?.map (·.paired)).map ZetaPoint.zeta_threepf = some (0 : ℚ) := by
    decide +kernel
  have unpaired : (oneField.timeseries_threepf (oneField.make_handle onePipe) equilateral)[0]?.map
      ZetaPoint.zeta_threepf = some (-3 : ℚ) := by decide +kernel
  rw [paired, unpaired] at zeta
  exact absurd zeta (by decide)

theorem paired_eq_unpaired_iff_oneSample :
    [onePush][0]?.map (·.paired)
        = (oneField.timeseries_threepf (oneField.make_handle onePipe) equilateral)[0]?
      ↔ oneField.ShiftsCancel equilateral oneSample :=
  paired_eq_unpaired_iff oneField equilateral [oneSample] [onePush] onePipe onePipe_stores 0 oneSample rfl

end CppTransport.Runtime
