import CppTransport.Runtime.ZetaCompute

/-!
# Shifting momenta to time derivatives

The three-point function of a sample has insertions of momenta, which the batcher replaces by time derivatives. Every
momentum insertion adds a sum over field indices, of the tensors `B` and `C` with two-point functions of the other
two, where the operators stand in the order of the insertions. `shift` and `push_threepf` are those of `ZetaCompute`.

## What is proved

`shift_eq_reference_add_slips`: what `shift` adds is the sum that it should be and the terms of two slips. One takes a
real part for an imaginary part in the last product, and the other puts an operator in the middle that is on the
right. `reference_iff`: the shifts of a sample are right at its time exactly when these terms cancel and the sample
time is its serial number, which is what the batcher passes for it.
-/

namespace CppTransport.Runtime

open Library

variable {K : Type*} [Field K]

/-- The real part of the product of two complex numbers. -/
def re_mul (x y : K × K) : K := x.1 * y.1 - x.2 * y.2

/-- An insertion: its index, its wavenumber and the two-point function of this leg. -/
structure Insertion (K : Type*) where
  index : ℕ
  comoving : K
  tpf : Twopf K

namespace Insertion

/-- The insertion of the momentum of the same species. -/
def mom (mdl : Model K) (q : Insertion K) : Insertion K := { q with index := mdl.momentum q.index }

end Insertion

namespace Model

variable (mdl : Model K)

/-! ### The reference -/

/-- The two-point function of an insertion with a summed index, which stands before the insertion or after it. -/
def S (before : Bool) (q : Insertion K) (a : ℕ) : K × K :=
  let id := if before then mdl.flatten2 a q.index else mdl.flatten2 q.index a
  (entry q.tpf.re id, entry q.tpf.im id)

/-- The term of the fields `a` and `b` for an insertion `p`, which stands before the others or after them. -/
def term (t : K) (bg : List K) (p q r : Insertion K) (before_q before_r : Bool) (a b : ℕ) : K :=
  p.comoving * p.comoving / (q.comoving * r.comoving) *
    (entry (mdl.B bg q.comoving r.comoving p.comoving t) (mdl.fields_flatten a b (mdl.species p.index)) *
        re_mul (mdl.S before_q q a) (mdl.S before_r r b) +
      entry (mdl.C bg p.comoving q.comoving r.comoving t) (mdl.fields_flatten (mdl.species p.index) a b) *
        re_mul (mdl.S before_q (q.mom mdl) a) (mdl.S before_r r b) +
      entry (mdl.C bg p.comoving r.comoving q.comoving t) (mdl.fields_flatten (mdl.species p.index) a b) *
        re_mul (mdl.S before_r (r.mom mdl) a) (mdl.S before_q q b))

/-- What an insertion adds, if it is a momentum. -/
def insertion_shift (t : K) (bg : List K) (p q r : Insertion K) (before_q before_r : Bool) : K :=
  if mdl.is_momentum p.index then
    -∑ a ∈ Finset.range mdl.N_fields, ∑ b ∈ Finset.range mdl.N_fields, mdl.term t bg p q r before_q before_r a b
  else 0

/-- **What should be added** to the component `l`, `m`, `n`. -/
def reference (l m n : ℕ) (k : ThreepfKconfig K) (t : K) (tpf1 tpf2 tpf3 : Twopf K) (bg : List K) : K :=
  let il : Insertion K := ⟨l, k.k1_comoving, tpf1⟩
  let im : Insertion K := ⟨m, k.k2_comoving, tpf2⟩
  let ir : Insertion K := ⟨n, k.k3_comoving, tpf3⟩
  mdl.insertion_shift t bg il im ir true true + mdl.insertion_shift t bg im il ir false true +
    mdl.insertion_shift t bg ir il im false false

/-! ### The slips -/

/-- The last product of the term, in which a real part stands for an imaginary part: the difference. -/
def slip_re_term (t : K) (bg : List K) (p q r : Insertion K) (before_q before_r : Bool) (a b : ℕ) : K :=
  p.comoving * p.comoving / (q.comoving * r.comoving) *
    entry (mdl.C bg p.comoving r.comoving q.comoving t) (mdl.fields_flatten (mdl.species p.index) a b) *
    (mdl.S before_q q b).2 * ((mdl.S before_r (r.mom mdl) a).1 - (mdl.S before_r (r.mom mdl) a).2)

def slip_re (t : K) (bg : List K) (p q r : Insertion K) (before_q before_r : Bool) : K :=
  if mdl.is_momentum p.index then
    ∑ a ∈ Finset.range mdl.N_fields, ∑ b ∈ Finset.range mdl.N_fields,
      mdl.slip_re_term t bg p q r before_q before_r a b
  else 0

/-- The difference that the order of an insertion and a summed index makes. -/
def commutator (r : Insertion K) (a : ℕ) : K × K := mdl.S false r a - mdl.S true r a

/-- The last insertion, with an operator that is taken to stand after it. -/
def slip_order (t : K) (bg : List K) (p q r : Insertion K) : K :=
  if mdl.is_momentum p.index then
    ∑ a ∈ Finset.range mdl.N_fields, ∑ b ∈ Finset.range mdl.N_fields,
      p.comoving * p.comoving / (q.comoving * r.comoving) *
        (entry (mdl.B bg q.comoving r.comoving p.comoving t) (mdl.fields_flatten a b (mdl.species p.index)) *
            re_mul (mdl.S false q a) (mdl.commutator r b) +
          entry (mdl.C bg p.comoving q.comoving r.comoving t) (mdl.fields_flatten (mdl.species p.index) a b) *
            re_mul (mdl.S false (q.mom mdl) a) (mdl.commutator r b) +
          entry (mdl.C bg p.comoving r.comoving q.comoving t) (mdl.fields_flatten (mdl.species p.index) a b) *
            re_mul (mdl.commutator (r.mom mdl) a) (mdl.S false q b))
  else 0

/-- **The terms of the slips** in the component `l`, `m`, `n`. -/
def slips (l m n : ℕ) (k : ThreepfKconfig K) (t : K) (tpf1 tpf2 tpf3 : Twopf K) (bg : List K) : K :=
  let il : Insertion K := ⟨l, k.k1_comoving, tpf1⟩
  let im : Insertion K := ⟨m, k.k2_comoving, tpf2⟩
  let ir : Insertion K := ⟨n, k.k3_comoving, tpf3⟩
  mdl.slip_re t bg il im ir true true + mdl.slip_re t bg im il ir false true +
    (mdl.slip_re t bg ir il im false true + mdl.slip_order t bg ir il im)

/-! ### What `shift` adds -/

omit [Field K] in
theorem fixed_flatten_first (x a : ℕ) : mdl.fixed_flatten .first x a = mdl.flatten2 x a := rfl

omit [Field K] in
theorem fixed_flatten_second (x a : ℕ) : mdl.fixed_flatten .second x a = mdl.flatten2 a x := rfl

/-- **The shift of one insertion**: the terms for the position, and those of the first slip. -/
theorem compute_shift_eq (t : K) (bg : List K) (p q r : Insertion K) (pos : OperatorPosition) :
    mdl.compute_shift t p.index q.index r.index p.comoving q.comoving r.comoving q.tpf r.tpf bg pos =
      ∑ a ∈ Finset.range mdl.N_fields, ∑ b ∈ Finset.range mdl.N_fields,
        (-mdl.term t bg p q r (pos.q_fixed = .second) (pos.r_fixed = .second) a b +
          mdl.slip_re_term t bg p q r (pos.q_fixed = .second) (pos.r_fixed = .second) a b) := by
  refine (Adds.fold (n := mdl.N_fields) (fun a _ => Adds.fold (n := mdl.N_fields) fun b _ shift => ?_) (0 : K)).trans
    (zero_add _)
  rcases pos with _ | _ | _ <;>
    simp only [OperatorPosition.q_fixed, OperatorPosition.r_fixed, fixed_flatten_first, fixed_flatten_second,
      term, slip_re_term, S, re_mul, Insertion.mom, decide_true, reduceCtorEq, decide_false, if_true,
      Bool.false_eq_true, if_false] <;> ring

/-- A step of `shift`. -/
theorem step_shift_eq (t : K) (bg : List K) (p q r : Insertion K) (pos : OperatorPosition) (value : K) :
    (if mdl.is_momentum p.index then
        value + mdl.compute_shift t p.index q.index r.index p.comoving q.comoving r.comoving q.tpf r.tpf bg pos
      else value) =
      value + (mdl.insertion_shift t bg p q r (pos.q_fixed = .second) (pos.r_fixed = .second) +
        mdl.slip_re t bg p q r (pos.q_fixed = .second) (pos.r_fixed = .second)) := by
  rw [insertion_shift, slip_re]
  split
  · simp only [compute_shift_eq, Finset.sum_add_distrib, Finset.sum_neg_distrib]
  · rw [add_zero, add_zero]

/-- What the order of the last insertion makes. -/
theorem insertion_shift_middle (t : K) (bg : List K) (p q r : Insertion K) :
    mdl.insertion_shift t bg p q r false true =
      mdl.insertion_shift t bg p q r false false + mdl.slip_order t bg p q r := by
  rw [insertion_shift, insertion_shift, slip_order]
  split
  · rw [← Finset.sum_neg_distrib, ← Finset.sum_neg_distrib, ← Finset.sum_add_distrib]
    refine Finset.sum_congr rfl fun a _ => ?_
    rw [← Finset.sum_neg_distrib, ← Finset.sum_neg_distrib, ← Finset.sum_add_distrib]
    refine Finset.sum_congr rfl fun b _ => ?_
    simp only [term, re_mul, commutator, Prod.fst_sub, Prod.snd_sub]
    ring
  · rw [add_zero]

/-- **What `shift` adds** is what should be added, and the terms of the slips. -/
theorem shift_eq_reference_add_slips (l m n : ℕ) (k : ThreepfKconfig K) (t : K) (tpf1 tpf2 tpf3 : Twopf K)
    (bg : List K) (value : K) :
    mdl.shift l m n k t tpf1 tpf2 tpf3 bg value =
      value + (mdl.reference l m n k t tpf1 tpf2 tpf3 bg + mdl.slips l m n k t tpf1 tpf2 tpf3 bg) := by
  have hl := mdl.step_shift_eq t bg ⟨l, k.k1_comoving, tpf1⟩ ⟨m, k.k2_comoving, tpf2⟩ ⟨n, k.k3_comoving, tpf3⟩ .left
  have hm := mdl.step_shift_eq t bg ⟨m, k.k2_comoving, tpf2⟩ ⟨l, k.k1_comoving, tpf1⟩ ⟨n, k.k3_comoving, tpf3⟩ .middle
  have hn := mdl.step_shift_eq t bg ⟨n, k.k3_comoving, tpf3⟩ ⟨l, k.k1_comoving, tpf1⟩ ⟨m, k.k2_comoving, tpf2⟩ .middle
  simp only [OperatorPosition.q_fixed, OperatorPosition.r_fixed, decide_true, reduceCtorEq, decide_false] at hl hm hn
  simp only [shift, hl, hm, hn, reference, slips, insertion_shift_middle]
  ring

/-! ### The calls of `shift` -/

/-- The calls of `shift` in `push_threepf`: the indices, and what is passed for the time. -/
def shift_calls (s : Sample K) : List ((ℕ × ℕ × ℕ) × K) :=
  (List.range (2 * mdl.N_fields)).flatMap fun i => (List.range (2 * mdl.N_fields)).flatMap fun j =>
    (List.range (2 * mdl.N_fields)).map fun k => ((i, j, k), (s.time_serial : K))

omit [Field K] in
theorem fold_eq_foldl {β : Type*} (n : ℕ) (f : ℕ → β → β) (b : β) :
    n.fold (fun i _ => f i) b = (List.range n).foldl (fun b i => f i b) b := by
  induction n with
  | zero => rfl
  | succ n ih => rw [Nat.fold_succ, ih, List.range_succ, List.foldl_append, List.foldl_cons, List.foldl_nil]

/-- The stored function is made by these calls. -/
theorem Nderiv_values_eq_foldl (k : ThreepfKconfig K) (s : Sample K) :
    mdl.Nderiv_values k s = (mdl.shift_calls s).foldl
      (fun v call =>
        let (l, m, n) := call.1
        v.set (mdl.flatten3 l m n)
          (mdl.shift l m n k call.2 s.k1 s.k2 s.k3 s.bg (entry s.values (mdl.flatten3 l m n))))
      (List.replicate s.values.length 0) := by
  rw [Nderiv_values, shift_calls]
  simp only [fold_eq_foldl, List.foldl_flatMap, List.foldl_map]

/-- **The shifts of a sample are right**: every component gets what should be added at the sample time, and this is
the time that is passed for it. -/
structure Reference (k : ThreepfKconfig K) (s : Sample K) : Prop where
  adds : ∀ l < 2 * mdl.N_fields, ∀ m < 2 * mdl.N_fields, ∀ n < 2 * mdl.N_fields, ∀ value,
    mdl.shift l m n k s.t s.k1 s.k2 s.k3 s.bg value = value + mdl.reference l m n k s.t s.k1 s.k2 s.k3 s.bg
  passes : ∀ call ∈ mdl.shift_calls s, call.2 = s.t

/-- **Momentum shifts**: those of a sample are right exactly when the terms of the slips cancel in every component,
and the sample time is its serial number. -/
theorem reference_iff (k : ThreepfKconfig K) (s : Sample K) :
    mdl.Reference k s ↔
      (∀ l < 2 * mdl.N_fields, ∀ m < 2 * mdl.N_fields, ∀ n < 2 * mdl.N_fields,
        mdl.slips l m n k s.t s.k1 s.k2 s.k3 s.bg = 0) ∧
        (mdl.N_fields = 0 ∨ (s.time_serial : K) = s.t) := by
  have hadds : ∀ l m n value, mdl.shift l m n k s.t s.k1 s.k2 s.k3 s.bg value =
      value + mdl.reference l m n k s.t s.k1 s.k2 s.k3 s.bg ↔ mdl.slips l m n k s.t s.k1 s.k2 s.k3 s.bg = 0 := by
    intro l m n value
    rw [shift_eq_reference_add_slips, add_right_inj, add_eq_left]
  constructor
  · rintro ⟨adds, passes⟩
    refine ⟨fun l hl m hm n hn => (hadds l m n 0).mp (adds l hl m hm n hn 0), ?_⟩
    rcases Nat.eq_zero_or_pos mdl.N_fields with hzero | hpos
    · exact .inl hzero
    · refine .inr (passes ((0, 0, 0), s.time_serial) ?_)
      have hmem : 0 ∈ List.range (2 * mdl.N_fields) := List.mem_range.mpr (by omega)
      exact List.mem_flatMap.mpr ⟨0, hmem, List.mem_flatMap.mpr ⟨0, hmem, List.mem_map_of_mem hmem⟩⟩
  · rintro ⟨hslips, htime⟩
    refine ⟨fun l hl m hm n hn value => (hadds l m n value).mpr (hslips l hl m hm n hn), ?_⟩
    intro call hcall
    obtain ⟨i, hi, hcall⟩ := List.mem_flatMap.mp hcall
    obtain ⟨j, -, hcall⟩ := List.mem_flatMap.mp hcall
    obtain ⟨k, -, rfl⟩ := List.mem_map.mp hcall
    rcases htime with hzero | htime
    · rw [hzero] at hi
      exact absurd hi List.not_mem_nil
    · exact htime

end Model

/-- One field, with a tensor `C` only. -/
def oneFieldC : Model ℚ := { oneField with B := fun _ _ _ _ _ => [0], C := fun _ _ _ _ _ => [1] }

/-- The field is correlated with itself in the second leg, by an imaginary number, and with its momentum in the
third. -/
def complexSample : Sample ℚ :=
  { oneSample with k2 := ⟨[0, 0, 0, 0], [1, 0, 0, 0]⟩, k3 := ⟨[0, 1, 0, 0], [0, 0, 0, 0]⟩ }

/-- The shift of the first momentum should be zero and is 1; the time that is passed is right here. -/
theorem real_part_for_imaginary :
    ¬∀ (mdl : Model ℚ) (k : ThreepfKconfig ℚ) (s : Sample ℚ), mdl.Reference k s := by
  intro h
  have hadds := (h oneFieldC equilateral complexSample).adds 1 (by decide) 0 (by decide) 0 (by decide) 0
  exact absurd hadds (by decide +kernel)

end CppTransport.Runtime
