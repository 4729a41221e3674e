import CppTransport.Runtime.ThreepfDatabase
import Mathlib.Tactic.FieldSimp
import Mathlib.Tactic.LinearCombination
import Mathlib.Tactic.Ring

/-!
# Shape parameters

A triangle is given by its wavenumbers or by their sum `k_t` and two parameters `alpha`
and `beta`. `add_k1k2k3_record` computes the parameters from the wavenumbers,
`add_alphabeta_record` the wavenumbers from the parameters, and each stores all six.

## What is proved

The formulas for `alpha` differ in the leg that it belongs to: on the way to the
wavenumbers and back, or the other way round, the first two legs are exchanged
(`config_alphabeta_config_k1k2k3`), and the sign of `alpha` changes
(`config_k1k2k3_config_alphabeta`). So the two ways of adding a triangle store the same
if and only if the first two legs are equal (`shape_round_trips_iff`).
-/

set_option linter.unusedSectionVars false

namespace CppTransport.Runtime.Kconfig

namespace threepf_kconfig_database

variable {K : Type*} [Field K] [LinearOrder K] [IsStrictOrderedRing K] (db : threepf_kconfig_database K)

/-- The parameters of a triangle, put through the formulas of `add_alphabeta_record`. -/
def from_shape (config : threepf_kconfig K) : threepf_kconfig K :=
  db.config_alphabeta config.kt_conventional config.alpha config.beta

/-- The wavenumbers of a triangle, put through the formulas of `add_k1k2k3_record`. -/
def from_legs (config : threepf_kconfig K) : threepf_kconfig K :=
  db.config_k1k2k3 config.k1_conventional config.k2_conventional config.k3_conventional

/-- `add_k1k2k3_record` divides by the sum of the wavenumbers. -/
def HasShape (config : threepf_kconfig K) : Prop :=
  config.k1_conventional + config.k2_conventional + config.k3_conventional ≠ 0

/-- `alpha` and `beta` in terms of the wavenumbers, without division. -/
theorem shape_config_k1k2k3 {k1 k2 k3 : K} (h : k1 + k2 + k3 ≠ 0) :
    (k1 + k2 + k3) * (db.config_k1k2k3 k1 k2 k3).beta = k1 + k2 - k3 ∧
      (k1 + k2 + k3) * (db.config_k1k2k3 k1 k2 k3).alpha = 2 * (k2 - k1) := by
  simp only [config_k1k2k3]
  constructor
  · field_simp
    ring
  · field_simp
    ring

/-- The first two legs are exchanged. -/
theorem config_alphabeta_config_k1k2k3 {k1 k2 k3 : K} (h : k1 + k2 + k3 ≠ 0) :
    (db.from_shape (db.config_k1k2k3 k1 k2 k3)).k1_conventional = k2 ∧
      (db.from_shape (db.config_k1k2k3 k1 k2 k3)).k2_conventional = k1 ∧
      (db.from_shape (db.config_k1k2k3 k1 k2 k3)).k3_conventional = k3 := by
  obtain ⟨hbeta, halpha⟩ := shape_config_k1k2k3 db h
  have hkt : (db.config_k1k2k3 k1 k2 k3).kt_conventional = k1 + k2 + k3 := rfl
  simp only [from_shape, config_alphabeta, hkt]
  refine ⟨?_, ?_, ?_⟩
  · linear_combination (1 / 4) * halpha + (1 / 4) * hbeta
  · linear_combination -(1 / 4) * halpha + (1 / 4) * hbeta
  · linear_combination -(1 / 2) * hbeta

/-- The sum of the wavenumbers is `k_t`. -/
theorem legs_config_alphabeta (kt alpha beta : K) :
    (db.config_alphabeta kt alpha beta).k1_conventional + (db.config_alphabeta kt alpha beta).k2_conventional
      + (db.config_alphabeta kt alpha beta).k3_conventional = kt := by
  simp only [config_alphabeta]
  ring

/-- `alpha` changes its sign. -/
theorem config_k1k2k3_config_alphabeta {kt : K} (alpha beta : K) (h : kt ≠ 0) :
    (db.from_legs (db.config_alphabeta kt alpha beta)).kt_conventional = kt ∧
      (db.from_legs (db.config_alphabeta kt alpha beta)).alpha = -alpha ∧
      (db.from_legs (db.config_alphabeta kt alpha beta)).beta = beta := by
  have hsum := legs_config_alphabeta db kt alpha beta
  have hbeta : (db.from_legs (db.config_alphabeta kt alpha beta)).beta = beta := by
    simp only [from_legs, config_k1k2k3, hsum]
    simp only [config_alphabeta]
    field_simp
    ring
  have halpha : (db.from_legs (db.config_alphabeta kt alpha beta)).alpha
      = 4 * (db.config_alphabeta kt alpha beta).k2_conventional
          / (db.from_legs (db.config_alphabeta kt alpha beta)).kt_conventional - 1
          - (db.from_legs (db.config_alphabeta kt alpha beta)).beta := rfl
  refine ⟨hsum, ?_, hbeta⟩
  rw [halpha, hbeta, show (db.from_legs _).kt_conventional = kt from hsum]
  simp only [config_alphabeta]
  field_simp
  ring

/-- The two ways of adding a triangle store the same if each gives the parameters and the wavenumbers
of the other. -/
theorem config_alphabeta_eq_config_k1k2k3 {kt alpha beta k1 k2 k3 : K}
    (h1 : (db.config_alphabeta kt alpha beta).k1_conventional = k1)
    (h2 : (db.config_alphabeta kt alpha beta).k2_conventional = k2)
    (h3 : (db.config_alphabeta kt alpha beta).k3_conventional = k3)
    (hkt : (db.config_k1k2k3 k1 k2 k3).kt_conventional = kt)
    (halpha : (db.config_k1k2k3 k1 k2 k3).alpha = alpha)
    (hbeta : (db.config_k1k2k3 k1 k2 k3).beta = beta) :
    db.config_alphabeta kt alpha beta = db.config_k1k2k3 k1 k2 k3 := by
  simp only [config_alphabeta, config_k1k2k3] at h1 h2 h3 hkt halpha hbeta
  rw [hkt] at halpha hbeta
  simp only [config_alphabeta, config_k1k2k3, h1, h2, h3, hkt, threepf_kconfig.mk.injEq, true_and, and_true]
  exact ⟨halpha.symm, hbeta.symm⟩

/-- **Shape parameters and wavenumbers** determine each other, in the same legs, if and only if the
first two legs are equal. -/
theorem shape_round_trips_iff (db : threepf_kconfig_database K) :
    (∀ k1 k2 k3 : K, 0 < k1 → 0 < k2 → 0 < k3 →
      (db.from_shape (db.config_k1k2k3 k1 k2 k3) = db.config_k1k2k3 k1 k2 k3 ↔ k1 = k2)) ∧
    ∀ kt alpha beta : K,
      (HasShape (db.config_alphabeta kt alpha beta) ∧
        db.from_legs (db.config_alphabeta kt alpha beta) = db.config_alphabeta kt alpha beta) ↔
      kt ≠ 0 ∧ alpha = 0 := by
  constructor
  · intro k1 k2 k3 h1 h2 h3
    have hlegs := config_alphabeta_config_k1k2k3 db (show k1 + k2 + k3 ≠ 0 by positivity)
    obtain ⟨hk1, hk2, hk3⟩ := hlegs
    constructor
    · intro h
      rw [h] at hk1
      exact hk1
    · rintro rfl
      exact config_alphabeta_eq_config_k1k2k3 db hk1 hk2 hk3 rfl rfl rfl
  · intro kt alpha beta
    rw [HasShape, legs_config_alphabeta]
    refine and_congr_right fun hkt => ?_
    obtain ⟨hsum, halpha, hbeta⟩ := config_k1k2k3_config_alphabeta db alpha beta hkt
    constructor
    · intro h
      rw [h] at halpha
      exact self_eq_neg.mp halpha
    · rintro rfl
      rw [neg_zero] at halpha
      exact (config_alphabeta_eq_config_k1k2k3 db rfl rfl rfl hsum halpha hbeta).symm

/-- An isosceles triangle comes back. -/
theorem isosceles_round_trips :
    ((create (1 : ℚ)).from_shape ((create 1).config_k1k2k3 1 1 (3 / 2)) = (create 1).config_k1k2k3 1 1 (3 / 2)) ∧
      (create (1 : ℚ)).from_legs ((create 1).config_alphabeta 1 0 (1 / 2)) = (create 1).config_alphabeta 1 0 (1 / 2) :=
  ⟨((shape_round_trips_iff (create 1)).1 1 1 (3 / 2) (by norm_num) (by norm_num) (by norm_num)).mpr rfl,
    (((shape_round_trips_iff (create 1)).2 1 0 (1 / 2)).mpr ⟨one_ne_zero, rfl⟩).2⟩

/-- A triangle with three different sides does not. -/
theorem scalene_not_round_trips :
    (create (1 : ℚ)).from_shape ((create 1).config_k1k2k3 1 2 (5 / 2)) ≠ (create 1).config_k1k2k3 1 2 (5 / 2) := by
  intro h
  have hk1 := (config_alphabeta_config_k1k2k3 (create (1 : ℚ)) (show (1 : ℚ) + 2 + 5 / 2 ≠ 0 by norm_num)).1
  rw [h] at hk1
  exact absurd hk1 (by norm_num [config_k1k2k3])

end threepf_kconfig_database

end CppTransport.Runtime.Kconfig
