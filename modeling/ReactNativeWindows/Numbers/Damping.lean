import Mathlib.Analysis.SpecialFunctions.Exp

/-! Motions under an exponential envelope come to rest. -/
namespace Numbers

open Filter Topology

variable {rate : ℝ}

theorem tendsto_envelope (h : 0 < rate) :
    Tendsto (fun t : ℝ => Real.exp (-rate * t)) atTop (𝓝 0) := by
  have hTime : Tendsto (fun t : ℝ => rate * t) atTop atTop := tendsto_id.const_mul_atTop h
  have hExp := Real.tendsto_exp_neg_atTop_nhds_zero.comp hTime
  apply hExp.congr
  intro t
  rw [Function.comp_apply, neg_mul]

/-- The envelope wins over whatever stays within bounds. -/
theorem tendsto_envelope_mul_bounded (h : 0 < rate) {motion : ℝ → ℝ} {bound : ℝ}
    (hBound : ∀ t, |motion t| ≤ bound) :
    Tendsto (fun t => Real.exp (-rate * t) * motion t) atTop (𝓝 0) := by
  have hLimit : Tendsto (fun t => Real.exp (-rate * t) * bound) atTop (𝓝 0) := by
    have hMul := (tendsto_envelope h).mul_const bound
    rwa [zero_mul] at hMul
  apply squeeze_zero_norm _ hLimit
  intro t
  rw [Real.norm_eq_abs, abs_mul, abs_of_pos (Real.exp_pos _)]
  exact mul_le_mul_of_nonneg_left (hBound t) (Real.exp_pos _).le

/-- The envelope wins over what grows at a constant speed. -/
theorem tendsto_envelope_mul_linear (h : 0 < rate) (start speed : ℝ) :
    Tendsto (fun t => Real.exp (-rate * t) * (start + speed * t)) atTop (𝓝 0) := by
  have hTime : Tendsto (fun t : ℝ => rate * t) atTop atTop := tendsto_id.const_mul_atTop h
  have hGrow := (Real.tendsto_pow_mul_exp_neg_atTop_nhds_zero 1).comp hTime
  have hSum := ((tendsto_envelope h).mul_const start).add (hGrow.mul_const (speed / rate))
  rw [zero_mul, zero_mul, add_zero] at hSum
  apply hSum.congr
  intro t
  rw [Function.comp_apply, pow_one, neg_mul]
  field_simp

end Numbers
