import Mathlib.Analysis.SpecialFunctions.Trigonometric.Bounds
import ReactNativeWindows.Numbers.Damping

/-! Animations whose key frames are computed ahead, until they come to rest. Numbers are exact. -/
namespace ReactNative.Animated

open Filter Topology
open Numbers (tendsto_envelope tendsto_envelope_mul_bounded tendsto_envelope_mul_linear)

/-- What a driver computes from the value its node started with. -/
structure CalculatedAnimationDriver where
  iterations : ℤ
  getValueAndVelocityForTime : (originalValue time : ℝ) → ℝ × ℝ
  isAnimationDone :
    (originalValue currentValue : ℝ) → (previousValue : Option ℝ) → (currentVelocity : ℝ) → Prop

structure ScalarKeyFrameAnimation where
  duration : ℤ
  keyFrames : List (ℝ × ℝ)
  iterationCount : Option ℤ

namespace CalculatedAnimationDriver

open Classical in
noncomputable def makeKeyFrames (driver : CalculatedAnimationDriver) (originalValue : ℝ) :
    ℕ → ℝ → Option ℝ → List ℝ → Option (List ℝ)
  | 0, _, _, _ => none
  | fuel + 1, time, previousValue, keyFrames =>
    let time := time + 1 / 60
    let (currentValue, currentVelocity) := driver.getValueAndVelocityForTime originalValue time
    let keyFrames := keyFrames ++ [currentValue]
    if driver.isAnimationDone originalValue currentValue previousValue currentVelocity then
      some keyFrames
    else driver.makeKeyFrames originalValue fuel time (some currentValue) keyFrames

/-- The key frames spread evenly over the progress of the animation. -/
noncomputable def insertKeyFrames (count : ℕ) : ℝ → List ℝ → List (ℝ × ℝ)
  | _, [] => []
  | normalizedProgress, keyFrame :: keyFrames =>
    let normalizedProgress := min (normalizedProgress + 1 / count) 1
    (normalizedProgress, keyFrame) :: insertKeyFrames count normalizedProgress keyFrames

noncomputable def makeAnimation (driver : CalculatedAnimationDriver) (rawValue : ℝ) (fuel : ℕ) :
    Option ScalarKeyFrameAnimation :=
  (driver.makeKeyFrames rawValue fuel 0 none []).map fun keyFrames =>
    { duration := ⌊(keyFrames.length : ℝ) / 60 * 1000⌋
      keyFrames := (0, rawValue) :: insertKeyFrames keyFrames.length 0 keyFrames
      iterationCount := if driver.iterations = -1 then none else some driver.iterations }

variable (driver : CalculatedAnimationDriver) (originalValue : ℝ)

noncomputable def frameValue (frame : ℕ) : ℝ :=
  (driver.getValueAndVelocityForTime originalValue (frame / 60)).1

noncomputable def frameVelocity (frame : ℕ) : ℝ :=
  (driver.getValueAndVelocityForTime originalValue (frame / 60)).2

/-- What the loop remembers of the frame before. -/
noncomputable def previousFrame : ℕ → Option ℝ
  | 0 => none
  | 1 => none
  | frame + 2 => some (driver.frameValue originalValue (frame + 1))

def DoneAt (frame : ℕ) : Prop :=
  driver.isAnimationDone originalValue (driver.frameValue originalValue frame)
    (driver.previousFrame originalValue frame) (driver.frameVelocity originalValue frame)

variable {frame : ℕ}

theorem previousFrame_succ (h : frame ≠ 0) :
    driver.previousFrame originalValue (frame + 1) =
      some (driver.frameValue originalValue frame) := by
  cases frame with
  | zero => exact absurd rfl h
  | succ frame => rfl

/-- One round of the loop makes the next frame. -/
theorem makeKeyFrames_succ (fuel frame : ℕ) (keyFrames : List ℝ) :
    driver.makeKeyFrames originalValue (fuel + 1) (frame / 60)
        (driver.previousFrame originalValue (frame + 1)) keyFrames =
      open Classical in
      if driver.DoneAt originalValue (frame + 1) then
        some (keyFrames ++ [driver.frameValue originalValue (frame + 1)])
      else driver.makeKeyFrames originalValue fuel ((frame + 1 : ℕ) / 60)
        (driver.previousFrame originalValue (frame + 2))
        (keyFrames ++ [driver.frameValue originalValue (frame + 1)]) := by
  have hTime : (frame / 60 + 1 / 60 : ℝ) = (frame + 1 : ℕ) / 60 := by
    push_cast
    ring
  rw [makeKeyFrames, hTime]
  rfl

/-- A frame at which the animation is done ends the loop, if nothing ended it before. -/
theorem exists_makeKeyFrames (hDone : driver.DoneAt originalValue frame) (rounds start : ℕ)
    (hFrame : start + rounds + 1 = frame) (keyFrames : List ℝ) :
    ∃ frames, driver.makeKeyFrames originalValue (rounds + 1) (start / 60)
      (driver.previousFrame originalValue (start + 1)) keyFrames = some frames := by
  induction rounds generalizing start keyFrames with
  | zero =>
    have hLast : driver.DoneAt originalValue (start + 1) := by
      rwa [← hFrame] at hDone
    rw [makeKeyFrames_succ, if_pos hLast]
    exact ⟨_, rfl⟩
  | succ rounds ih =>
    rw [makeKeyFrames_succ]
    split_ifs with hNow
    · exact ⟨_, rfl⟩
    · apply ih (start + 1)
      omega

theorem makeAnimation_of_doneAt (hDone : driver.DoneAt originalValue (frame + 1)) :
    ∃ animation, driver.makeAnimation originalValue (frame + 1) = some animation := by
  obtain ⟨frames, hFrames⟩ :=
    driver.exists_makeKeyFrames originalValue hDone frame 0 (by omega) []
  have hStart : driver.makeKeyFrames originalValue (frame + 1) 0 none [] = some frames := by
    rw [Nat.cast_zero, zero_div] at hFrames
    exact hFrames
  rw [makeAnimation, hStart]
  exact ⟨_, rfl⟩

/-- The times of the frames go on without bound. -/
theorem tendsto_frameTime : Tendsto (fun frame : ℕ => (frame / 60 : ℝ)) atTop atTop := by
  apply Tendsto.atTop_div_const (by norm_num)
  exact tendsto_natCast_atTop_atTop

/-- From where value and velocity no longer leave what counts as done, the loop ends. -/
theorem makeAnimation_of_eventually
    (h : ∀ᶠ frame in atTop, driver.DoneAt originalValue (frame + 1)) :
    ∃ fuel animation, driver.makeAnimation originalValue fuel = some animation := by
  obtain ⟨frame, hDone⟩ := h.exists
  exact ⟨frame + 1, driver.makeAnimation_of_doneAt originalValue hDone⟩

end CalculatedAnimationDriver

structure SpringAnimationDriver where
  useComposition : Bool
  springStiffness : ℝ
  springDamping : ℝ
  springMass : ℝ
  initialVelocity : ℝ
  endValue : ℝ
  restSpeedThreshold : ℝ
  displacementFromRestThreshold : ℝ
  overshootClampingEnabled : Bool
  iterations : ℤ
  dynamicToValues : List ℝ

namespace SpringAnimationDriver

variable (driver : SpringAnimationDriver) (startValue : ℝ)

/-- The target may move while it is given frame by frame. -/
noncomputable def toValue (time : ℝ) : ℝ :=
  if driver.useComposition then
    match driver.dynamicToValues[⌊time * 60⌋₊]? with
    | some value => startValue + value * (driver.endValue - startValue)
    | none => driver.endValue
  else driver.endValue

noncomputable def zeta : ℝ :=
  driver.springDamping / (2 * √(driver.springStiffness * driver.springMass))

noncomputable def omega0 : ℝ := √(driver.springStiffness / driver.springMass)

noncomputable def omega1 : ℝ := driver.omega0 * √(1 - driver.zeta * driver.zeta)

/-- The spring at a time, `x0` away from its target at the start. -/
noncomputable def oscillate (x0 toValue time : ℝ) : ℝ × ℝ :=
  let v0 := -driver.initialVelocity
  let zeta := driver.zeta
  let omega0 := driver.omega0
  let omega1 := driver.omega1
  if zeta < 1 then
    let envelope := Real.exp (-zeta * omega0 * time)
    (toValue - envelope *
        ((v0 + zeta * omega0 * x0) / omega1 * Real.sin (omega1 * time) +
          x0 * Real.cos (omega1 * time)),
      zeta * omega0 * envelope *
          (Real.sin (omega1 * time) * (v0 + zeta * omega0 * x0) / omega1 +
            x0 * Real.cos (omega1 * time)) -
        envelope * (Real.cos (omega1 * time) * (v0 + zeta * omega0 * x0) -
          omega1 * x0 * Real.sin (omega1 * time)))
  else
    let envelope := Real.exp (-omega0 * time)
    (driver.endValue - envelope * (x0 + (v0 + omega0 * x0) * time),
      envelope * (v0 * (time * omega0 - 1) + time * x0 * (omega0 * omega0)))

noncomputable def getValueAndVelocityForTime (time : ℝ) : ℝ × ℝ :=
  let toValue := driver.toValue startValue time
  driver.oscillate (toValue - startValue) toValue time

def isAtRest (currentVelocity currentValue endValue : ℝ) : Prop :=
  |currentVelocity| ≤ driver.restSpeedThreshold ∧
    (|currentValue - endValue| ≤ driver.displacementFromRestThreshold ∨
      driver.springStiffness = 0)

def isOvershooting (currentValue : ℝ) : Prop :=
  0 < driver.springStiffness ∧
    ((startValue < driver.endValue ∧ driver.endValue < currentValue) ∨
      (driver.endValue < startValue ∧ currentValue < driver.endValue))

/-- The frame before does not matter to a spring. -/
def isAnimationDone (currentValue : ℝ) (_previousValue : Option ℝ) (currentVelocity : ℝ) : Prop :=
  driver.isAtRest currentVelocity currentValue driver.endValue ∨
    (driver.overshootClampingEnabled ∧ driver.isOvershooting startValue currentValue)

noncomputable def calculated : CalculatedAnimationDriver :=
  { iterations := driver.iterations
    getValueAndVelocityForTime := driver.getValueAndVelocityForTime
    isAnimationDone := driver.isAnimationDone }

/-- Stiffness, damping and mass of a spring, and thresholds it can fall below. -/
structure Physical : Prop where
  stiffness : 0 < driver.springStiffness
  damping : 0 < driver.springDamping
  mass : 0 < driver.springMass
  restSpeed : 0 < driver.restSpeedThreshold
  displacement : 0 < driver.displacementFromRestThreshold

variable {driver}

theorem Physical.omega0_pos (h : driver.Physical) : 0 < driver.omega0 :=
  Real.sqrt_pos.mpr (div_pos h.stiffness h.mass)

theorem Physical.zeta_pos (h : driver.Physical) : 0 < driver.zeta := by
  have hRoot : 0 < √(driver.springStiffness * driver.springMass) :=
    Real.sqrt_pos.mpr (mul_pos h.stiffness h.mass)
  exact div_pos h.damping (mul_pos two_pos hRoot)

/-- The moving target has been passed after as many frames as it has. -/
theorem eventually_toValue :
    ∀ᶠ time in atTop, driver.toValue startValue time = driver.endValue := by
  filter_upwards [eventually_ge_atTop (driver.dynamicToValues.length : ℝ)] with time hTime
  have hFrame : driver.dynamicToValues.length ≤ ⌊time * 60⌋₊ := by
    apply Nat.le_floor
    have hNonneg : (0 : ℝ) ≤ driver.dynamicToValues.length := Nat.cast_nonneg _
    linarith
  rw [toValue, List.getElem?_eq_none hFrame]
  split_ifs <;> rfl

theorem abs_wave_le (a b phase : ℝ) : |a * Real.sin phase + b * Real.cos phase| ≤ |a| + |b| := by
  have hSin : |a * Real.sin phase| ≤ |a| := by
    rw [abs_mul]
    exact mul_le_of_le_one_right (abs_nonneg a) (Real.abs_sin_le_one phase)
  have hCos : |b * Real.cos phase| ≤ |b| := by
    rw [abs_mul]
    exact mul_le_of_le_one_right (abs_nonneg b) (Real.abs_cos_le_one phase)
  exact (abs_add_le _ _).trans (add_le_add hSin hCos)

variable (h : driver.Physical)
include h

/-- A wave under the envelope of the spring. -/
theorem Physical.tendsto_wave (a b : ℝ) :
    Tendsto (fun time => Real.exp (-driver.zeta * driver.omega0 * time) *
      (a * Real.sin (driver.omega1 * time) + b * Real.cos (driver.omega1 * time)))
      atTop (𝓝 0) := by
  have hRate : 0 < driver.zeta * driver.omega0 := mul_pos h.zeta_pos h.omega0_pos
  have hWave := tendsto_envelope_mul_bounded hRate
    (fun time => abs_wave_le a b (driver.omega1 * time))
  rwa [← neg_mul] at hWave

/-- Below the critical damping the spring swings into its target. -/
theorem Physical.tendsto_underdamped (hZeta : driver.zeta < 1) (x0 : ℝ) :
    Tendsto (fun time => (driver.oscillate x0 driver.endValue time).1) atTop
        (𝓝 driver.endValue) ∧
      Tendsto (fun time => (driver.oscillate x0 driver.endValue time).2) atTop (𝓝 0) := by
  constructor
  · have hWave := h.tendsto_wave
      ((-driver.initialVelocity + driver.zeta * driver.omega0 * x0) / driver.omega1) x0
    have hValue := hWave.const_sub driver.endValue
    rw [sub_zero] at hValue
    apply hValue.congr
    intro time
    rw [oscillate, if_pos hZeta]
  · have hFirst := (h.tendsto_wave
      ((-driver.initialVelocity + driver.zeta * driver.omega0 * x0) / driver.omega1) x0).const_mul
        (driver.zeta * driver.omega0)
    have hSecond := h.tendsto_wave (-(driver.omega1 * x0))
      (-driver.initialVelocity + driver.zeta * driver.omega0 * x0)
    have hVelocity := hFirst.sub hSecond
    rw [mul_zero, sub_zero] at hVelocity
    apply hVelocity.congr
    intro time
    rw [oscillate, if_pos hZeta]
    ring

/-- From the critical damping on it creeps there. -/
theorem Physical.tendsto_overdamped (hZeta : ¬driver.zeta < 1) (x0 : ℝ) :
    Tendsto (fun time => (driver.oscillate x0 driver.endValue time).1) atTop
        (𝓝 driver.endValue) ∧
      Tendsto (fun time => (driver.oscillate x0 driver.endValue time).2) atTop (𝓝 0) := by
  constructor
  · have hLinear := tendsto_envelope_mul_linear h.omega0_pos x0
      (-driver.initialVelocity + driver.omega0 * x0)
    have hValue := hLinear.const_sub driver.endValue
    rw [sub_zero] at hValue
    apply hValue.congr
    intro time
    rw [oscillate, if_neg hZeta]
  · have hLinear := tendsto_envelope_mul_linear h.omega0_pos driver.initialVelocity
      (-driver.initialVelocity * driver.omega0 + x0 * (driver.omega0 * driver.omega0))
    apply hLinear.congr
    intro time
    rw [oscillate, if_neg hZeta]
    ring

theorem Physical.tendsto_value :
    Tendsto (fun time => (driver.getValueAndVelocityForTime startValue time).1) atTop
      (𝓝 driver.endValue) := by
  have hLimit : Tendsto (fun time => (driver.oscillate (driver.endValue - startValue)
      driver.endValue time).1) atTop (𝓝 driver.endValue) := by
    by_cases hZeta : driver.zeta < 1
    · exact (h.tendsto_underdamped hZeta _).1
    · exact (h.tendsto_overdamped hZeta _).1
  apply hLimit.congr'
  filter_upwards [eventually_toValue startValue] with time hTime
  rw [getValueAndVelocityForTime, hTime]

theorem Physical.tendsto_velocity :
    Tendsto (fun time => (driver.getValueAndVelocityForTime startValue time).2) atTop (𝓝 0) := by
  have hLimit : Tendsto (fun time => (driver.oscillate (driver.endValue - startValue)
      driver.endValue time).2) atTop (𝓝 0) := by
    by_cases hZeta : driver.zeta < 1
    · exact (h.tendsto_underdamped hZeta _).2
    · exact (h.tendsto_overdamped hZeta _).2
  apply hLimit.congr'
  filter_upwards [eventually_toValue startValue] with time hTime
  rw [getValueAndVelocityForTime, hTime]

/-- Value and velocity fall below the thresholds and stay there. -/
theorem Physical.eventually_isAtRest :
    ∀ᶠ time in atTop, driver.isAtRest (driver.getValueAndVelocityForTime startValue time).2
      (driver.getValueAndVelocityForTime startValue time).1 driver.endValue := by
  have hSpeed := Metric.tendsto_nhds.mp (h.tendsto_velocity startValue) _ h.restSpeed
  have hNear := Metric.tendsto_nhds.mp (h.tendsto_value startValue) _ h.displacement
  filter_upwards [hSpeed, hNear] with time hSlow hClose
  rw [Real.dist_eq, sub_zero] at hSlow
  rw [Real.dist_eq] at hClose
  exact ⟨hSlow.le, Or.inl hClose.le⟩

theorem Physical.eventually_doneAt :
    ∀ᶠ frame in atTop, driver.calculated.DoneAt startValue (frame + 1) := by
  have hTimes := CalculatedAnimationDriver.tendsto_frameTime.comp (tendsto_add_atTop_nat 1)
  filter_upwards [hTimes.eventually (h.eventually_isAtRest startValue)] with frame hRest
  exact Or.inl hRest

end SpringAnimationDriver

structure DecayAnimationDriver where
  velocity : ℝ
  deceleration : ℝ
  iterations : ℤ

namespace DecayAnimationDriver

variable (driver : DecayAnimationDriver) (originalValue : ℝ)

/-- The velocity is not needed, and a dummy stands for it. -/
noncomputable def getValueAndVelocityForTime (time : ℝ) : ℝ × ℝ :=
  (originalValue + driver.velocity / (1 - driver.deceleration) *
    (1 - Real.exp (-(1 - driver.deceleration) * (1000 * time))), 42)

def isAnimationDone (_originalValue currentValue : ℝ) (previousValue : Option ℝ)
    (_currentVelocity : ℝ) : Prop :=
  ∃ previous ∈ previousValue, |currentValue - previous| < 0.1

noncomputable def calculated : CalculatedAnimationDriver :=
  { iterations := driver.iterations
    getValueAndVelocityForTime := driver.getValueAndVelocityForTime
    isAnimationDone := isAnimationDone }

variable {driver}

/-- Below 1 the deceleration stops the motion at a limit of its own. -/
theorem tendsto_value (h : driver.deceleration < 1) :
    Tendsto (fun time => (driver.getValueAndVelocityForTime originalValue time).1) atTop
      (𝓝 (originalValue + driver.velocity / (1 - driver.deceleration))) := by
  have hRate : 0 < (1 - driver.deceleration) * 1000 := by linarith
  have hGap := (tendsto_envelope hRate).const_sub 1
  have hValue := (hGap.const_mul (driver.velocity / (1 - driver.deceleration))).const_add
    originalValue
  rw [sub_zero, mul_one] at hValue
  apply hValue.congr
  intro time
  rw [getValueAndVelocityForTime, neg_mul, neg_mul, mul_assoc]

theorem eventually_doneAt (h : driver.deceleration < 1) :
    ∀ᶠ frame in atTop, driver.calculated.DoneAt originalValue (frame + 1) := by
  have hValues := (tendsto_value originalValue h).comp CalculatedAnimationDriver.tendsto_frameTime
  have hStep := (hValues.comp (tendsto_add_atTop_nat 1)).sub hValues
  rw [sub_self] at hStep
  filter_upwards [Metric.tendsto_nhds.mp hStep 0.1 (by norm_num), eventually_ne_atTop 0]
    with frame hNear hFrame
  rw [Real.dist_eq, sub_zero] at hNear
  refine ⟨driver.calculated.frameValue originalValue frame, ?_, hNear⟩
  exact driver.calculated.previousFrame_succ originalValue hFrame

end DecayAnimationDriver

/-- Springs of any damping come to rest, and so does whatever is slowed down: the loop that makes
their key frames ends. -/
theorem makeAnimation_ends :
    (∀ (driver : SpringAnimationDriver) (rawValue : ℝ), driver.Physical →
      ∃ fuel animation, driver.calculated.makeAnimation rawValue fuel = some animation) ∧
    ∀ (driver : DecayAnimationDriver) (rawValue : ℝ), 0 < driver.deceleration →
      driver.deceleration < 1 →
      ∃ fuel animation, driver.calculated.makeAnimation rawValue fuel = some animation := by
  constructor
  · intro driver rawValue hPhysical
    exact driver.calculated.makeAnimation_of_eventually rawValue
      (hPhysical.eventually_doneAt rawValue)
  · intro driver rawValue _ hBelow
    exact driver.calculated.makeAnimation_of_eventually rawValue
      (DecayAnimationDriver.eventually_doneAt rawValue hBelow)

def gentleSpring : SpringAnimationDriver :=
  { useComposition := true, springStiffness := 100, springDamping := 10, springMass := 1,
    initialVelocity := -3, endValue := 1, restSpeedThreshold := 0.001,
    displacementFromRestThreshold := 0.001, overshootClampingEnabled := false, iterations := 1,
    dynamicToValues := [0.5, 0.9] }

theorem gentleSpring_physical : gentleSpring.Physical where
  stiffness := by norm_num [gentleSpring]
  damping := by norm_num [gentleSpring]
  mass := by norm_num [gentleSpring]
  restSpeed := by norm_num [gentleSpring]
  displacement := by norm_num [gentleSpring]

theorem gentleSpring_ends :
    (∃ fuel animation, gentleSpring.calculated.makeAnimation 0 fuel = some animation) ∧
      ∃ fuel animation,
        (DecayAnimationDriver.calculated ⟨2, 0.997, 1⟩).makeAnimation 0 fuel = some animation :=
  ⟨makeAnimation_ends.1 gentleSpring 0 gentleSpring_physical,
    makeAnimation_ends.2 ⟨2, 0.997, 1⟩ 0 (by norm_num) (by norm_num)⟩

end ReactNative.Animated
