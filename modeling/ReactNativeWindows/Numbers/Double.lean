import Mathlib.Data.Nat.Size
import Mathlib.Data.Rat.Floor

/-! Double-precision numbers, and the conversions between them and 64-bit integers. -/
namespace Numbers

/-- Whether a rational has a finite double: 53 bits of mantissa, and the exponents from the
subnormal ones on. -/
def Representable (q : ℚ) : Prop :=
  ∃ m e : ℤ, |m| < 2 ^ 53 ∧ -1074 ≤ e ∧ e ≤ 971 ∧ q = m * (2 : ℚ) ^ e

/-- A double by its value. The sign of a zero and the bits of a NaN are left out. -/
inductive Double where
  | finite (value : ℚ) (representable : Representable value)
  | infinity (negative : Bool)
  | nan
  deriving DecidableEq

theorem Representable.neg {q : ℚ} (h : Representable q) : Representable (-q) := by
  obtain ⟨m, e, hMantissa, hLow, hHigh, rfl⟩ := h
  refine ⟨-m, e, ?_, hLow, hHigh, ?_⟩
  · rwa [abs_neg]
  · rw [Int.cast_neg, neg_mul]

theorem representable_natCast {m e : ℕ} (hMantissa : m ≤ 2 ^ 53) (hExponent : e ≤ 970) :
    Representable ((m * 2 ^ e : ℕ) : ℚ) := by
  rcases hMantissa.lt_or_eq with hLt | rfl
  · refine ⟨m, e, ?_, by omega, by omega, ?_⟩
    · rw [Nat.abs_cast]
      exact_mod_cast hLt
    · push_cast
      rw [zpow_natCast]
  · refine ⟨2 ^ 52, e + 1, by decide, by omega, by omega, ?_⟩
    push_cast
    rw [zpow_add₀ (by decide), zpow_natCast]
    ring

theorem representable_zero : Representable 0 := by
  have h := representable_natCast (m := 0) (e := 0) (Nat.zero_le _) (Nat.zero_le _)
  simpa using h

/-- `n / 2 ^ k` to the nearest integer, ties to the even one. -/
def divRound (n k : ℕ) : ℕ :=
  if 2 * (n % 2 ^ k) < 2 ^ k ∨ (2 * (n % 2 ^ k) = 2 ^ k ∧ n / 2 ^ k % 2 = 0) then n / 2 ^ k
  else n / 2 ^ k + 1

/-- How many of the bits of `n` do not fit into the mantissa. -/
def excess (n : ℕ) : ℕ := n.size - 53

/-- The double next to `n`. -/
def nearest (n : ℕ) : ℕ := divRound n (excess n) * 2 ^ excess n

theorem div_excess_lt (n : ℕ) : n / 2 ^ excess n < 2 ^ 53 := by
  have hSize : n < 2 ^ n.size := Nat.lt_size_self n
  rw [Nat.div_lt_iff_lt_mul (Nat.two_pow_pos _), ← Nat.pow_add]
  refine lt_of_lt_of_le hSize (Nat.pow_le_pow_right (by decide) ?_)
  rw [excess]
  omega

theorem divRound_excess_le (n : ℕ) : divRound n (excess n) ≤ 2 ^ 53 := by
  have hLt := div_excess_lt n
  rw [divRound]
  split <;> omega

variable {n : ℕ}

theorem excess_le (h : n ≤ 2 ^ 63) : excess n ≤ 11 := by
  have hSize : n.size ≤ 64 := Nat.size_le.mpr (lt_of_le_of_lt h (by decide))
  rw [excess]
  omega

theorem representable_nearest (h : n ≤ 2 ^ 63) : Representable (nearest n : ℚ) :=
  representable_natCast (divRound_excess_le n) ((excess_le h).trans (by decide))

/-- The exponent of a long whole number reaches its excess, or the mantissa would be longer. -/
theorem excess_le_exponent {m e : ℤ} (hExcess : 0 < excess n) (hMantissa : |m| < 2 ^ 53)
    (h : (n : ℚ) = m * (2 : ℚ) ^ e) : (excess n : ℤ) ≤ e := by
  by_contra hLt
  have hBits : 2 ^ (52 + excess n) ≤ n := by
    rw [← Nat.lt_size]
    rw [excess] at hExcess ⊢
    omega
  have hPower : (2 : ℚ) ^ e ≤ 2 ^ ((excess n : ℤ) - 1) :=
    zpow_le_zpow_right₀ one_le_two (by omega)
  have hUpper : (m : ℚ) * (2 : ℚ) ^ e < 2 ^ (53 : ℤ) * 2 ^ ((excess n : ℤ) - 1) := by
    have hCast : ((|m| : ℤ) : ℚ) < 2 ^ (53 : ℤ) := by exact_mod_cast hMantissa
    rw [Int.cast_abs] at hCast
    calc (m : ℚ) * (2 : ℚ) ^ e ≤ |(m : ℚ)| * 2 ^ ((excess n : ℤ) - 1) :=
          mul_le_mul (le_abs_self _) hPower (zpow_nonneg zero_le_two e) (abs_nonneg _)
      _ < 2 ^ (53 : ℤ) * 2 ^ ((excess n : ℤ) - 1) :=
          mul_lt_mul_of_pos_right hCast (zpow_pos two_pos _)
  rw [← h, ← zpow_add₀ two_ne_zero,
    show (53 : ℤ) + ((excess n : ℤ) - 1) = ((52 + excess n : ℕ) : ℤ) by push_cast; ring,
    zpow_natCast] at hUpper
  exact absurd (by exact_mod_cast hUpper) (Nat.not_lt.mpr hBits)

/-- A whole number with a double is a multiple of what rounding drops. -/
theorem excess_dvd (h : Representable (n : ℚ)) : 2 ^ excess n ∣ n := by
  obtain ⟨m, e, hMantissa, -, -, hEq⟩ := h
  rcases Nat.eq_zero_or_pos (excess n) with hZero | hPos
  · rw [hZero]
    exact one_dvd n
  · have hLe := excess_le_exponent hPos hMantissa hEq
    obtain ⟨j, rfl⟩ : ∃ j : ℕ, e = excess n + j := ⟨(e - excess n).toNat, by omega⟩
    have hInt : (n : ℤ) = 2 ^ excess n * (m * 2 ^ j) := by
      rw [zpow_add₀ two_ne_zero, zpow_natCast, zpow_natCast] at hEq
      have hRat : (n : ℚ) = 2 ^ excess n * (m * 2 ^ j) := by rw [hEq]; ring
      exact_mod_cast hRat
    have hDvd : ((2 ^ excess n : ℕ) : ℤ) ∣ n := ⟨m * 2 ^ j, by exact_mod_cast hInt⟩
    exact Int.natCast_dvd_natCast.mp hDvd

theorem nearest_eq (h : Representable (n : ℚ)) : nearest n = n := by
  have hMod : n % 2 ^ excess n = 0 := Nat.mod_eq_zero_of_dvd (excess_dvd h)
  have hRound : divRound n (excess n) = n / 2 ^ excess n := by
    rw [divRound, hMod]
    exact if_pos (Or.inl (Nat.two_pow_pos _))
  rw [nearest, hRound, Nat.div_mul_cancel (excess_dvd h)]

namespace Double

theorem representable_ofInt {i : ℤ} (h : i.natAbs ≤ 2 ^ 63) :
    Representable ((i.sign * nearest i.natAbs : ℤ) : ℚ) := by
  rcases lt_trichotomy i 0 with hNeg | rfl | hPos
  · rw [Int.sign_eq_neg_one_of_neg hNeg]
    push_cast
    rw [neg_one_mul]
    exact (representable_nearest h).neg
  · exact_mod_cast representable_zero
  · rw [Int.sign_eq_one_of_pos hPos, one_mul, Int.cast_natCast]
    exact representable_nearest h

/-- `static_cast<double>` of a 64-bit integer. -/
def ofInt64 (i : Int64) : Double :=
  .finite ((i.toInt.sign * nearest i.toInt.natAbs : ℤ) : ℚ)
    (representable_ofInt (by have := i.le_toInt; have := i.toInt_lt; omega))

/-- `static_cast<int64_t>`, which drops the fraction. C++ leaves the result undefined where it
does not fit; `undefined` is what the machine makes of it. -/
def toInt64 (undefined : Double → Int64) : Double → Int64
  | .finite q h =>
    if -2 ^ 63 ≤ q.num.tdiv q.den ∧ q.num.tdiv q.den < 2 ^ 63 then .ofInt (q.num.tdiv q.den)
    else undefined (.finite q h)
  | x => undefined x

/-- `std::floor(x) == x`. -/
def isFloor : Double → Bool
  | .finite q _ => (q.floor : ℚ) == q
  | .infinity _ => true
  | .nan => false

/-- The double is this 64-bit integer. -/
def IsInt64 (x : Double) (i : Int64) : Prop := ∃ h, x = .finite (i.toInt : ℚ) h

variable {x : Double} {i : Int64}

theorem toInt64_eq (undefined : Double → Int64) (h : x.IsInt64 i) : x.toInt64 undefined = i := by
  obtain ⟨hRepresentable, rfl⟩ := h
  have hLow := i.le_toInt
  have hHigh := i.toInt_lt
  rw [toInt64, Rat.num_intCast, Rat.den_intCast, Nat.cast_one, Int.tdiv_one,
    if_pos ⟨hLow, hHigh⟩, Int64.ofInt_toInt]

theorem ofInt64_eq (h : x.IsInt64 i) : ofInt64 i = x := by
  obtain ⟨hRepresentable, rfl⟩ := h
  have hAbs : Representable (i.toInt.natAbs : ℚ) := by
    rcases Int.natAbs_eq i.toInt with hPos | hNeg
    · rw [hPos, Int.cast_natCast] at hRepresentable
      exact hRepresentable
    · rw [hNeg, Int.cast_neg, Int.cast_natCast] at hRepresentable
      have h := hRepresentable.neg
      rwa [neg_neg] at h
  have hValue : i.toInt.sign * (nearest i.toInt.natAbs : ℤ) = i.toInt := by
    rw [nearest_eq hAbs, Int.sign_mul_natAbs]
  simp only [ofInt64, hValue]

theorem isFloor_of_isInt64 (h : x.IsInt64 i) : x.isFloor = true := by
  obtain ⟨hRepresentable, rfl⟩ := h
  rw [isFloor, beq_iff_eq]
  exact congrArg _ (Rat.floor_intCast i.toInt)

end Double

end Numbers
