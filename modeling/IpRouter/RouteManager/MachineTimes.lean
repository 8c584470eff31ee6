import IpRouter.RouteManager.Operations

/-!
# Times on 64-bit integers

In the code a time to live is a `long long`, and a time a `time_t` of 64 bits. The
operations of the route manager compute with integers here. What is computed with
times is little: the guard and the sum of `add`, and the test of the worker. These
are given once more on machine integers, where a sum or a difference wraps; for
times the clock can read they give what the operations give, because nothing that
is computed leaves the 64 bits.
-/

namespace IpRouter.RouteManager

open Theory

/-- A value of a 64-bit integer. -/
def Fits (v : ℤ) : Prop := int64Min ≤ v ∧ v ≤ int64Max

/-- A time the clock can read. -/
def ClockTime (t : ℤ) : Prop := 0 ≤ t ∧ t ≤ int64Max

theorem ClockTime.fits {t : ℤ} (h : ClockTime t) : Fits t := ⟨le_trans (by decide) h.1, h.2⟩

theorem toInt_ofInt {v : ℤ} (h : Fits v) : (Int64.ofInt v).toInt = v := by
  obtain ⟨hmin, hmax⟩ := h
  simp only [int64Min, int64Max] at hmin hmax
  exact Int64.toInt_ofInt_of_le (by omega) (by omega)

/-- A difference that fits does not wrap. -/
theorem toInt_sub {a b : ℤ} (ha : Fits a) (hb : Fits b) (h : Fits (a - b)) :
    (Int64.ofInt a - Int64.ofInt b).toInt = a - b := by
  obtain ⟨hmin, hmax⟩ := h
  simp only [int64Min, int64Max] at hmin hmax
  rw [Int64.toInt_sub, toInt_ofInt ha, toInt_ofInt hb]
  exact Int.bmod_eq_of_le (by omega) (by omega)

/-- A sum that fits does not wrap. -/
theorem toInt_add {a b : ℤ} (ha : Fits a) (hb : Fits b) (h : Fits (a + b)) :
    (Int64.ofInt a + Int64.ofInt b).toInt = a + b := by
  obtain ⟨hmin, hmax⟩ := h
  simp only [int64Min, int64Max] at hmin hmax
  rw [Int64.toInt_add, toInt_ofInt ha, toInt_ofInt hb]
  exact Int.bmod_eq_of_le (by omega) (by omega)

/-- What is left of the clock can be computed, and how long ago an attempt was. -/
theorem ClockTime.fits_sub {t u : ℤ} (ht : ClockTime t) (hu : ClockTime u) : Fits (t - u) := by
  obtain ⟨ht₀, ht₁⟩ := ht
  obtain ⟨hu₀, hu₁⟩ := hu
  constructor
  · simp only [int64Min, int64Max] at *
    omega
  · omega

/-! ### The code on machine integers -/

/-- `ttl > maximum - now`, for a `ttl` that is positive. -/
def tooLarge64 (now ttl : Int64) : Bool := 0 < ttl && Int64.maxValue - now < ttl

/-- `expires_at` of `add`. -/
def expiration64 (now ttl : Int64) : Int64 := if 0 < ttl then now + ttl else 0

/-- The test of `expire_routes`. -/
def keep64 (expiresAt lastAttempt now : Int64) : Bool :=
  expiresAt ≤ 0 || now < expiresAt || (0 < lastAttempt && now - lastAttempt < 30)

variable {now ttl : ℤ}

theorem ofInt_pos (h : Fits ttl) : 0 < Int64.ofInt ttl ↔ 0 < ttl := by
  rw [Int64.lt_iff_toInt_lt, toInt_ofInt h, Int64.toInt_zero]

/-- The guard of `add` is computed without wrapping. -/
theorem tooLarge64_eq (hnow : ClockTime now) (httl : Fits ttl) :
    tooLarge64 (Int64.ofInt now) (Int64.ofInt ttl) = decide (0 < ttl ∧ int64Max - now < ttl) := by
  have hmax : Int64.maxValue = Int64.ofInt int64Max := by decide
  have hleft : Int64.maxValue - Int64.ofInt now < Int64.ofInt ttl ↔ int64Max - now < ttl := by
    rw [Int64.lt_iff_toInt_lt, hmax, toInt_ofInt httl,
      toInt_sub ⟨by decide, le_refl _⟩ hnow.fits (ClockTime.fits_sub ⟨by decide, le_refl _⟩ hnow)]
  rw [tooLarge64, Bool.eq_iff_iff, Bool.and_eq_true, decide_eq_true_eq, decide_eq_true_eq,
    decide_eq_true_eq, ofInt_pos httl, hleft]

/-- A time to live that passes the guard gives the sum. -/
theorem expiration64_eq (hnow : ClockTime now) (httl : Fits ttl)
    (hfits : 0 < ttl → ttl ≤ int64Max - now) :
    (expiration64 (Int64.ofInt now) (Int64.ofInt ttl)).toInt = expiration now ttl := by
  obtain ⟨hnow₀, -⟩ := id hnow
  rw [expiration64, expiration]
  by_cases hpos : 0 < ttl
  · have hsum : Fits (now + ttl) := by
      have hmax := hfits hpos
      have hmin : int64Min ≤ 0 := by decide
      constructor <;> omega
    rw [if_pos hpos, if_pos ((ofInt_pos httl).mpr hpos), toInt_add hnow.fits httl hsum]
  · rw [if_neg hpos, if_neg fun h => hpos ((ofInt_pos httl).mp h), Int64.toInt_zero]

/-- **The worker's test** is computed without wrapping. -/
theorem keep64_eq (metadata : RouteMetadata) (hnow : ClockTime now)
    (hexpires : Fits metadata.expiresAt) (hlast : ClockTime metadata.lastAttempt) :
    keep64 (Int64.ofInt metadata.expiresAt) (Int64.ofInt metadata.lastAttempt) (Int64.ofInt now) =
      metadata.keep now := by
  have hpermanent : Int64.ofInt metadata.expiresAt ≤ 0 ↔ metadata.expiresAt ≤ 0 := by
    rw [Int64.le_iff_toInt_le, toInt_ofInt hexpires, Int64.toInt_zero]
  have hlive : Int64.ofInt now < Int64.ofInt metadata.expiresAt ↔ now < metadata.expiresAt := by
    rw [Int64.lt_iff_toInt_lt, toInt_ofInt hnow.fits, toInt_ofInt hexpires]
  have hrecent : Int64.ofInt now - Int64.ofInt metadata.lastAttempt < 30 ↔
      now - metadata.lastAttempt < 30 := by
    rw [Int64.lt_iff_toInt_lt, toInt_sub hnow.fits hlast.fits (hnow.fits_sub hlast)]
    rfl
  rw [keep64, RouteMetadata.keep, Bool.eq_iff_iff]
  simp only [Bool.or_eq_true, Bool.and_eq_true, decide_eq_true_eq, hpermanent, hlive, hrecent,
    ofInt_pos hlast.fits, or_assoc]

end IpRouter.RouteManager
