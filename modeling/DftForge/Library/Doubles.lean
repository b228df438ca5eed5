import Mathlib.Algebra.Order.Round
import Mathlib.Data.Int.Log
import Mathlib.Data.Rat.Floor
import Mathlib.Tactic.Linarith
import Mathlib.Tactic.Positivity
import Mathlib.Tactic.Ring

/-! # Numbers of double precision

The double nearest to a positive number that is not below the normal ones, as a rational,
and when it is too large to be one. The double nearest to any number that is not too large
keeps the order, and the numbers of 53 bits are their own.
-/
namespace DftForge.Library.Doubles

/-- The nearest integer, of two the even one. -/
def roundEven (q : ℚ) : ℤ :=
  if Int.fract q < 1 / 2 then ⌊q⌋
  else if 1 / 2 < Int.fract q then ⌊q⌋ + 1
  else if ⌊q⌋ % 2 = 0 then ⌊q⌋
  else ⌊q⌋ + 1

/-- The distance of the doubles next to each other at a number. -/
def spacing (q : ℚ) : ℚ := 2 ^ (Int.log 2 q - 52)

def nearest (q : ℚ) : ℚ := roundEven (q / spacing q) * spacing q

/-- The nearest double, `none` on an overflow. -/
def toDouble (q : ℚ) : Option ℚ := if nearest q < 2 ^ 1024 then some (nearest q) else none

section Rounding
variable {q : ℚ}

theorem abs_roundEven_sub_le (q : ℚ) : |roundEven q - q| ≤ 1 / 2 := by
  have hq := Int.floor_add_fract q
  have hnonneg := Int.fract_nonneg q
  have hlt := Int.fract_lt_one q
  rw [abs_le]
  unfold roundEven
  split_ifs <;> push_cast <;> constructor <;> linarith

theorem roundEven_mono {q r : ℚ} (h : q ≤ r) : roundEven q ≤ roundEven r := by
  have hfloor := Int.floor_le_floor h
  have hq := Int.floor_add_fract q
  have hr := Int.floor_add_fract r
  rcases hfloor.lt_or_eq with hlt | heq
  · have hleft : roundEven q ≤ ⌊q⌋ + 1 := by
      unfold roundEven
      split_ifs <;> omega
    have hright : ⌊r⌋ ≤ roundEven r := by
      unfold roundEven
      split_ifs <;> omega
    omega
  · have hfract : Int.fract q ≤ Int.fract r := by
      rw [heq] at hq
      linarith
    unfold roundEven
    rw [heq]
    split_ifs <;> first | omega | (exfalso; linarith)

@[simp] theorem roundEven_intCast (n : ℤ) : roundEven n = n := by simp [roundEven]

theorem spacing_pos (q : ℚ) : 0 < spacing q := zpow_pos (by norm_num) _

theorem spacing_le (hq : 0 < q) : spacing q ≤ q / 2 ^ 52 := by
  have hlog : (2 : ℚ) ^ Int.log 2 q ≤ q := by exact_mod_cast Int.zpow_log_le_self Nat.one_lt_two hq
  rw [spacing,zpow_sub₀ (by norm_num),zpow_ofNat]
  exact div_le_div_of_nonneg_right hlog (by norm_num)

/-- The relative error of a double. -/
theorem nearest_le (hq : 0 < q) : nearest q ≤ q * (1 + 1 / 2 ^ 53) := by
  have hspacing := spacing_pos q
  have hround := (abs_le.mp (abs_roundEven_sub_le (q / spacing q))).2
  have hscaled : (roundEven (q / spacing q) - q / spacing q) * spacing q ≤ 1 / 2 * spacing q :=
    mul_le_mul_of_nonneg_right hround hspacing.le
  have hquotient : q / spacing q * spacing q = q := div_mul_cancel₀ q hspacing.ne'
  have hsmall := spacing_le hq
  have hpow : (1 : ℚ) / 2 ^ 53 = 1 / 2 * (1 / 2 ^ 52) := by norm_num
  rw [nearest]
  rw [sub_mul,hquotient] at hscaled
  calc (roundEven (q / spacing q) : ℚ) * spacing q ≤ q + 1 / 2 * spacing q := by linarith
    _ ≤ q + 1 / 2 * (q / 2 ^ 52) := by linarith
    _ = q * (1 + 1 / 2 ^ 53) := by rw [hpow]; ring

end Rounding

section Overflow
variable {q : ℚ}

/-- The middle between the largest double and the power of two behind it. -/
def overflow : ℚ := 2 ^ 1024 - 2 ^ 970

/-- The powers at the upper end, by half of the spacing there. -/
theorem top_powers : ∃ u : ℚ, 1 ≤ u ∧ (2 : ℚ) ^ 971 = 2 * u ∧ (2 : ℚ) ^ 1023 = 2 ^ 53 * u ∧
    (2 : ℚ) ^ 1024 = 2 ^ 54 * u ∧ overflow = 2 ^ 54 * u - u := by
  have hpow (n m : ℕ) : (2 : ℚ) ^ (n + m) = 2 ^ n * 2 ^ m := pow_add 2 n m
  refine ⟨2 ^ 970,one_le_pow₀ one_le_two,?_,hpow 53 970,hpow 54 970,?_⟩
  · rw [hpow 1 970,pow_one]
  · rw [overflow,hpow 54 970]

theorem spacing_of_log {e : ℤ} (h : Int.log 2 q = e) : spacing q = 2 ^ (e - 52) := by rw [spacing,h]

/-- At the middle of the last two numbers of a binade the even one is the next power of two. -/
theorem roundEven_last : roundEven (2 ^ 53 - 1 / 2) = 2 ^ 53 := by
  have hsplit : (2 ^ 53 - 1 / 2 : ℚ) = ((2 ^ 53 - 1 : ℤ) : ℚ) + 1 / 2 := by norm_num
  have hhalf : ⌊(1 / 2 : ℚ)⌋ = 0 := by norm_num
  have hfloor : ⌊(2 ^ 53 - 1 / 2 : ℚ)⌋ = 2 ^ 53 - 1 := by
    rw [hsplit,Int.floor_intCast_add,hhalf,add_zero]
  have hfract : Int.fract (2 ^ 53 - 1 / 2 : ℚ) = 1 / 2 := by
    rw [Int.fract,hfloor]
    norm_num
  rw [roundEven,hfract,hfloor]
  norm_num

section Binade
variable {u : ℚ}

theorem nearest_lt_of_spacing (hu : 0 < u) (hspacing : spacing q = 2 * u) (h : q < 2 ^ 54 * u - u) :
    nearest q < 2 ^ 54 * u := by
  have hbelow : q / (2 * u) < 2 ^ 53 - 1 / 2 := by
    rw [div_lt_iff₀ (by linarith)]
    linarith
  have hround := (abs_le.mp (abs_roundEven_sub_le (q / (2 * u)))).2
  have hlt : (roundEven (q / (2 * u)) : ℚ) < 2 ^ 53 := by linarith
  rw [nearest,hspacing]
  calc (roundEven (q / (2 * u)) : ℚ) * (2 * u) < 2 ^ 53 * (2 * u) := mul_lt_mul_of_pos_right hlt (by linarith)
    _ = 2 ^ 54 * u := by ring

theorem le_nearest_of_spacing (hu : 0 < u) (hspacing : spacing q = 2 * u) (h : 2 ^ 54 * u - u ≤ q) :
    2 ^ 54 * u ≤ nearest q := by
  have habove : 2 ^ 53 - 1 / 2 ≤ q / (2 * u) := by
    rw [le_div_iff₀ (by linarith)]
    linarith
  have hround := roundEven_mono habove
  rw [roundEven_last] at hround
  have hle : (2 : ℚ) ^ 53 ≤ roundEven (q / (2 * u)) := by exact_mod_cast hround
  rw [nearest,hspacing]
  calc (2 : ℚ) ^ 54 * u = 2 ^ 53 * (2 * u) := by ring
    _ ≤ roundEven (q / (2 * u)) * (2 * u) := mul_le_mul_of_nonneg_right hle (by linarith)

end Binade

/-- A number is not rounded below the power of two before it. -/
theorem pow_log_le_nearest (hq : 0 < q) : 2 ^ Int.log 2 q ≤ nearest q := by
  have hlog : (2 : ℚ) ^ Int.log 2 q ≤ q := by exact_mod_cast Int.zpow_log_le_self Nat.one_lt_two hq
  have hspacing := spacing_pos q
  have hsplit : (2 : ℚ) ^ Int.log 2 q = ((2 ^ 52 : ℤ) : ℚ) * spacing q := by
    rw [spacing,zpow_sub₀ (by norm_num),zpow_ofNat]
    field_simp
    norm_num
  have hquotient : ((2 ^ 52 : ℤ) : ℚ) ≤ q / spacing q := by
    rw [le_div_iff₀ hspacing,← hsplit]
    exact hlog
  have hround := roundEven_mono hquotient
  rw [roundEven_intCast] at hround
  have hcast : ((2 ^ 52 : ℤ) : ℚ) ≤ roundEven (q / spacing q) := by exact_mod_cast hround
  rw [hsplit,nearest]
  exact mul_le_mul_of_nonneg_right hcast hspacing.le

theorem nearest_pos (hq : 0 < q) : 0 < nearest q :=
  (zpow_pos two_pos _).trans_le (pow_log_le_nearest hq)

theorem nearest_lt_iff (hq : 0 < q) : nearest q < 2 ^ 1024 ↔ q < overflow := by
  obtain ⟨u,hone,h971,h1023,h1024,hoverflow⟩ := top_powers
  have hu : 0 < u := one_pos.trans_le hone
  have hlow : (2 : ℚ) ^ Int.log 2 q ≤ q := by exact_mod_cast Int.zpow_log_le_self Nat.one_lt_two hq
  have hhigh : q < (2 : ℚ) ^ (Int.log 2 q + 1) := by
    exact_mod_cast Int.lt_zpow_succ_log_self Nat.one_lt_two q
  rw [h1024,hoverflow]
  rcases lt_trichotomy (Int.log 2 q) 1023 with hlt | heq | hgt
  · have hpow : (2 : ℚ) ^ (Int.log 2 q + 1) ≤ 2 ^ (1023 : ℤ) := zpow_le_zpow_right₀ one_le_two (by omega)
    have hbelow : q < 2 ^ 53 * u := (hhigh.trans_le hpow).trans_eq h1023
    have herror := nearest_le hq
    exact iff_of_true (by linarith only [herror,hbelow,hu]) (by linarith only [hbelow,hu])
  · have hspacing : spacing q = 2 * u := (spacing_of_log heq).trans h971
    constructor
    · intro h
      by_contra hle
      exact absurd h (not_lt.mpr (le_nearest_of_spacing hu hspacing (not_lt.mp hle)))
    · exact nearest_lt_of_spacing hu hspacing
  · have hpow : (2 : ℚ) ^ (1024 : ℤ) ≤ 2 ^ Int.log 2 q := zpow_le_zpow_right₀ one_le_two (by omega)
    have htop : 2 ^ 54 * u ≤ 2 ^ Int.log 2 q := h1024.symm.trans_le hpow
    have hnearest := htop.trans (pow_log_le_nearest hq)
    have hle := htop.trans hlow
    exact iff_of_false (not_lt.mpr hnearest) (by linarith only [hle,hu])

theorem lt_overflow (h : q < 2 ^ 53) : q < overflow := by
  obtain ⟨u,hone,-,-,-,hoverflow⟩ := top_powers
  rw [hoverflow]
  linarith only [h,hone]

/-- The conversion fails from the middle between the largest double and the next power of two on. -/
theorem toDouble_eq_none_iff (hq : 0 < q) : toDouble q = none ↔ overflow ≤ q := by
  rw [toDouble,← not_lt,← nearest_lt_iff hq]
  split_ifs with h <;> simp [h]

theorem toDouble_eq_some {x : ℚ} (h : toDouble q = some x) : x = nearest q := by
  unfold toDouble at h
  split_ifs at h
  exact (Option.some.inj h).symm

end Overflow

section Signed
variable {p q : ℚ} {k n : ℤ}

theorem le_roundEven_iff : k ≤ roundEven q ↔ (k : ℚ) - 1 / 2 < q ∨ (q = k - 1 / 2 ∧ k % 2 = 0) := by
  have hsum := Int.floor_add_fract q
  have hlo := Int.fract_nonneg q
  have hhi := Int.fract_lt_one q
  unfold roundEven
  generalize ⌊q⌋ = n at *
  obtain hk | rfl | hk : k ≤ n ∨ k = n + 1 ∨ n + 2 ≤ k := by omega
  · have hcast : (k : ℚ) ≤ n := by exact_mod_cast hk
    refine iff_of_true ?_ (Or.inl (by linarith))
    split_ifs <;> omega
  · push_cast
    split_ifs with hlt hgt heven
    · exact iff_of_false (by omega) (by rintro (h | ⟨h,-⟩) <;> linarith)
    · exact iff_of_true le_rfl (Or.inl (by linarith))
    · refine iff_of_false (by omega) ?_
      rintro (h | ⟨-,h⟩)
      · linarith
      · omega
    · exact iff_of_true le_rfl (Or.inr ⟨by linarith,by omega⟩)
  · have hcast : (n : ℚ) + 2 ≤ k := by exact_mod_cast hk
    refine iff_of_false ?_ (by rintro (h | ⟨h,-⟩) <;> linarith)
    split_ifs <;> omega

theorem roundEven_le_iff : roundEven q ≤ k ↔ q < (k : ℚ) + 1 / 2 ∨ (q = k + 1 / 2 ∧ k % 2 = 0) := by
  rw [← not_lt,← Int.add_one_le_iff,le_roundEven_iff]
  push_cast
  constructor
  · intro h
    obtain ⟨hle,htie⟩ := not_or.mp h
    rcases (not_lt.mp hle).lt_or_eq with hlt | heq
    · exact .inl (by linarith)
    · refine .inr ⟨by linarith,?_⟩
      by_contra hodd
      exact htie ⟨heq,by omega⟩
  · rintro (h | ⟨h,heven⟩) (h' | ⟨h',heven'⟩)
    · linarith
    · linarith
    · linarith
    · omega

theorem roundEven_neg (q : ℚ) : roundEven (-q) = -roundEven q := by
  refine eq_of_forall_le_iff fun k => ?_
  rw [le_neg,le_roundEven_iff,roundEven_le_iff,Int.neg_emod_two,Int.cast_neg]
  constructor
  · rintro (h | ⟨h,heven⟩)
    · exact .inl (by linarith)
    · exact .inr ⟨by linarith,heven⟩
  · rintro (h | ⟨h,heven⟩)
    · exact .inl (by linarith)
    · exact .inr ⟨by linarith,heven⟩

/-- The exponent of the last place of the doubles at a number; it goes down to the subnormal ones. -/
def lastPlace (q : ℚ) : ℤ := max (Int.log 2 |q| - 52) (-1074)

/-- The nearest double of any sign, as long as it does not overflow. -/
def double (q : ℚ) : ℚ := roundEven (q / 2 ^ lastPlace q) * 2 ^ lastPlace q

theorem double_neg (q : ℚ) : double (-q) = -double q := by
  have hplace : lastPlace (-q) = lastPlace q := by rw [lastPlace,lastPlace,abs_neg]
  rw [double,hplace,neg_div,roundEven_neg,Int.cast_neg,neg_mul,double]

theorem two_zpow_pos (k : ℤ) : (0 : ℚ) < 2 ^ k := zpow_pos two_pos k

/-- A multiple of the last place bounds the rounded number as it bounds the number. -/
theorem double_le_of_le (h : q ≤ n * 2 ^ lastPlace q) : double q ≤ n * 2 ^ lastPlace q := by
  have hpos := two_zpow_pos (lastPlace q)
  have hround := roundEven_mono ((div_le_iff₀ hpos).mpr h)
  rw [roundEven_intCast] at hround
  exact mul_le_mul_of_nonneg_right (by exact_mod_cast hround) hpos.le

theorem le_double_of_le (h : n * 2 ^ lastPlace q ≤ q) : n * 2 ^ lastPlace q ≤ double q := by
  have hpos := two_zpow_pos (lastPlace q)
  have hround := roundEven_mono ((le_div_iff₀ hpos).mpr h)
  rw [roundEven_intCast] at hround
  exact mul_le_mul_of_nonneg_right (by exact_mod_cast hround) hpos.le

/-- A power of two at or above the last place is a multiple of it. -/
theorem two_zpow_eq (h : lastPlace q ≤ k) : (2 : ℚ) ^ k = ((2 ^ (k - lastPlace q).toNat : ℤ) : ℚ) * 2 ^ lastPlace q := by
  rw [Int.cast_pow,Int.cast_ofNat,← zpow_natCast,Int.toNat_of_nonneg (by omega),← zpow_add₀ two_ne_zero]
  congr 1
  omega

theorem lastPlace_mono (hp : 0 < p) (h : p ≤ q) : lastPlace p ≤ lastPlace q := by
  have hlog := Int.log_mono_right (b := 2) hp h
  rw [lastPlace,lastPlace,abs_of_pos hp,abs_of_pos (hp.trans_le h)]
  omega

theorem double_mono_of_pos (hp : 0 < p) (h : p ≤ q) : double p ≤ double q := by
  have hq := hp.trans_le h
  rcases (lastPlace_mono hp h).lt_or_eq with hlt | heq
  · -- a power of two lies between them
    have hlog : lastPlace q = Int.log 2 q - 52 := by
      rw [lastPlace,lastPlace,abs_of_pos hp,abs_of_pos hq] at *
      omega
    have hbelow : Int.log 2 p < Int.log 2 q := by
      rw [lastPlace,lastPlace,abs_of_pos hp,abs_of_pos hq] at hlt
      omega
    have hp' : p ≤ 2 ^ Int.log 2 q := by
      have hnext : p < (2 : ℚ) ^ (Int.log 2 p + 1) := by exact_mod_cast Int.lt_zpow_succ_log_self Nat.one_lt_two p
      exact hnext.le.trans (zpow_le_zpow_right₀ one_le_two (by omega))
    have hq' : (2 : ℚ) ^ Int.log 2 q ≤ q := by exact_mod_cast Int.zpow_log_le_self Nat.one_lt_two hq
    have hleft := two_zpow_eq (q := p) (k := Int.log 2 q) (by omega)
    have hright := two_zpow_eq (q := q) (k := Int.log 2 q) (by omega)
    calc double p ≤ 2 ^ Int.log 2 q := hleft ▸ double_le_of_le (hleft ▸ hp')
      _ ≤ double q := hright ▸ le_double_of_le (hright ▸ hq')
  · rw [double,double,heq]
    have hpos := two_zpow_pos (lastPlace q)
    have hround := roundEven_mono (div_le_div_of_nonneg_right h hpos.le)
    exact mul_le_mul_of_nonneg_right (by exact_mod_cast hround) hpos.le

theorem double_nonneg (hq : 0 ≤ q) : 0 ≤ double q := by
  simpa using le_double_of_le (q := q) (n := 0) (by simpa using hq)

theorem double_nonpos (hq : q ≤ 0) : double q ≤ 0 := by
  simpa using double_le_of_le (q := q) (n := 0) (by simpa using hq)

theorem double_mono (h : p ≤ q) : double p ≤ double q := by
  rcases lt_or_ge 0 p with hp | hp
  · exact double_mono_of_pos hp h
  · rcases lt_or_ge q 0 with hq | hq
    · have hneg := double_mono_of_pos (neg_pos.mpr hq) (neg_le_neg h)
      rwa [double_neg,double_neg,neg_le_neg_iff] at hneg
    · exact (double_nonpos hp).trans (double_nonneg hq)

/-- Numbers of 53 bits above the last place of all are doubles. -/
theorem double_of_bits (hn : |n| < 2 ^ 53) (hk : -1074 ≤ k) : double (n * 2 ^ k) = n * 2 ^ k := by
  rcases eq_or_ne n 0 with rfl | hne
  · have hzero : roundEven 0 = 0 := by simpa using roundEven_intCast 0
    simp [double,hzero]
  · have hcast : |(n : ℚ)| < 2 ^ (53 : ℤ) := by exact_mod_cast hn
    have hlt : |(n : ℚ) * 2 ^ k| < 2 ^ (53 + k) := by
      rw [abs_mul,abs_of_pos (two_zpow_pos k),zpow_add₀ two_ne_zero]
      exact mul_lt_mul_of_pos_right hcast (two_zpow_pos k)
    have hpos : 0 < |(n : ℚ) * 2 ^ k| :=
      abs_pos.mpr (mul_ne_zero (by exact_mod_cast hne) (two_zpow_pos k).ne')
    have hlog := (Int.lt_zpow_iff_log_lt Nat.one_lt_two hpos).mp (by exact_mod_cast hlt)
    have hplace : lastPlace (n * 2 ^ k) ≤ k := by
      rw [lastPlace]
      omega
    have hsplit : (n : ℚ) * 2 ^ k =
        ((n * 2 ^ (k - lastPlace (n * 2 ^ k)).toNat : ℤ) : ℚ) * 2 ^ lastPlace (n * 2 ^ k) := by
      conv_lhs => rw [two_zpow_eq hplace]
      push_cast
      ring
    exact le_antisymm ((double_le_of_le hsplit.le).trans_eq hsplit.symm) (hsplit.trans_le (le_double_of_le hsplit.ge))

theorem double_intCast (hn : |n| < 2 ^ 53) : double n = n := by
  simpa using double_of_bits (k := 0) hn (by norm_num)

/-- The product in double precision. -/
def times (x y : ℚ) : ℚ := double (x * y)

theorem times_comm (x y : ℚ) : times x y = times y x := congrArg double (mul_comm x y)

end Signed

end DftForge.Library.Doubles
