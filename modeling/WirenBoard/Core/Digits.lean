import Mathlib.Algebra.BigOperators.Ring.Finset
import Mathlib.Algebra.Ring.Divisibility.Basic
import Mathlib.Tactic.Ring

/-!
# Expansions in a base with digits from an interval

The digits of an expansion are written with the highest first, and may be negative:
they come from any interval whose length is the base. Expansions that agree modulo the
power of the base that belongs to their length have the same digits.
-/

namespace WirenBoard

/-- The value of the leading `t` digits in base `b`. -/
def expand (b : Int) (f : Nat → Int) : Nat → Int
  | 0 => 0
  | t + 1 => expand b f t * b + f t

section Expansions

variable {b : Int} {f g : Nat → Int}

/-- The digits behind the first `s` ones are an expansion of their own. -/
theorem expand_add (b : Int) (f : Nat → Int) (s t : Nat) :
    expand b f (s + t) = expand b f s * b ^ t + expand b (fun i => f (s + i)) t := by
  induction t with
  | zero => simp [expand]
  | succ t ih =>
    rw [← Nat.add_assoc, expand, ih, expand, pow_succ]
    ring

/-- The expansion depends on the digits below its length only. -/
theorem expand_congr {t : Nat} (h : ∀ i < t, f i = g i) : expand b f t = expand b g t := by
  induction t with
  | zero => rfl
  | succ t ih => rw [expand, expand, ih fun i hi => h i (by omega), h t (by omega)]

/-- The expansion as a sum of digits times powers of the base. -/
theorem expand_eq_sum (b : Int) (f : Nat → Int) (t : Nat) :
    expand b f t = ∑ i ∈ Finset.range t, f i * b ^ (t - 1 - i) := by
  induction t with
  | zero => rfl
  | succ t ih =>
    rw [expand, ih, Finset.sum_range_succ, Finset.sum_mul]
    congr 1
    · apply Finset.sum_congr rfl
      intro i hi
      have hlt := Finset.mem_range.mp hi
      rw [show t + 1 - 1 - i = t - 1 - i + 1 by omega, pow_succ, mul_assoc]
    · simp

/-- Two digits of one interval that agree modulo the base are equal. -/
theorem digit_eq_of_dvd_sub {lo x y : Int} (hx : lo ≤ x ∧ x < lo + b) (hy : lo ≤ y ∧ y < lo + b)
    (h : b ∣ x - y) : x = y := by
  apply sub_eq_zero.mp
  apply Int.eq_zero_of_abs_lt_dvd h
  rw [abs_lt]
  omega

/-- Expansions that agree modulo the power of their length have the same digits. -/
theorem digits_eq_of_dvd_sub {lo : Int} {t : Nat} (hf : ∀ i < t, lo ≤ f i ∧ f i < lo + b)
    (hg : ∀ i < t, lo ≤ g i ∧ g i < lo + b) (h : b ^ t ∣ expand b f t - expand b g t) :
    ∀ i < t, f i = g i := by
  induction t with
  | zero => exact fun i hi => absurd hi (Nat.not_lt_zero i)
  | succ t ih =>
    have hlast : f t = g t := by
      apply digit_eq_of_dvd_sub (hf t (by omega)) (hg t (by omega))
      have hb : b ∣ expand b f (t + 1) - expand b g (t + 1) := (dvd_pow_self b (by omega)).trans h
      have heq : f t - g t =
          expand b f (t + 1) - expand b g (t + 1) - b * (expand b f t - expand b g t) := by
        rw [expand, expand]
        ring
      rw [heq]
      exact dvd_sub hb (dvd_mul_right b _)
    have hpos : b ≠ 0 := by
      have := hf t (by omega)
      omega
    have hinit : b ^ t ∣ expand b f t - expand b g t := by
      rw [expand, expand, hlast, pow_succ, add_sub_add_right_eq_sub, ← sub_mul] at h
      exact (mul_dvd_mul_iff_right hpos).mp h
    intro i hi
    rcases Nat.lt_succ_iff_lt_or_eq.mp hi with hi | rfl
    · exact ih (fun i hi => hf i (by omega)) (fun i hi => hg i (by omega)) hinit i hi
    · exact hlast

end Expansions

end WirenBoard
