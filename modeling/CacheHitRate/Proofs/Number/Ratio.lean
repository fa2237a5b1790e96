import Mathlib
import CacheHitRate.Number.Quantity

/-!
Rounded ratios at most one. A binary64 value built from its fields (sign, biased exponent below
the all-ones pattern, 52-bit fraction) reads back as those fields, so `parts` inverts `ofFields`
on every finite value. For a ratio of naturals `num / den` with `num ≤ den` the rounding keeps at
least 52 binary places and a quotient of at most 53 bits; rounding up leaves the quotient at most
the scale, so the result is a finite `m * 2^e` with `m ≤ 2^(-e)`: it cannot overflow and the exact
order places it in `[0, 1]`.
-/

namespace CacheHitRate

namespace Binary64

open Float.Model Float.Model.UnpackedFloat

theorem unpackExponent_toNat (v : BitVec 64) :
    (@unpackExponent Format.binary64 v).toNat = v.toNat / 2 ^ 52 % 2 ^ 11 := by
  simp [unpackExponent, Nat.shiftRight_eq_div_pow]

theorem toBits_ofBits {u : UInt64} (h : u.toNat / 2 ^ 52 % 2 ^ 11 ≠ 2047) :
    (Float.ofBits u).toBits = u := by
  show UInt64.ofBitVec (pack Format.binary64 (unpack Format.binary64 u.toBitVec)) = u
  rw [UnpackedFloat.pack_unpack, if_neg]
  intro hnan
  simp only [isNaNBits, decide_eq_true_eq] at hnan
  have hexp := congrArg BitVec.toNat hnan.1
  rw [unpackExponent_toNat] at hexp
  exact h (by simpa using hexp)

theorem parts_ofFields (neg : Bool) {biased frac : Nat} (hb : biased < 2047) (hf : frac < 2 ^ 52) :
    parts (ofFields neg biased frac) =
      if biased = 0 then .finite neg frac (-1074)
      else .finite neg (frac + 2 ^ 52) ((biased : Int) - 1075) := by
  have hN : (if neg then 2 ^ 63 else 0) + biased * 2 ^ 52 + frac < 2 ^ 64 := by
    cases neg <;> simp <;> omega
  have hbits : (ofFields neg biased frac).toBits.toNat =
      (if neg then 2 ^ 63 else 0) + biased * 2 ^ 52 + frac := by
    simp only [ofFields, Nat.pow_eq]
    rw [toBits_ofBits] <;> rw [UInt64.toNat_ofNat_of_lt' hN]
    cases neg <;> simp <;> omega
  have hexp : ((if neg then 2 ^ 63 else 0) + biased * 2 ^ 52 + frac) / 2 ^ 52 % 2048 = biased := by
    cases neg <;> simp <;> omega
  have hfrac : ((if neg then 2 ^ 63 else 0) + biased * 2 ^ 52 + frac) % 2 ^ 52 = frac := by
    cases neg <;> simp <;> omega
  have hsign : decide (2 ^ 63 ≤ (if neg then 2 ^ 63 else 0) + biased * 2 ^ 52 + frac) = neg := by
    cases neg <;> simp <;> omega
  unfold parts
  simp only [hbits, Nat.pow_eq, hexp, hfrac, hsign, if_neg (Nat.ne_of_lt hb)]

theorem shiftedDivMod_of_nonpos (num den : Nat) {e : Int} (he : e ≤ 0) :
    shiftedDivMod num den e = (num * 2 ^ (-e).toNat / den, num * 2 ^ (-e).toNat % den, den) := by
  simp [shiftedDivMod, Int.toNat_of_nonpos he]

theorem placeOf_of_le {num den : Nat} (hnum : num ≠ 0) (hle : num ≤ den) :
    -1074 ≤ placeOf num den ∧ placeOf num den ≤ -52 ∧
      num * 2 ^ (-placeOf num den).toNat < 2 ^ 53 * den := by
  have hden : den ≠ 0 := by omega
  have hlog : num.log2 ≤ den.log2 :=
    (Nat.le_log2 hden).2 (Nat.le_trans (Nat.log2_self_le hnum) hle)
  obtain ⟨k, hk⟩ : ∃ k, k = 52 + den.log2 - num.log2 := ⟨_, rfl⟩
  have hL : (-(((num.log2 : Int) - den.log2) - 52)).toNat = k := by omega
  have hfirst : num * 2 ^ k < 2 ^ 53 * den := by
    calc num * 2 ^ k < 2 ^ (num.log2 + 1) * 2 ^ k :=
          Nat.mul_lt_mul_of_pos_right Nat.lt_log2_self (Nat.two_pow_pos k)
      _ = 2 ^ 53 * 2 ^ den.log2 := by rw [← Nat.pow_add, ← Nat.pow_add]; congr 1; omega
      _ ≤ 2 ^ 53 * den := Nat.mul_le_mul_left _ (Nat.log2_self_le hden)
  simp only [placeOf, shiftedDivMod_of_nonpos num den
    (show ((num.log2 : Int) - den.log2) - 52 ≤ 0 by omega), hL, Nat.pow_eq]
  obtain ⟨e₁, he₁, hle₁, hbound₁⟩ : ∃ e₁ : Int,
      (if num * 2 ^ k / den < 2 ^ 52 then ((num.log2 : Int) - den.log2) - 52 - 1
        else ((num.log2 : Int) - den.log2) - 52) = e₁ ∧
      e₁ ≤ -52 ∧ num * 2 ^ (-e₁).toNat < 2 ^ 53 * den := by
    split
    · rename_i hsmall
      have hq : num * 2 ^ k < 2 ^ 52 * den := (Nat.div_lt_iff_lt_mul (by omega)).1 hsmall
      refine ⟨_, rfl, by omega, ?_⟩
      rw [show (-(((num.log2 : Int) - den.log2) - 52 - 1)).toNat = k + 1 by omega, Nat.pow_succ,
        ← Nat.mul_assoc]
      omega
    · exact ⟨_, rfl, by omega, by rwa [hL]⟩
  rw [he₁]
  refine ⟨Int.le_max_right _ _, by omega, ?_⟩
  calc num * 2 ^ (-max e₁ (-1074)).toNat ≤ num * 2 ^ (-e₁).toNat :=
        Nat.mul_le_mul_left _ (Nat.pow_le_pow_right (by decide) (by omega))
    _ < 2 ^ 53 * den := hbound₁

/-- A ratio of naturals at most one rounds to a finite value `m * 2^e` with `e ≤ 0` and
`m ≤ 2^(-e)`: no overflow, and a magnitude at most one. -/
theorem roundRatio_of_le (neg : Bool) {num den : Nat} (hden : 0 < den) (hle : num ≤ den) :
    ∃ r m e, roundRatio neg num den = some r ∧ parts r = .finite neg m e ∧ e ≤ 0 ∧
      m ≤ 2 ^ (-e).toNat := by
  by_cases hnum : num = 0
  · subst hnum
    refine ⟨zero neg, 0, -1074, roundRatio_zero neg den, ?_, by decide, Nat.zero_le _⟩
    simpa [zero] using @parts_ofFields neg 0 0 (by decide) (by decide)
  obtain ⟨hlo, hhi, hbound⟩ := placeOf_of_le hnum hle
  generalize hp : placeOf num den = p at hlo hhi hbound
  generalize hP : (-p).toNat = P at hbound
  have hval : num * 2 ^ P ≤ 2 ^ P * den := by
    rw [Nat.mul_comm (2 ^ P)]; exact Nat.mul_le_mul_right _ hle
  obtain ⟨q, hqdef, hq53, hqP⟩ : ∃ q,
      (if (decide (2 * (num * 2 ^ P % den) > den) ||
          (2 * (num * 2 ^ P % den) == den && num * 2 ^ P / den % 2 == 1)) = true
        then num * 2 ^ P / den + 1 else num * 2 ^ P / den) = q ∧ q ≤ 2 ^ 53 ∧ q ≤ 2 ^ P := by
    have hlt53 : num * 2 ^ P / den < 2 ^ 53 := (Nat.div_lt_iff_lt_mul hden).2 hbound
    split
    · rename_i hup
      have hr : 0 < num * 2 ^ P % den := by
        simp only [Bool.or_eq_true, decide_eq_true_eq, Bool.and_eq_true, beq_iff_eq] at hup
        omega
      have hltP : num * 2 ^ P < 2 ^ P * den := by
        rcases Nat.lt_or_eq_of_le hval with h | h
        · exact h
        · rw [h, Nat.mul_mod_left] at hr
          exact absurd hr (Nat.lt_irrefl 0)
      have := (Nat.div_lt_iff_lt_mul hden).2 hltP
      exact ⟨_, rfl, by omega, by omega⟩
    · exact ⟨_, rfl, by omega, Nat.div_le_of_le_mul (by rw [Nat.mul_comm den]; exact hval)⟩
  simp only [roundRatio, if_neg hnum, hp, shiftedDivMod_of_nonpos num den (by omega : p ≤ 0), hP,
    Nat.pow_eq, hqdef]
  by_cases hcarry : q = 2 ^ 53
  · have hP53 : 53 ≤ P := (Nat.pow_le_pow_iff_right (by decide)).1 (hcarry ▸ hqP)
    have hparts := @parts_ofFields neg (p + 1 + 1075).toNat (2 ^ 52 - 2 ^ 52)
      (by omega) (by decide)
    rw [if_neg (by omega), Nat.sub_self, Nat.zero_add] at hparts
    simp only [hcarry, if_true, Nat.lt_irrefl, if_false, show ¬ p + 1 > 971 by omega]
    refine ⟨_, _, _, rfl, hparts, by omega, Nat.pow_le_pow_right (by decide) (by omega)⟩
  simp only [hcarry, if_false]
  by_cases hsub : q < 2 ^ 52
  · have hparts := @parts_ofFields neg 0 q (by decide) hsub
    rw [if_pos rfl] at hparts
    simp only [hsub, if_true]
    refine ⟨_, _, _, rfl, hparts, by decide, ?_⟩
    exact Nat.le_trans (Nat.le_of_lt hsub) (Nat.pow_le_pow_right (by decide) (by decide))
  · have hparts := @parts_ofFields neg (p + 1075).toNat (q - 2 ^ 52)
      (by omega) (by omega)
    rw [if_neg (by omega), Nat.sub_add_cancel (by omega),
      show (((p + 1075).toNat : Nat) : Int) - 1075 = p by omega] at hparts
    simp only [hsub, if_false, show ¬ p > 971 by omega]
    exact ⟨_, _, _, rfl, hparts, by omega, by rwa [hP]⟩

theorem parts_nan : parts nan = .nan := by
  decide +kernel

end Binary64

namespace Quantity

theorem le_of_compare_ne_gt {a b : Quantity} {x y : Extended} (ha : a.extended? = some x)
    (hb : b.extended? = some y) (h : x.compare y ≠ .gt) : a.le b = true := by
  simp only [le, compare?, ha, hb]
  cases hc : x.compare y <;> simp_all

theorem le_zero_one_of_parts {x : Float} {m : Nat} {e : Int}
    (hx : Binary64.parts x = .finite false m e) (he : e ≤ 0) (hm : m ≤ 2 ^ (-e).toNat) :
    (Quantity.int 0).le (.float x) = true ∧ (Quantity.float x).le (.int 1) = true := by
  have hext : (Quantity.float x).extended? = some (.finite m e) := by
    simp [extended?, hx]
  have hpow : Int.pow 2 (-e).toNat = ((2 ^ (-e).toNat : Nat) : Int) := by
    rw [Int.natCast_pow]; rfl
  constructor
  · refine le_of_compare_ne_gt rfl hext ?_
    simp only [Extended.compare, Int.min_eq_right he]
    rw [Int.compare_ne_gt, Int.zero_mul]
    exact Int.mul_nonneg (Int.natCast_nonneg m) (by rw [Int.sub_self]; decide)
  · refine le_of_compare_ne_gt hext rfl ?_
    simp only [Extended.compare, Int.min_eq_left he]
    rw [Int.compare_ne_gt, Int.sub_self, Int.zero_sub, hpow, Int.toNat_zero,
      show Int.pow 2 0 = 1 from rfl, Int.mul_one, Int.one_mul]
    exact Int.ofNat_le.2 hm

theorem div_int_of_le {a b : Int} (ha : 0 ≤ a) (hab : a ≤ b) (hb : 0 < b) :
    ∃ r m e, (Quantity.int a).div (.int b) = .ok r ∧ Binary64.parts r = .finite false m e ∧
      e ≤ 0 ∧ m ≤ 2 ^ (-e).toNat := by
  obtain ⟨r, m, e, hr, hparts, he, hm⟩ :=
    @Binary64.roundRatio_of_le false a.natAbs b.natAbs (by omega) (by omega)
  refine ⟨r, m, e, ?_, hparts, he, hm⟩
  have hneg : ((decide (a < 0)) != (decide (b < 0))) = false := by
    simp [show ¬ a < 0 by omega, show ¬ b < 0 by omega]
  simp [div, Binary64.quotient?, hneg, hr, show b ≠ 0 by omega]

end Quantity

end CacheHitRate
