import Mathlib
import SchemaAtlas.Schema.Position

/-!
Sums and products of floating point numbers that are far from the largest one are finite. All that
is followed through a computation is a bound of the last binary place: each step may raise it a
little, and there are a thousand places before a number is too large.
-/

set_option autoImplicit false

namespace SchemaAtlas.Decimal

open Float.Model Float.Model.UnpackedFloat

/-- A number that is zero, or whose last binary place stands for at most `2 ^ n`. -/
inductive Within (n : Int) : UnpackedFloat → Prop
  | zero (sign : Sign) : Within n (.zero sign)
  | finite {sign : Sign} {mantissa : Nat} {exponent : Int} {positive : 0 < mantissa}
      (early : exponent ≤ n) : Within n (.finite sign mantissa exponent positive)

theorem Within.mono {n more : Int} {x : UnpackedFloat} (within : Within n x) (least : n ≤ more) :
    Within more x := by
  cases within with
  | zero sign => exact .zero sign
  | finite early => exact .finite (Int.le_trans early least)

section Round

theorem targetExponent_eq (total : Int) :
    Format.binary64.targetExponent total = max (total - 53) (-1074) :=
  rfl

theorem mantissa_shiftRight (em : ExtendedMantissa) (k : Nat) :
    (em >>> k).mantissa = em.mantissa / 2 ^ k := by
  induction k with
  | zero => exact (Nat.div_one _).symm
  | succ k ih =>
    show (em >>> k).mantissa / 2 = em.mantissa / 2 ^ (k + 1)
    rw [ih, Nat.div_div_eq_div_mul, Nat.pow_succ]

theorem roundedMantissa_le (em : ExtendedMantissa) : em.roundedMantissa ≤ em.mantissa + 1 := by
  obtain ⟨mantissa, round, sticky⟩ := em
  cases round <;> cases sticky <;>
    simp only [ExtendedMantissa.roundedMantissa, ExtendedMantissa.accuracy,
      Accuracy.roundToNearestEven]
  all_goals omega

theorem shiftToTargetExponent_within {mantissa : Nat} {exponent n : Int} (accuracy : Accuracy)
    (start : exponent ≤ n) (total : totalExponent mantissa exponent ≤ n + 53) (least : -1074 ≤ n) :
    (shiftToTargetExponent .binary64 mantissa exponent accuracy).1.mantissa < 2 ^ 53 ∧
      (shiftToTargetExponent .binary64 mantissa exponent accuracy).2 ≤ n := by
  simp only [shiftToTargetExponent, shiftToExponent, targetExponent_eq, mantissa_shiftRight]
  constructor
  next =>
    -- At the target exponent, 53 bits are left of the mantissa.
    have same : (ExtendedMantissa.ofMantissaAndAccuracy mantissa accuracy).mantissa = mantissa := by
      unfold ExtendedMantissa.ofMantissaAndAccuracy
      split <;> rfl
    rw [same, Nat.div_lt_iff_lt_mul (Nat.two_pow_pos _), ← Nat.pow_add]
    refine Nat.lt_of_lt_of_le Nat.lt_log2_self (Nat.pow_le_pow_right (by decide) ?_)
    simp only [totalExponent]
    omega
  next => omega

theorem roundWithAccuracy_within {sign : Sign} {mantissa : Nat} {exponent n : Int}
    (accuracy : Accuracy) (start : exponent ≤ n) (total : totalExponent mantissa exponent ≤ n + 53)
    (least : -1074 ≤ n) :
    Within (n + 1) (roundWithAccuracy .binary64 sign mantissa exponent accuracy) := by
  obtain ⟨short, early⟩ := shiftToTargetExponent_within accuracy start total least
  unfold roundWithAccuracy
  simp only
  generalize shiftToTargetExponent .binary64 mantissa exponent accuracy = first at short early ⊢
  -- Rounding up may fill a 54th bit.
  have rounded := roundedMantissa_le first.1
  have bits : first.1.roundedMantissa.log2 ≤ 53 := by
    rw [← Nat.lt_succ_iff]
    by_cases zero : first.1.roundedMantissa = 0
    next => simp [zero]
    next => exact (Nat.log2_lt zero).mpr (by omega)
  split
  next => exact .zero sign
  next =>
    refine .finite (shiftToTargetExponent_within .exact (by omega) ?_ (by omega)).2
    simp only [totalExponent]
    omega

theorem totalExponent_le {mantissa bits : Nat} (positive : 0 < mantissa)
    (small : mantissa < 2 ^ bits) (exponent : Int) :
    totalExponent mantissa exponent ≤ bits + exponent := by
  have fits := (Nat.log2_lt (by omega)).mpr small
  simp only [totalExponent]
  omega

theorem round_within {sign : Sign} {mantissa bits : Nat} {exponent n : Int} (positive : 0 < mantissa)
    (small : mantissa < 2 ^ bits) (total : bits + exponent ≤ n + 53) (least : -1074 ≤ n) :
    Within (n + 1) (UnpackedFloat.round .binary64 sign mantissa exponent) := by
  have fits := totalExponent_le positive small exponent
  simp only [UnpackedFloat.round, decreaseExponent, targetExponent_eq, Nat.shiftLeft_eq]
  generalize same : (exponent - max _ _ : Int).toNat = shift
  have wide : mantissa * 2 ^ shift < 2 ^ (bits + shift) := by
    rw [Nat.pow_add]
    exact Nat.mul_lt_mul_of_pos_right small (Nat.two_pow_pos _)
  have fits' := totalExponent_le (Nat.mul_pos positive (Nat.two_pow_pos _)) wide (exponent - shift)
  exact roundWithAccuracy_within .exact (by omega) (by omega) least

theorem normalize_within {mantissa : Int} {bits : Nat} {exponent n : Int} (sign : Sign)
    (small : mantissa.natAbs < 2 ^ bits) (total : bits + exponent ≤ n + 53) (least : -1074 ≤ n) :
    Within (n + 1) (UnpackedFloat.normalize .binary64 mantissa exponent sign) := by
  unfold UnpackedFloat.normalize
  split
  next below =>
    have negative := Int.compare_eq_lt.mp below
    exact round_within (by omega) (by omega) total least
  next => exact .zero sign
  next above =>
    have positive := Int.compare_eq_gt.mp above
    exact round_within (by omega) (by omega) total least

end Round

section Operations

/-- A number that fits into 53 bits. -/
def Short : UnpackedFloat → Prop
  | .finite _ mantissa _ _ => mantissa < 2 ^ 53
  | _ => True

variable {x y : UnpackedFloat} {n m : Int}

theorem mul_finite_within {sign sign' : Sign} {mantissa mantissa' bits : Nat} {exponent exponent' : Int}
    (positive : 0 < mantissa) (positive' : 0 < mantissa') (wide : mantissa * mantissa' < 2 ^ bits)
    (start : exponent + exponent' ≤ n) (total : bits + (exponent + exponent') ≤ n + 53)
    (least : -1074 ≤ n) :
    Within (n + 1) (UnpackedFloat.mul .binary64 (.finite sign mantissa exponent positive)
      (.finite sign' mantissa' exponent' positive')) := by
  have fits := totalExponent_le (Nat.mul_pos positive positive') wide (exponent + exponent')
  exact roundWithAccuracy_within .exact start (fits.trans total) least

theorem mul_within (short : Short x) (short' : Short y) (within : Within n x) (within' : Within m y)
    (least : -1127 ≤ n + m) : Within (n + m + 54) (UnpackedFloat.mul .binary64 x y) := by
  cases within with
  | zero => cases within' <;> exact .zero _
  | finite early =>
    cases within' with
    | zero => exact .zero _
    | finite early' =>
      have wide := (Nat.mul_lt_mul'' short short').trans_eq (Nat.pow_add 2 53 53).symm
      refine Within.mono (mul_finite_within (n := n + m + 53) _ _ wide ?_ ?_ ?_) ?_
      all_goals omega

theorem decreaseExponent_lt {mantissa : Nat} {exponent target : Int} (short : mantissa < 2 ^ 53)
    (early : exponent ≤ n) :
    (decreaseExponent mantissa exponent target).1 < 2 ^ (53 + (n - target).toNat) := by
  simp only [decreaseExponent, Nat.shiftLeft_eq, Nat.pow_add]
  refine Nat.mul_lt_mul_of_lt_of_le short (Nat.pow_le_pow_right (by decide) (by omega)) ?_
  exact Nat.two_pow_pos _

theorem combined_within {mantissa mantissa' : Nat} {exponent exponent' total : Int} (sign : Sign)
    (short : mantissa < 2 ^ 53) (short' : mantissa' < 2 ^ 53) (early : exponent ≤ n)
    (early' : exponent' ≤ n) (least : -1075 ≤ n)
    (bounded : total.natAbs ≤ (decreaseExponent mantissa exponent (min exponent exponent')).1 +
      (decreaseExponent mantissa' exponent' (min exponent exponent')).1) :
    Within (n + 2) (UnpackedFloat.normalize .binary64 total (min exponent exponent') sign) := by
  -- Both mantissas are brought to the smaller exponent, which makes them longer.
  have one := @decreaseExponent_lt n _ _ (min exponent exponent') short early
  have two := @decreaseExponent_lt n _ _ (min exponent exponent') short' early'
  have small : total.natAbs < 2 ^ (53 + (n - min exponent exponent').toNat + 1) := by
    rw [Nat.pow_succ]
    omega
  refine Within.mono (normalize_within (n := n + 1) sign small ?_ ?_) ?_
  all_goals omega

theorem natAbs_apply (sign : Sign) (size : Nat) : (sign.apply size).natAbs = size := by
  cases sign <;> simp [Sign.apply]

theorem add_within (short : Short x) (short' : Short y) (within : Within n x) (within' : Within n y)
    (least : -1075 ≤ n) : Within (n + 2) (UnpackedFloat.add .binary64 x y) := by
  cases within with
  | zero =>
    cases within' with
    | zero => simp only [UnpackedFloat.add]; split <;> exact .zero _
    | finite early' => exact .finite (by omega)
  | finite early =>
    cases within' with
    | zero => exact .finite (by omega)
    | finite early' =>
      refine combined_within _ short short' early early' least ((Int.natAbs_add_le _ _).trans ?_)
      rw [natAbs_apply, natAbs_apply]
      exact Nat.le_refl _

theorem sub_within (short : Short x) (short' : Short y) (within : Within n x) (within' : Within n y)
    (least : -1075 ≤ n) : Within (n + 2) (UnpackedFloat.sub .binary64 x y) := by
  cases within with
  | zero =>
    cases within' with
    | zero => simp only [UnpackedFloat.sub]; split <;> exact .zero _
    | finite early' => exact .finite (by omega)
  | finite early =>
    cases within' with
    | zero => exact .finite (by omega)
    | finite early' =>
      refine combined_within _ short short' early early' least ((Int.natAbs_sub_le _ _).trans ?_)
      rw [natAbs_apply, natAbs_apply]
      exact Nat.le_refl _

end Operations

section Packed

theorem short_unpack (x : Float.Model) : Short x.unpack := by
  unfold Float.Model.unpack UnpackedFloat.unpack
  simp only
  split
  next => split <;> trivial
  next =>
    split
    next =>
      split
      next => trivial
      next => exact (BitVec.isLt _).trans (by decide)
    next => exact BitVec.isLt _

theorem unpack_packComponents_within {n : Int} (sign : Sign) {exponent : BitVec 11}
    (mantissa : BitVec 52) (usual : exponent ≠ -1#11) (least : -1074 ≤ n)
    (early : exponent.toNat - 1075 ≤ n) :
    Within n (UnpackedFloat.unpack .binary64 (packComponents .binary64 sign exponent mantissa)) := by
  unfold UnpackedFloat.unpack
  simp only [unpackExponent_packComponents, unpackMantissa_packComponents, if_neg usual]
  split
  next zero =>
    split
    next => exact .zero _
    next => exact .finite (by rw [zero]; exact least)
  next => exact .finite early

theorem pack_within {x : UnpackedFloat} {n : Int} (within : Within n x) (least : -1074 ≤ n)
    (most : n ≤ 970) : Within n (Float.Model.pack x).unpack := by
  -- Zero and numbers of fewer than 53 bits are packed without an exponent.
  have subnormal (sign : Sign) (mantissa : BitVec 52) :=
    @unpack_packComponents_within n sign 0#11 mantissa (by decide) least (by simp; omega)
  show Within n (UnpackedFloat.unpack .binary64 (UnpackedFloat.pack .binary64 x))
  cases within with
  | zero sign => exact subnormal sign 0
  | @finite sign mantissa exponent positive early =>
    have biased : (exponent + Format.binary64.exponentBias + 52).toNat = (exponent + 1075).toNat :=
      congrArg Int.toNat (Int.add_assoc _ _ _)
    have small : (exponent + 1075).toNat < 2046 := by omega
    simp only [UnpackedFloat.pack, Nat.cast_ofNat, biased]
    rw [if_neg (by omega)]
    split
    next =>
      have value : (BitVec.ofNat 11 (exponent + 1075).toNat).toNat = (exponent + 1075).toNat := by
        rw [BitVec.toNat_ofNat, Nat.mod_eq_of_lt (by omega)]
      refine unpack_packComponents_within sign _ (fun ones => ?_) least (by omega)
      rw [ones] at value
      have usual : (-1#11).toNat = 2047 := rfl
      omega
    next => exact subnormal sign _

end Packed

section Numbers

/-- What a computation with numbers of the machine leaves. -/
def FloatWithin (n : Int) (x : Float) : Prop := Within n x.toModel.unpack

variable {x y : Float} {n m : Int}

theorem FloatWithin.isFinite (within : FloatWithin n x) : x.isFinite = true := by
  unfold FloatWithin at within
  unfold Float.isFinite Float.Model.isFinite
  generalize x.toModel.unpack = u at within ⊢
  cases within <;> rfl

theorem FloatWithin.mul (within : FloatWithin n x) (within' : FloatWithin m y)
    (least : -1127 ≤ n + m) (most : n + m ≤ 916) : FloatWithin (n + m + 54) (x * y) :=
  pack_within (mul_within (short_unpack _) (short_unpack _) within within' least) (by omega)
    (by omega)

theorem FloatWithin.add (within : FloatWithin n x) (within' : FloatWithin n y)
    (least : -1075 ≤ n) (most : n ≤ 968) : FloatWithin (n + 2) (x + y) :=
  pack_within (add_within (short_unpack _) (short_unpack _) within within' least) (by omega)
    (by omega)

theorem FloatWithin.sub (within : FloatWithin n x) (within' : FloatWithin n y)
    (least : -1075 ≤ n) (most : n ≤ 968) : FloatWithin (n + 2) (x - y) :=
  pack_within (sub_within (short_unpack _) (short_unpack _) within within' least) (by omega)
    (by omega)

theorem unpack_one : (1 : Float).toModel.unpack =
    .finite .positive (2 ^ 52) (-52) (Nat.two_pow_pos _) :=
  rfl

theorem within_of_unit (above : 0 ≤ x) (below : x < 1) : FloatWithin (-52) x := by
  -- The order of two positive numbers is first that of their exponents.
  have lower : (UnpackedFloat.zero .positive).le x.toModel.unpack = true := of_decide_eq_true above
  have upper : x.toModel.unpack.lt (1 : Float).toModel.unpack = true := of_decide_eq_true below
  rw [unpack_one] at upper
  unfold FloatWithin
  generalize x.toModel.unpack = u at lower upper ⊢
  cases u with
  | zero => exact .zero _
  | notANumber => simp [UnpackedFloat.lt, UnpackedFloat.compare] at upper
  | infinity sign =>
    cases sign
    · simp [UnpackedFloat.le, UnpackedFloat.compare] at lower
    · simp [UnpackedFloat.lt, UnpackedFloat.compare] at upper
  | finite sign mantissa exponent positive =>
    cases sign
    · simp [UnpackedFloat.le, UnpackedFloat.compare] at lower
    · simp [UnpackedFloat.lt, UnpackedFloat.compare] at upper
      rcases Ordering.then_eq_lt.mp upper with less | ⟨equal, -⟩
      · exact .finite (Int.le_of_lt (Int.compare_eq_lt.mp less))
      · exact .finite (Int.le_of_eq (Int.compare_eq_eq.mp equal))

theorem ofScientific_zero (spec : Format) {k : Nat} (positive : 0 < k <<< spec.mantissaBits) :
    UnpackedFloat.ofScientific spec k 0 =
      UnpackedFloat.mul spec (.finite .positive (k <<< spec.mantissaBits) (-spec.mantissaBits) positive)
        (.finite .positive 1 0 Nat.one_pos) := by
  have some : k ≠ 0 := by
    rintro rfl
    simp at positive
  have range : (0 : Int) < 2 ^ spec.exponentBits := Int.pow_pos (by decide)
  unfold UnpackedFloat.ofScientific
  rw [dif_neg some, if_neg (by omega), if_neg (by omega), if_pos (Int.le_refl 0)]
  rfl

theorem ofScientific_within {bits k : Nat} (small : k < 2 ^ bits) :
    Within (bits - 52) (UnpackedFloat.ofScientific .binary64 k 0) := by
  by_cases zero : k = 0
  next =>
    rw [zero]
    exact .zero _
  next =>
    have places : Format.binary64.mantissaBits = 53 := rfl
    have size : 0 < k <<< Format.binary64.mantissaBits := by
      rw [Nat.shiftLeft_eq]
      exact Nat.mul_pos (Nat.pos_of_ne_zero zero) (Nat.two_pow_pos _)
    have wide : k <<< Format.binary64.mantissaBits * 1 < 2 ^ (bits + 53) := by
      rw [Nat.mul_one, Nat.shiftLeft_eq, Nat.pow_add]
      exact Nat.mul_lt_mul_of_pos_right small (Nat.two_pow_pos _)
    rw [ofScientific_zero .binary64 size]
    refine Within.mono (mul_finite_within (n := bits - 53) size Nat.one_pos wide ?_ ?_ ?_) ?_
    all_goals omega

theorem within_ofNat {bits k : Nat} (small : k < 2 ^ bits) (most : bits ≤ 1000) :
    FloatWithin (bits - 50) (Float.ofNat k) := by
  show FloatWithin _ (Float.ofScientific k false 0)
  unfold Float.ofScientific
  split
  next =>
    -- Small numbers come from a machine word and are multiplied by one.
    have word : k.toUInt64.toNat < 2 ^ bits := (Nat.mod_le _ _).trans_lt small
    have wordWithin : FloatWithin (bits - 53 + 1) k.toUInt64.toFloat :=
      pack_within (normalize_within .positive word (by omega) (by omega)) (by omega) (by omega)
    have oneWithin : FloatWithin (-52) Float.exactlyRepresentablePowersOfTen[0] := by
      exact .finite (Int.le_refl (-52))
    have product := wordWithin.mul oneWithin (by omega) (by omega)
    exact product.mono (by omega)
  next =>
    have whole := ofScientific_within small
    exact pack_within (whole.mono (by omega)) (by omega) (by omega)

end Numbers

/-- Up to far more tables than a text can hold, no position is too large. -/
theorem position_isFinite {draw : Float} {index : Nat} (unit : 0 ≤ draw ∧ draw < 1)
    (small : index < 2 ^ 256) :
    (Layout.default.position draw index).x.isFinite = true ∧
      (Layout.default.position draw index).y.isFinite = true := by
  have fifty : FloatWithin (-44) (Float.ofNat 50) := @within_ofNat 6 50 (by decide) (by decide)
  -- Both coordinates are the margin and a number of steps of at most 250 each.
  have steps (count step : Nat) (few : count < 2 ^ 256) (short : step < 2 ^ 8) :
      FloatWithin 220 (Float.ofNat 50 + Float.ofNat count * Float.ofNat step) := by
    have product := (within_ofNat few (by decide)).mul (within_ofNat short (by decide)) (by decide)
      (by decide)
    have margin : FloatWithin 218 (Float.ofNat 50) := fifty.mono (by decide)
    exact margin.add product (by decide) (by decide)
  constructor
  next =>
    have two : FloatWithin (-48) (Float.ofNat 2) := @within_ofNat 2 2 (by decide) (by decide)
    have drawn := (((within_of_unit unit.1 unit.2).mul two (by decide) (by decide)).mul fifty
      (by decide) (by decide))
    have jitter := drawn.sub (Within.mono fifty (by decide)) (by decide) (by decide)
    have across := (steps index 250 small (by decide)).add (Within.mono jitter (by decide)) (by decide)
      (by decide)
    exact across.isFinite
  next =>
    have row : (index : Int).fdiv 3 = ((index / 3 : Nat) : Int) := (Int.ofNat_fdiv index 3).symm
    have down := steps (index / 3) 200 ((Nat.div_le_self _ _).trans_lt small) (by decide)
    show (Float.ofNat 50 + Float.ofInt ((index : Int).fdiv 3) * Float.ofNat 200).isFinite = true
    rw [row]
    exact down.isFinite

end SchemaAtlas.Decimal
