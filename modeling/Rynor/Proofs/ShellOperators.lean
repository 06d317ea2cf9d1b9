import Mathlib.Tactic.SplitIfs
import Rynor.Host.Oracle
import Rynor.Shell.Sem

/-! The operators of the resident evaluator are those of the host oracle: unsigned machine arithmetic on the bits
against the oracle's masked arithmetic on signed integers. -/

namespace Rynor.Shell
open Host
variable {op : BinOp}

def Value.host : Value → Oracle.Value
  | .int bits => .num bits.toNat
  | .bool value => Oracle.truth value
  | .str bytes => .text bytes
  | .unit => .num 0

def UnOp.host : UnOp → Oracle.Unary
  | .neg => .neg
  | .not => .not

def BinOp.host : BinOp → Oracle.Binary
  | .add => .add
  | .sub => .sub
  | .mul => .mul
  | .div => .div
  | .mod => .mod
  | .eq => .eq
  | .ne => .ne
  | .lt => .lt
  | .gt => .gt
  | .le => .le
  | .ge => .ge
  | .and => .and
  | .or => .or

def Value.ty : Value → Ty
  | .int _ => .int
  | .bool _ => .bool
  | .str _ => .str
  | .unit => .unit

variable (a b : BitVec 64) {ty : Ty}

/-! The bits of an integer. -/

lemma mask_eq (value : Int) : Oracle.mask value = ((BitVec.ofInt 64 value).toNat : Int) := by
  have positive : 0 ≤ value % 2 ^ 64 := Int.emod_nonneg _ (by decide)
  rw [BitVec.toNat_ofInt, Oracle.mask]
  omega

lemma signed_toNat : Oracle.signed (a.toNat : Int) = a.toInt := by
  have small := a.isLt
  unfold Oracle.signed Oracle.mask
  rw [BitVec.toInt_eq_toNat_cond]
  split_ifs <;> omega

lemma toNat_xor_signBit : (a ^^^ signBit).toNat = if a.toNat < 2 ^ 63 then a.toNat + 2 ^ 63 else a.toNat - 2 ^ 63 := by
  have small := a.isLt
  have sign : signBit.toNat = 2 ^ 63 := rfl
  have low : (a.toNat ^^^ 2 ^ 63) % 2 ^ 63 = a.toNat % 2 ^ 63 := by
    rw [Nat.xor_mod_two_pow, Nat.mod_self, Nat.xor_zero]
  have high : (a.toNat ^^^ 2 ^ 63) / 2 ^ 63 = (a.toNat / 2 ^ 63) ^^^ 1 := by
    rw [Nat.xor_div_two_pow, Nat.div_self (by decide)]
  rw [BitVec.toNat_xor, sign]
  have split := Nat.div_add_mod (a.toNat ^^^ 2 ^ 63) (2 ^ 63)
  rw [low, high] at split
  split_ifs with below
  · rw [Nat.div_eq_of_lt below] at split
    have one : 0 ^^^ 1 = 1 := rfl
    rw [one] at split
    omega
  · have top : a.toNat / 2 ^ 63 = 1 := by omega
    rw [top] at split
    have zero : 1 ^^^ 1 = 0 := rfl
    rw [zero] at split
    omega

lemma signedLess_iff : signedLess a b = decide (a.toInt < b.toInt) := by
  unfold signedLess
  rw [BitVec.ult, toNat_xor_signBit, toNat_xor_signBit, BitVec.toInt_eq_toNat_cond, BitVec.toInt_eq_toNat_cond]
  have left := a.isLt
  have right := b.isLt
  rw [decide_eq_decide]
  split_ifs <;> omega

lemma isNegative_eq : isNegative a = a.msb := by
  have small := a.isLt
  have sign : signBit.toNat = 2 ^ 63 := rfl
  have low : (a.toNat &&& 2 ^ 63) % 2 ^ 63 = 0 := by
    rw [Nat.and_mod_two_pow, Nat.mod_self, Nat.and_zero]
  have high : (a.toNat &&& 2 ^ 63) / 2 ^ 63 = (a.toNat / 2 ^ 63) % 2 := by
    rw [Nat.and_div_two_pow, Nat.div_self (by decide), Nat.and_one_is_mod]
  have bit : isNegative a = decide ((a.toNat &&& 2 ^ 63) ≠ 0) := by
    unfold isNegative
    rw [Bool.eq_iff_iff, bne_iff_ne, decide_eq_true_iff, ne_eq, BitVec.toNat_eq, BitVec.toNat_and, sign]
    rfl
  rw [bit, BitVec.msb_eq_decide, decide_eq_decide]
  omega

/-- The quotient over magnitudes is the signed division of the machine. -/
lemma quotient_eq : quotient a b = a.sdiv b := by
  unfold quotient magnitude
  rw [isNegative_eq, isNegative_eq, BitVec.sdiv]
  cases a.msb <;> cases b.msb <;> rfl

lemma divTrunc_eq (left right : Int) : Oracle.divTrunc left right = left.tdiv right := by
  unfold Oracle.divTrunc
  rcases left with m | m <;> rcases right with n | n
  · have same : (Int.ofNat m < 0) = (Int.ofNat n < 0) :=
      propext ⟨fun negative => absurd negative (Int.not_lt.mpr (Int.natCast_nonneg m)),
        fun negative => absurd negative (Int.not_lt.mpr (Int.natCast_nonneg n))⟩
    rw [if_neg (not_not_intro same)]
    rfl
  all_goals simp [Int.tdiv, Int.negSucc_lt_zero]

/-! The operators. -/

lemma mask_add : Oracle.mask (a.toInt + b.toInt) = (a + b).toNat := by
  rw [mask_eq, BitVec.ofInt_add, BitVec.ofInt_toInt, BitVec.ofInt_toInt]

lemma mask_neg : Oracle.mask (-a.toInt) = (-a).toNat := by
  rw [mask_eq, BitVec.ofInt_neg, BitVec.ofInt_toInt]

lemma mask_sub : Oracle.mask (a.toInt - b.toInt) = (a - b).toNat := by
  rw [mask_eq, Int.sub_eq_add_neg, BitVec.ofInt_add, BitVec.ofInt_neg, BitVec.ofInt_toInt, BitVec.ofInt_toInt,
    BitVec.sub_eq_add_neg]

lemma mask_mul : Oracle.mask (a.toInt * b.toInt) = (a * b).toNat := by
  rw [mask_eq, BitVec.ofInt_mul, BitVec.ofInt_toInt, BitVec.ofInt_toInt]

lemma ofInt_tdiv : BitVec.ofInt 64 (a.toInt.tdiv b.toInt) = quotient a b := by
  rw [quotient_eq, ← BitVec.toInt_inj, BitVec.toInt_sdiv, BitVec.toInt_ofInt]

lemma mask_div : Oracle.mask (Oracle.divTrunc a.toInt b.toInt) = (quotient a b).toNat := by
  rw [mask_eq, divTrunc_eq, ofInt_tdiv]

lemma mask_mod : Oracle.mask (a.toInt - Oracle.divTrunc a.toInt b.toInt * b.toInt) = (a - quotient a b * b).toNat := by
  rw [mask_eq, divTrunc_eq, Int.sub_eq_add_neg, BitVec.ofInt_add, BitVec.ofInt_neg, BitVec.ofInt_mul,
    BitVec.ofInt_toInt,
    BitVec.ofInt_toInt, ofInt_tdiv, BitVec.sub_eq_add_neg]

lemma traps_iff : (b.toInt = 0 ∨ (a.toInt = Oracle.intMin ∧ b.toInt = -1)) ↔ (b = 0 ∨ (a = intMin ∧ b = mask64)) := by
  have zero : b.toInt = 0 ↔ b = 0 := BitVec.toInt_inj (y := 0)
  have least : a.toInt = Oracle.intMin ↔ a = intMin := BitVec.toInt_inj (y := intMin)
  have minus : b.toInt = -1 ↔ b = mask64 := BitVec.toInt_inj (y := mask64)
  rw [zero, least, minus]

/-- A result of the evaluator is the oracle's, of type `ty`. -/
def Matches (ty : Ty) : Evaluated Value → Option Oracle.Value → Prop
  | .ok value, some expected => value.ty = ty ∧ value.host = expected
  | .error .trap, none => True
  | _, _ => False

lemma Matches.cases {given wanted} (matched : Matches ty given wanted) :
    given = .error .trap ∧ wanted = none ∨ ∃ value, given = .ok value ∧ value.ty = ty ∧ wanted = some value.host := by
  unfold Matches at matched
  split at matched
  · exact .inr ⟨_, rfl, matched.1, congrArg some matched.2.symm⟩
  · exact .inl ⟨rfl, rfl⟩
  · cases matched

lemma truth_congr {left right : Prop} [Decidable left] [Decidable right] (same : left ↔ right) :
    (Value.bool (decide left)).host = Oracle.truth (decide right) :=
  congrArg Oracle.truth (decide_eq_decide.mpr same)

lemma evalInt_matches (typed : binopType op .int .int = some ty) :
    Matches ty (evalInt op a b) (Oracle.execNum op.host a.toNat b.toNat) := by
  cases op <;> cases typed <;> simp only [evalInt, Oracle.execNum, BinOp.host, signed_toNat]
  case add => exact ⟨rfl, congrArg _ (mask_add a b).symm⟩
  case sub => exact ⟨rfl, congrArg _ (mask_sub a b).symm⟩
  case mul => exact ⟨rfl, congrArg _ (mask_mul a b).symm⟩
  case div | mod =>
    by_cases trapped : b = 0 ∨ (a = intMin ∧ b = mask64)
    · rw [if_pos trapped, if_pos ((traps_iff a b).mpr trapped)]
      trivial
    rw [if_neg trapped, if_neg (mt (traps_iff a b).mp trapped)]
    first
      | exact ⟨rfl, congrArg _ (mask_div a b).symm⟩
      | exact ⟨rfl, congrArg _ (mask_mod a b).symm⟩
  case eq => exact ⟨rfl, truth_congr BitVec.toInt_inj.symm⟩
  case ne => exact ⟨rfl, truth_congr (not_congr BitVec.toInt_inj.symm)⟩
  case lt => exact ⟨rfl, congrArg Oracle.truth (signedLess_iff a b)⟩
  case gt => exact ⟨rfl, congrArg Oracle.truth (signedLess_iff b a)⟩
  case le => exact ⟨rfl, by rw [signedLess_iff, ← decide_not]; exact truth_congr Int.not_lt⟩
  case ge => exact ⟨rfl, by rw [signedLess_iff, ← decide_not]; exact truth_congr Int.not_lt⟩

/-- A well-typed binary operator gives the oracle's value, or traps with it. -/
lemma evalBinop_matches {left right} (typed : binopType op left.ty right.ty = some ty) :
    Matches ty (evalBinop op left right) (Oracle.execBinop op.host left.host right.host) := by
  cases left <;> cases right
  case int.int a b => exact evalInt_matches a b typed
  case bool.bool left right => cases op <;> cases typed <;> cases left <;> cases right <;> exact ⟨rfl, by decide⟩
  case str.str left right =>
    cases op <;> cases typed
    case eq => exact ⟨rfl, by simp [Value.host, BinOp.host]⟩
    case ne => exact ⟨rfl, by simp [Value.host, BinOp.host]⟩
  all_goals cases op <;> cases typed

lemma evalUnop_matches {op value} (typed : unopType op value.ty = some ty) :
    ∃ result, evalUnop op value = .ok result ∧ result.ty = ty ∧ result.host = Oracle.execUnop op.host value.host := by
  cases op <;> cases value <;> cases typed
  case neg.int a =>
    refine ⟨_, rfl, rfl, ?_⟩
    simp only [Value.host, Oracle.execUnop, UnOp.host, signed_toNat, mask_neg]
  case not.bool value =>
    refine ⟨_, rfl, rfl, ?_⟩
    cases value <;> decide

end Rynor.Shell
