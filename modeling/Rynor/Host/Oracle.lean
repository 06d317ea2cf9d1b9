import Mathlib.Algebra.Group.Int.Defs

/-! The operators of the host oracle, `interp.py`. Integers are kept as their 64 bits, truth values as 0 and 1. -/

namespace Rynor.Host.Oracle

inductive Value where
  | num (value : Int)
  | text (bytes : List UInt8)
  deriving DecidableEq, Repr

inductive Binary where
  | add | sub | mul | div | mod | eq | ne | lt | gt | le | ge | and | or
  deriving DecidableEq, Repr

inductive Unary where
  | neg | not
  deriving DecidableEq, Repr

/-- `value & MASK64`. -/
def mask (value : Int) : Int := value % 2 ^ 64

/-- `_signed`. -/
def signed (value : Int) : Int := if mask value ≥ 2 ^ 63 then mask value - 2 ^ 64 else mask value

def intMin : Int := -2 ^ 63

/-- `_div_trunc`. -/
def divTrunc (a b : Int) : Int :=
  let quotient : Int := (a.natAbs / b.natAbs : Nat)
  if (a < 0) ≠ (b < 0) then -quotient else quotient

def truth (value : Bool) : Value := .num (if value then 1 else 0)

/-- `_exec_binop` on integers and truth values; `none` is the trap. -/
def execNum (op : Binary) (left right : Int) : Option Value :=
  let a := signed left
  let b := signed right
  match op with
  | .add => some (.num (mask (a + b)))
  | .sub => some (.num (mask (a - b)))
  | .mul => some (.num (mask (a * b)))
  | .div => if b = 0 ∨ (a = intMin ∧ b = -1) then none else some (.num (mask (divTrunc a b)))
  | .mod => if b = 0 ∨ (a = intMin ∧ b = -1) then none else some (.num (mask (a - divTrunc a b * b)))
  | .eq => some (truth (a = b))
  | .ne => some (truth (a ≠ b))
  | .lt => some (truth (a < b))
  | .gt => some (truth (a > b))
  | .le => some (truth (a ≤ b))
  | .ge => some (truth (a ≥ b))
  | .and => some (truth (left ≠ 0 ∧ right ≠ 0))
  | .or => some (truth (left ≠ 0 ∨ right ≠ 0))

/-- `_exec_binop`. The verifier lets only equality take strings; two values of different kinds are never equal. -/
def execBinop (op : Binary) : Value → Value → Option Value
  | .num left, .num right => execNum op left right
  | left, right => some (truth (if op = .ne then left ≠ right else left = right))

/-- The `unop` instruction on an integer or a truth value. -/
def execUnop (op : Unary) : Value → Value
  | .num value =>
    match op with
    | .neg => .num (mask (-signed value))
    | .not => truth (value = 0)
  | .text bytes => .text bytes

/-- `str_len`. -/
def strLen : Value → Value
  | .text bytes => .num bytes.length
  | value => value

end Rynor.Host.Oracle
