import Rynor.Shell.Parse

/-! The evaluator of the resident session, `rl_eval.c`: an iterative walk over the pool with a stack of entries still
to be visited and a stack of values, both bounded. -/

namespace Rynor.Shell

def subWalk : Nat := 512
def subVcap : Nat := 66

/-- A row of the symbol table. `pay` holds the bits of an integer, a truth value or the place of a string in the
session arena. -/
structure Sym where
  nameOff : Nat
  nameLen : Nat
  type : Ty
  flags : BitVec 8
  strLen : Nat
  pay : BitVec 64
  deriving DecidableEq, Repr

/-- A value; a string stands for the bytes its address and length denote. -/
inductive Value where
  | int (bits : BitVec 64)
  | bool (value : Bool)
  | str (bytes : List UInt8)
  | unit
  deriving DecidableEq, Repr

/-! Operators. -/

def signBit : BitVec 64 := 0x8000000000000000#64

def intMin : BitVec 64 := 0x8000000000000000#64

def mask64 : BitVec 64 := 0xFFFFFFFFFFFFFFFF#64

def isNegative (a : BitVec 64) : Bool := a &&& signBit != 0

def magnitude (a : BitVec 64) : BitVec 64 := if isNegative a then -a else a

/-- The quotient rounded toward zero. -/
def quotient (a b : BitVec 64) : BitVec 64 :=
  let q := magnitude a / magnitude b
  if isNegative a != isNegative b then -q else q

/-- `rl_slt`. -/
def signedLess (a b : BitVec 64) : Bool := (a ^^^ signBit).ult (b ^^^ signBit)

/-- The outcomes of the evaluator other than `RL_EV_OK`. -/
inductive EvalFault where
  | trap | internal
  deriving DecidableEq, Repr

abbrev Evaluated (α : Type) := Except EvalFault α

def evalUnop : UnOp → Value → Evaluated Value
  | .neg, .int a => .ok (.int (-a))
  | .not, .bool a => .ok (.bool (!a))
  | _, _ => .error .internal

def evalInt (op : BinOp) (a b : BitVec 64) : Evaluated Value :=
  match op with
  | .add => .ok (.int (a + b))
  | .sub => .ok (.int (a - b))
  | .mul => .ok (.int (a * b))
  | .div =>
    if b = 0 ∨ (a = intMin ∧ b = mask64) then .error .trap
    else .ok (.int (quotient a b))
  | .mod =>
    if b = 0 ∨ (a = intMin ∧ b = mask64) then .error .trap
    else .ok (.int (a - quotient a b * b))
  | .eq => .ok (.bool (a = b))
  | .ne => .ok (.bool (a ≠ b))
  | .lt => .ok (.bool (signedLess a b))
  | .gt => .ok (.bool (signedLess b a))
  | .le => .ok (.bool (!signedLess b a))
  | .ge => .ok (.bool (!signedLess a b))
  | .and | .or => .error .internal

def evalBool (op : BinOp) (a b : Bool) : Evaluated Value :=
  match op with
  | .eq => .ok (.bool (a = b))
  | .ne => .ok (.bool (a ≠ b))
  | .and => .ok (.bool (a && b))
  | .or => .ok (.bool (a || b))
  | _ => .error .internal

def evalStr (op : BinOp) (a b : List UInt8) : Evaluated Value :=
  match op with
  | .eq => .ok (.bool (a = b))
  | .ne => .ok (.bool (a ≠ b))
  | _ => .error .internal

def evalBinop (op : BinOp) : Value → Value → Evaluated Value
  | .int a, .int b => evalInt op a b
  | .bool a, .bool b => evalBool op a b
  | .str a, .str b => evalStr op a b
  | _, _ => .error .internal

/-! Printing. -/

/-- The decimal digits of a magnitude, the last one first; `tmp` holds 21 of them. -/
def digits : Nat → Nat → List UInt8
  | 0, _ => []
  | _, 0 => []
  | room + 1, mag => UInt8.ofNat (ch '0' |>.toNat.add (mag % 10)) :: digits room (mag / 10)

def renderCap : Nat := 24

/-- `rl_render` into a buffer of `renderCap` bytes. -/
def render : Value → List UInt8
  | .bool value => if value then ascii "true" else ascii "false"
  | .str bytes => if bytes.length > renderCap then [] else bytes
  | .int bits =>
    let text := if magnitude bits = 0 then ascii "0" else (digits 21 (magnitude bits).toNat).reverse
    if isNegative bits then ch '-' :: text else text
  | .unit => []

/-! The walk. -/

structure EvalContext where
  pool : List Node
  syms : List Sym
  arena : List UInt8

/-- The entries still to be visited, with the mark of the second visit, the values and what was printed. -/
structure EvalState where
  walk : List (Nat × Bool)
  vals : List Value
  emitted : List (List UInt8)

def Sym.value (arena : List UInt8) (sym : Sym) : Option Value :=
  match sym.type with
  | .int => some (.int sym.pay)
  | .bool => some (.bool (sym.pay != 0))
  | .str => some (.str (slice arena sym.pay.toNat sym.strLen))
  | .unit => none

def EvalState.push (state : EvalState) (value : Value) : Evaluated EvalState :=
  if state.vals.length ≥ subVcap then .error .internal else .ok { state with vals := value :: state.vals }

/-- The second visit of an entry behind its children. -/
def EvalState.visit (state : EvalState) (index : Nat) (children : List Nat) : Evaluated EvalState :=
  if state.walk.length + (children.length + 1) > subWalk then .error .internal
  else .ok { state with walk := children.map (·, false) ++ (index, true) :: state.walk }

def evalFirst (context : EvalContext) (index : Nat) (state : EvalState) : Node → Evaluated EvalState
  | .int bits => state.push (.int bits)
  | .bool value => state.push (.bool value)
  | .str bytes => state.push (.str bytes)
  | .var _ _ slot =>
    match slot.bind (context.syms[·]?) with
    | none => .error .internal
    | some sym =>
      match sym.value context.arena with
      | none => .error .internal
      | some value => state.push value
  | .unop _ k1 => state.visit index [k1]
  | .binop _ k1 k2 => state.visit index [k1, k2]
  | .call (some k1) _ _ | .len (some k1) _ => state.visit index [k1]
  | _ => .error .internal

/-- `print`: the text of a value. -/
def EvalState.emit (state : EvalState) : Value → Evaluated EvalState
  | .str bytes => .ok { state with emitted := state.emitted ++ [bytes] }
  | .unit => .error .internal
  | value => if render value = [] then .error .internal
    else .ok { state with emitted := state.emitted ++ [render value] }

def evalSecond (state : EvalState) : Node → Evaluated EvalState
  | .unop op _ =>
    match state.vals with
    | a :: vals => do ({ state with vals } : EvalState).push (← evalUnop op a)
    | _ => .error .internal
  | .binop op _ _ =>
    match state.vals with
    | b :: a :: vals => do ({ state with vals } : EvalState).push (← evalBinop op a b)
    | _ => .error .internal
  | .call .. =>
    match state.vals with
    | a :: vals => do (← ({ state with vals } : EvalState).emit a).push .unit
    | _ => .error .internal
  | .len .. =>
    match state.vals with
    | .str bytes :: vals => ({ state with vals } : EvalState).push (.int (BitVec.ofNat 64 bytes.length))
    | _ => .error .internal
  | _ => .error .internal

/-- One turn of the loop on the entry taken from the walk. -/
def evalStep (context : EvalContext) (entry : Nat × Bool) (state : EvalState) : Evaluated EvalState :=
  if entry.1 ≥ poolMax then .error .internal
  else
    match context.pool[entry.1]? with
    | none => .error .internal
    | some node => if entry.2 then evalSecond state node else evalFirst context entry.1 state node

def evalLoop (context : EvalContext) : Nat → EvalState → Evaluated EvalState
  | 0, _ => .error .internal
  | fuel + 1, state =>
    match state.walk with
    | [] => .ok state
    | entry :: walk => do evalLoop context fuel (← evalStep context entry { state with walk })

/-- Two visits to every node of the pool and the look at the empty walk. -/
def walkFuel : Nat := 2 * poolMax + 1

/-- `rl_eval`: the value of a subtree and what was printed. -/
def eval (context : EvalContext) (root : Nat) : Evaluated (Value × List (List UInt8)) :=
  if root ≥ poolMax then .error .internal
  else do
    let state ← evalLoop context walkFuel ⟨[(root, false)], [], []⟩
    match state.vals with
    | [value] => return (value, state.emitted)
    | _ => .error .internal

end Rynor.Shell
