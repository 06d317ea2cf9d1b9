import Mathlib.Algebra.GroupWithZero.Nat

/-! The processor state that kernel entry points look at. -/

namespace Rynor

def u64 : Nat := 2 ^ 64

structure Cpu where
  interruptsDisabled : Bool
  irqInContext : Bool
  deriving DecidableEq

/-- The guard at the head of every foreground entry point. -/
def Cpu.foreground (cpu : Cpu) : Bool := cpu.interruptsDisabled && !cpu.irqInContext

lemma Cpu.foreground_interrupts {cpu : Cpu} (inside : cpu.foreground = true) : cpu.interruptsDisabled = true := by
  simp only [Cpu.foreground, Bool.and_eq_true] at inside
  exact inside.1

end Rynor
