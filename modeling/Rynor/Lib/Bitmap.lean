import Mathlib.Data.List.Basic

/-! Bitmaps packed eight to a byte: single bits, runs of bits and how many are set. -/

namespace Bitmap
open List
open Function (update update_self update_of_ne)

abbrev Bytes := Nat → BitVec 8

variable {bytes : Bytes} {i j start n size : Nat}

def bit (bytes : Bytes) (i : Nat) : Bool := (bytes (i / 8) >>> (i % 8)) &&& 1 == 1

def mask (i : Nat) : BitVec 8 := 1 <<< (i % 8)

def setBit (bytes : Bytes) (i : Nat) : Bytes := update bytes (i / 8) (bytes (i / 8) ||| mask i)

def clearBit (bytes : Bytes) (i : Nat) : Bytes := update bytes (i / 8) (bytes (i / 8) &&& ~~~mask i)

/-- The bits of a run, set one after the other. -/
def setRun (bytes : Bytes) (start n : Nat) : Bytes :=
  (List.range n).foldl (fun bytes j => setBit bytes (start + j)) bytes

def runClear (bytes : Bytes) (start n : Nat) : Bool := (List.range n).all fun j => !bit bytes (start + j)

def used (bytes : Bytes) (size : Nat) : Nat := (List.range size).countP (bit bytes)

lemma bit_eq (bytes : Bytes) (i : Nat) : bit bytes i = (bytes (i / 8)).getLsbD (i % 8) := by
  have low : ∀ word : BitVec 8, (word &&& 1 == 1) = word.getLsbD 0 := by decide
  rw [bit, low, BitVec.getLsbD_ushiftRight, Nat.add_zero]

lemma getLsbD_mask (i : Nat) {k} (short : k < 8) : (mask i).getLsbD k = decide (k = i % 8) := by
  have all : ∀ low : Fin 8, ∀ k : Fin 8, ((1 : BitVec 8) <<< low.val).getLsbD k.val = decide (k.val = low.val) := by
    decide
  exact all ⟨i % 8, Nat.mod_lt _ (by decide)⟩ ⟨k, short⟩

/-- Two bits of one byte are the same bit exactly when their indices agree. -/
lemma same_bit (same : j / 8 = i / 8) : (j % 8 = i % 8) ↔ j = i := by omega

lemma bit_setBit (bytes : Bytes) (i j : Nat) : bit (setBit bytes i) j = (decide (j = i) || bit bytes j) := by
  rw [bit_eq, bit_eq, setBit]
  by_cases same : j / 8 = i / 8
  · rw [same, update_self, BitVec.getLsbD_or, getLsbD_mask i (Nat.mod_lt _ (by decide)), Bool.or_comm]
    simp only [same_bit same]
  · have apart : j ≠ i := fun equal => same (by rw [equal])
    rw [update_of_ne same, decide_eq_false apart, Bool.false_or]

lemma bit_clearBit (bytes : Bytes) (i j : Nat) : bit (clearBit bytes i) j = (!decide (j = i) && bit bytes j) := by
  rw [bit_eq, bit_eq, clearBit]
  by_cases same : j / 8 = i / 8
  · have short : j % 8 < 8 := Nat.mod_lt _ (by decide)
    rw [same, update_self, BitVec.getLsbD_and, BitVec.getLsbD_not, getLsbD_mask i short, decide_eq_true short,
      Bool.true_and, Bool.and_comm]
    simp only [same_bit same]
  · have apart : j ≠ i := fun equal => same (by rw [equal])
    rw [update_of_ne same, decide_eq_false apart, Bool.not_false, Bool.true_and]

lemma setRun_succ (bytes : Bytes) (start n : Nat) :
    setRun bytes start (n + 1) = setBit (setRun bytes start n) (start + n) := by
  rw [setRun, range_succ, foldl_append]
  rfl

@[simp] lemma setRun_one (bytes : Bytes) (i : Nat) : setRun bytes i 1 = setBit bytes i := rfl

lemma bit_setRun (bytes : Bytes) (start n j : Nat) :
    bit (setRun bytes start n) j = (decide (start ≤ j ∧ j < start + n) || bit bytes j) := by
  induction n with
  | zero =>
    have none : ¬(start ≤ j ∧ j < start + 0) := by omega
    simp only [none, decide_false, Bool.false_or]
    rfl
  | succ n ih =>
    rw [setRun_succ, bit_setBit, ih, ← Bool.or_assoc, ← Bool.decide_or]
    congr 2
    simp only [eq_iff_iff]
    omega

lemma runClear_iff : runClear bytes start n = true ↔ ∀ j, start ≤ j → j < start + n → bit bytes j = false := by
  simp only [runClear, all_eq_true, mem_range, Bool.not_eq_true']
  constructor
  · intro clear j low high
    have found := clear (j - start) (by omega)
    rwa [Nat.add_sub_cancel' low] at found
  · exact fun clear j short => clear (start + j) (by omega) (by omega)

/-! Counting. -/

lemma used_le (bytes : Bytes) (size : Nat) : used bytes size ≤ size := by
  simpa [used] using countP_le_length (p := bit bytes) (l := List.range size)

lemma used_succ (bytes : Bytes) (size : Nat) : used bytes (size + 1) = used bytes size + (bit bytes size).toNat := by
  rw [used, range_succ, countP_append, countP_singleton, used]
  cases bit bytes size <;> rfl

lemma used_congr {other} (same : ∀ j < size, bit other j = bit bytes j) : used other size = used bytes size :=
  countP_congr fun j member => by rw [same j (mem_range.mp member)]

lemma used_setBit (inside : i < size) (clear : bit bytes i = false) :
    used (setBit bytes i) size = used bytes size + 1 := by
  induction size with
  | zero => cases inside
  | succ size ih =>
    rw [used_succ, used_succ, bit_setBit]
    by_cases last : size = i
    · subst last
      have before : used (setBit bytes size) size = used bytes size :=
        used_congr fun j short => by rw [bit_setBit, decide_eq_false (by omega), Bool.false_or]
      simp [before, clear]
    · rw [ih (by omega), decide_eq_false last, Bool.false_or]
      omega

lemma used_clearBit (inside : i < size) (isSet : bit bytes i = true) :
    used (clearBit bytes i) size + 1 = used bytes size := by
  rw [← used_setBit inside (by simp [bit_clearBit])]
  refine used_congr fun j _ => ?_
  rw [bit_setBit, bit_clearBit]
  by_cases same : j = i <;> simp [same, isSet]

lemma used_setRun (inside : start + n ≤ size) (clear : runClear bytes start n = true) :
    used (setRun bytes start n) size = used bytes size + n := by
  rw [runClear_iff] at clear
  induction n with
  | zero => rfl
  | succ n ih =>
    have next : bit (setRun bytes start n) (start + n) = false := by
      rw [bit_setRun, decide_eq_false (by omega), Bool.false_or]
      exact clear _ (by omega) (by omega)
    rw [setRun_succ, used_setBit (by omega) next, ih (by omega) fun j low high => clear j low (by omega)]
    omega

/-- Everything is in use exactly when no bit is clear. -/
lemma used_eq_size : used bytes size = size ↔ ∀ j < size, bit bytes j = true := by
  have length := countP_eq_length (p := bit bytes) (l := List.range size)
  simpa [used] using length

end Bitmap
