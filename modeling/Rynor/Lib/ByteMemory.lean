import Mathlib.Algebra.GroupWithZero.Nat
import Mathlib.Data.List.Range

/-! Byte-addressed memory as a function from offsets to bytes, with the block
copies, little-endian words and sector stores that storage code is made of.
Nothing here depends on a particular format or device. -/

/-- A byte pointer: the byte at every offset from it. -/
abbrev ByteMemory := Nat → UInt8

namespace ByteMemory
open List
variable {first second memory source : ByteMemory} {start count index size offset address : Nat} {bytes : List UInt8}

/-- The `count` bytes from `start` on. -/
def slice (memory : ByteMemory) (start count : Nat) : List UInt8 :=
  (List.range count).map fun index => memory (start + index)

def ofList (bytes : List UInt8) : ByteMemory := fun index => bytes.getD index 0

/-- Pointer arithmetic. -/
def shift (memory : ByteMemory) (offset : Nat) : ByteMemory := fun index => memory (offset + index)

/-- Copy `count` bytes of `source` over `memory`, starting at `start`. -/
def overlay (memory : ByteMemory) (start count : Nat) (source : ByteMemory) : ByteMemory :=
  fun index => if start ≤ index ∧ index < start + count then source (index - start) else memory index

@[simp] lemma slice_length (memory : ByteMemory) (start count : Nat) : (memory.slice start count).length = count := by
  simp [slice]

@[simp] lemma slice_getElem (memory : ByteMemory) (start count index : Nat)
    (inside : index < (memory.slice start count).length) :
    (memory.slice start count)[index] = memory (start + index) := by
  simp [slice]

lemma slice_congr (same : ∀ index, index < count → first (start + index) = second (other + index)) :
    first.slice start count = second.slice other count := by
  apply ext_getElem (by simp)
  intro index inside _
  simpa using same index (by simpa using inside)

lemma slice_add (memory : ByteMemory) (start first rest : Nat) :
    memory.slice start (first + rest) = memory.slice start first ++ memory.slice (start + first) rest := by
  simp [slice, range_add, add_assoc, Function.comp_def]

lemma slice_succ (memory : ByteMemory) (start count : Nat) :
    memory.slice start (count + 1) = memory start :: memory.slice (start + 1) count := by
  rw [add_comm count 1, slice_add]
  simp [slice]

@[simp] lemma slice_zero (memory : ByteMemory) (start : Nat) : memory.slice start 0 = [] := rfl

lemma slice_take (memory : ByteMemory) (start count some : Nat) (within : some ≤ count) :
    (memory.slice start count).take some = memory.slice start some := by
  obtain ⟨rest, rfl⟩ := Nat.exists_eq_add_of_le within
  rw [slice_add, take_left' (slice_length ..)]

lemma slice_drop (memory : ByteMemory) (start count some : Nat) (within : some ≤ count) :
    (memory.slice start count).drop some = memory.slice (start + some) (count - some) := by
  obtain ⟨rest, rfl⟩ := Nat.exists_eq_add_of_le within
  rw [slice_add, drop_left' (slice_length ..)]
  simp

lemma slice_shift (memory : ByteMemory) (offset start count : Nat) :
    (memory.shift offset).slice start count = memory.slice (offset + start) count := by
  simp [slice, shift, add_assoc]

@[simp] lemma shift_apply (memory : ByteMemory) (offset index : Nat) :
    memory.shift offset index = memory (offset + index) := rfl

@[simp] lemma shift_zero (memory : ByteMemory) : memory.shift 0 = memory := by
  funext index
  rw [shift_apply, zero_add]

lemma shift_shift (memory : ByteMemory) (first second : Nat) :
    (memory.shift first).shift second = memory.shift (first + second) := by
  funext index
  simp only [shift_apply, add_assoc]

lemma mem_slice : byte ∈ memory.slice start count ↔ ∃ index, index < count ∧ memory (start + index) = byte := by
  simp [slice]

lemma slice_ofList (bytes : List UInt8) (start count : Nat) (within : start + count ≤ bytes.length) :
    (ofList bytes).slice start count = (bytes.drop start).take count := by
  apply ext_getElem
  · simp; omega
  · intro index inside _
    have inside : index < count := by simpa using inside
    simp [ofList, show start + index < bytes.length by omega]

lemma overlay_inside (first : start ≤ index) (last : index < start + count) :
    memory.overlay start count source index = source (index - start) := by
  simp [overlay, first, last]

lemma overlay_outside (outside : index < start ∨ start + count ≤ index) :
    memory.overlay start count source index = memory index := by
  simp only [overlay]
  split
  · omega
  · rfl

lemma overlay_slice_disjoint {first} (disjoint : first + size ≤ start ∨ start + count ≤ first) :
    (memory.overlay start count source).slice first size = memory.slice first size :=
  slice_congr fun index inside => overlay_outside (by omega)

@[simp] lemma overlay_zero (memory source : ByteMemory) (start : Nat) : memory.overlay start 0 source = memory := by
  funext index
  exact overlay_outside (by omega)

/-- Two adjacent copies are one. -/
lemma overlay_join {tail first next rest total} (adjacent : next = start + first)
    (whole : total = first + rest) (continues : ∀ index, index < rest → tail index = source (first + index)) :
    (memory.overlay start first source).overlay next rest tail = memory.overlay start total source := by
  subst adjacent whole
  funext index
  by_cases before : index < start + first
  · rw [overlay_outside (.inl before)]
    by_cases low : start ≤ index
    · rw [overlay_inside low before, overlay_inside low (by omega)]
    · rw [overlay_outside (by omega), overlay_outside (by omega)]
  by_cases inside : index < start + first + rest
  · rw [overlay_inside (by omega) inside, overlay_inside (by omega) (by omega), continues _ (by omega)]
    congr 1
    omega
  · rw [overlay_outside (by omega), overlay_outside (by omega), overlay_outside (by omega)]

lemma overlay_congr (same : ∀ index, index < count → first index = second index) :
    memory.overlay start count first = memory.overlay start count second := by
  funext index
  by_cases inside : start ≤ index ∧ index < start + count
  · rw [overlay_inside inside.1 inside.2, overlay_inside inside.1 inside.2, same _ (by omega)]
  · rw [overlay_outside (by omega), overlay_outside (by omega)]

lemma slice_overlay_same (memory source : ByteMemory) (start count : Nat) :
    (memory.overlay start count source).slice start count = source.slice 0 count :=
  slice_congr fun index inside => by
    rw [overlay_inside (by omega) (by omega)]
    congr 1
    omega

/-- `bytes` with `payload` written over it from `offset` on, growing it if need be. -/
def splice (bytes : List UInt8) (offset : Nat) (payload : List UInt8) : List UInt8 :=
  bytes.take offset ++ payload ++ bytes.drop (offset + payload.length)

/-- A copy into a range that holds `length` bytes splices it. -/
lemma slice_overlay_splice (memory source : ByteMemory) {length} (within : offset ≤ length) :
    (memory.overlay (start + offset) count source).slice start (max length (offset + count)) =
      splice (memory.slice start length) offset (source.slice 0 count) := by
  simp only [splice, slice_length]
  have sizes : max length (offset + count) = offset + (count + (length - (offset + count))) := by omega
  rw [sizes, slice_add, slice_add, slice_take _ _ _ _ within, slice_overlay_same]
  rw [overlay_slice_disjoint (by omega), overlay_slice_disjoint (by omega), append_assoc]
  congr 2
  rcases Nat.le_total (offset + count) length with fits | past
  · rw [slice_drop _ _ _ _ fits, add_assoc]
  · rw [drop_eq_nil_of_le (by simpa using past), Nat.sub_eq_zero_of_le past, slice_zero]

/-! Little-endian words. -/

/-- The value of `count` little-endian bytes at a pointer. -/
def littleEndian (memory : ByteMemory) : Nat → Nat
  | 0 => 0
  | count + 1 => (memory 0).toNat + 256 * littleEndian (memory.shift 1) count

/-- The little-endian bytes of a number. -/
def ofNat (value : Nat) : ByteMemory := fun index => UInt8.ofNat (value / 256 ^ index)

lemma littleEndian_congr (same : ∀ index, index < count → first index = second index) :
    littleEndian first count = littleEndian second count := by
  induction count generalizing first second with
  | zero => rfl
  | succ count ih =>
    have rest : littleEndian (first.shift 1) count = littleEndian (second.shift 1) count :=
      ih fun index inside => same (1 + index) (by omega)
    simp only [littleEndian, rest, same 0 (by omega)]

lemma littleEndian_ofNat (value count : Nat) : littleEndian (ofNat value) count = value % 256 ^ count := by
  induction count generalizing value with
  | zero => simp [littleEndian, Nat.mod_one]
  | succ count ih =>
    have next : (ofNat value).shift 1 = ofNat (value / 256) := by
      funext index
      simp only [shift, ofNat, Nat.div_div_eq_div_mul]
      rw [add_comm 1 index, Nat.pow_succ, mul_comm]
    have low : (ofNat value 0).toNat = value % 256 := by simp [ofNat]
    simp only [littleEndian, next, ih, low]
    rw [Nat.pow_succ, mul_comm (256 ^ count) 256, Nat.mod_mul]

lemma littleEndian_ofNat_of_lt (fits : value < 256 ^ count) : littleEndian (ofNat value) count = value := by
  rw [littleEndian_ofNat, Nat.mod_eq_of_lt fits]

lemma littleEndian_zero (clear : ∀ index, index < count → memory index = 0) : littleEndian memory count = 0 := by
  have zeroes : littleEndian memory count = littleEndian (ofNat 0) count :=
    littleEndian_congr fun index inside => by simp [clear index inside, ofNat]
  rw [zeroes, littleEndian_ofNat, Nat.zero_mod]

/-! Sector stores: a device accepts whole sectors of `size` bytes, one at a time. -/

/-- Replace one sector. -/
def store (size : Nat) (memory : ByteMemory) (sector : Nat) (bytes : ByteMemory) : ByteMemory :=
  fun address => if address / size = sector then bytes (address % size) else memory address

/-- The memory left by a sequence of sector stores, oldest first. -/
def replay (size : Nat) (memory : ByteMemory) (stores : List (Nat × ByteMemory)) : ByteMemory :=
  stores.foldl (fun current entry => store size current entry.1 entry.2) memory

@[simp] lemma replay_nil (size : Nat) (memory : ByteMemory) : replay size memory [] = memory := rfl

@[simp] lemma replay_cons (size : Nat) (memory : ByteMemory) (entry : Nat × ByteMemory)
    (stores : List (Nat × ByteMemory)) :
    replay size memory (entry :: stores) = replay size (store size memory entry.1 entry.2) stores := rfl

lemma replay_append (size : Nat) (memory : ByteMemory) (first rest : List (Nat × ByteMemory)) :
    replay size memory (first ++ rest) = replay size (replay size memory first) rest := by
  simp [replay]

lemma store_other {bytes sector} (other : address / size ≠ sector) :
    store size memory sector bytes address = memory address := by
  simp [store, other]

/-- Stores outside a range of sectors leave every byte of the range alone. -/
lemma replay_outside (outside : ∀ entry ∈ stores, entry.1 ≠ address / size) :
    replay size memory stores address = memory address := by
  induction stores generalizing memory with
  | nil => rfl
  | cons entry stores ih =>
    rw [replay_cons, ih fun later member => outside later (by simp [member])]
    exact store_other fun same => outside entry (by simp) same.symm

/-- Writing back a sector read from the memory and patched in place changes the
patched bytes only. -/
lemma store_overlay (memory source : ByteMemory) (sector start count : Nat) (fits : start + count ≤ size) :
    store size memory sector ((memory.shift (size * sector)).overlay start count source) = memory.overlay
    (size * sector + start) count source := by
  funext address
  simp only [store]
  split
  next same =>
    have split := Nat.div_add_mod address size
    rw [same] at split
    by_cases inside : start ≤ address % size ∧ address % size < start + count
    · rw [overlay_inside inside.1 inside.2, overlay_inside (by omega) (by omega)]
      congr 1
      omega
    · rw [overlay_outside (by omega), overlay_outside (by omega), shift_apply, split]
  rename_i other
  rw [overlay_outside ?_]
  rcases Nat.eq_zero_or_pos size with rfl | positive
  · omega
  by_contra within
  apply other
  rw [Nat.div_eq_of_lt_le]
  · have := mul_comm size sector
    omega
  · have := mul_comm size sector
    rw [Nat.succ_mul]
    omega

/-- A store of a whole sector is a copy of the sector's bytes. -/
lemma store_eq_overlay (positive : 0 < size) (memory bytes : ByteMemory) (sector : Nat) :
    store size memory sector bytes = memory.overlay (size * sector) size bytes := by
  have patched := store_overlay memory bytes sector 0 size (Nat.le_of_eq (Nat.zero_add size))
  rw [Nat.add_zero] at patched
  rw [← patched]
  funext address
  simp only [store]
  split
  · rw [overlay_inside (Nat.zero_le _) (by rw [Nat.zero_add]; exact Nat.mod_lt _ positive), Nat.sub_zero]
  · rfl

end ByteMemory
