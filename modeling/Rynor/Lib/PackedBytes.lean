import Rynor.Lib.ByteMemory

/-! Byte strings with little-endian integers in them, as host tools slice, pack and unpack
them, and the memory such a string is. -/

namespace PackedBytes
open ByteMemory List
variable {bytes first rest : List UInt8} {start count index width value : Nat} {memory : ByteMemory}

/-- The part of a string from `start` up to `stop`, cut at its end. -/
def window {α : Type} (bytes : List α) (start stop : Nat) : List α := (bytes.take stop).drop start

/-- The unsigned integer a little-endian string denotes. -/
def unpack : List UInt8 → Nat
  | [] => 0
  | byte :: rest => byte.toNat + 256 * unpack rest

/-- An unsigned integer in `width` bytes, refused when it does not fit. -/
def pack {ε : Type} (refused : ε) (width value : Nat) : Except ε (List UInt8) :=
  if value < 256 ^ width then .ok ((ofNat value).slice 0 width) else .error refused

lemma unpack_slice (memory : ByteMemory) (start count : Nat) :
    unpack (memory.slice start count) = littleEndian (memory.shift start) count := by
  induction count generalizing start with
  | zero => rfl
  | succ count ih =>
    have next : (memory.shift start).shift 1 = memory.shift (start + 1) := shift_shift ..
    rw [slice_succ, unpack, ih, littleEndian, next]
    rfl

lemma window_eq_slice (low : start ≤ stop) (high : stop ≤ bytes.length) :
    window bytes start stop = (ofList bytes).slice start (stop - start) := by
  rw [slice_ofList _ _ _ (by omega), window, drop_take]

lemma window_slice (inside : high ≤ count) (ordered : low ≤ high) :
    window (memory.slice start count) low high = memory.slice (start + low) (high - low) := by
  rw [window, slice_take _ _ _ _ inside, slice_drop _ _ _ _ ordered]

/-! Memory written piece by piece. -/

lemma ofList_append_left (inside : index < first.length) : ofList (first ++ rest) index = ofList first index := by
  simp only [ofList, getD_eq_getElem?_getD, getElem?_append_left inside]

lemma ofList_append_right (index : Nat) : ofList (first ++ rest) (first.length + index) = ofList rest index := by
  simp only [ofList, getD_eq_getElem?_getD, getElem?_append_right (Nat.le_add_right _ _), Nat.add_sub_cancel_left]

lemma shift_append {first rest start} (size : first.length = start) :
    (ofList (first ++ rest)).shift start = ofList rest := by
  subst size
  funext index
  exact ofList_append_right index

lemma ofList_zeros (count index : Nat) : ofList (List.replicate count 0) index = 0 := by
  simp only [ofList, getD_eq_getElem?_getD, getElem?_replicate]
  split <;> rfl

lemma ofList_slice (inside : index < count) : ofList (memory.slice start count) index = memory (start + index) := by
  simp [ofList, slice, inside]

lemma pack_ok_iff {ε α : Type} {refused} {next : List UInt8 → Except ε α} {result} :
    (pack refused width value >>= next) = .ok result ↔ value < 256 ^ width ∧ next ((ofNat value).slice 0 width) =
    .ok result := by
  simp only [pack]
  split <;> simp_all [bind, Except.bind]

lemma littleEndian_packed (fits : value < 256 ^ width) (rest : List UInt8) :
    littleEndian (ofList ((ofNat value).slice 0 width ++ rest)) width = value := by
  refine Eq.trans (littleEndian_congr fun index inside => ?_) (littleEndian_ofNat_of_lt fits)
  rw [ofList_append_left (by rwa [slice_length]), ofList_slice inside, zero_add]

lemma shift_packed (here : (ofList bytes).shift start = ofList ((ofNat value).slice 0 width ++ rest)) :
    (ofList bytes).shift (start + width) = ofList rest := by
  rw [← shift_shift, here, shift_append (slice_length ..)]

/-- Equal chunks one after another. -/
lemma ofList_flatten {chunks : List (List UInt8)} {size : Nat} (uniform : ∀ chunk ∈ chunks, chunk.length = size)
    (rest : List UInt8) (inside : index < chunks.length) {offset : Nat} (small : offset < size) :
    ofList (chunks.flatten ++ rest) (index * size + offset) = ofList chunks[index] offset := by
  induction chunks generalizing index with
  | nil => cases inside
  | cons chunk chunks ih =>
    have head : chunk.length = size := uniform chunk mem_cons_self
    rw [flatten_cons, append_assoc]
    cases index with
    | zero =>
      rw [zero_mul, zero_add, ofList_append_left (head ▸ small)]
      rfl
    | succ index =>
      have place : (index + 1) * size + offset = chunk.length + (index * size + offset) := by
        rw [head, Nat.succ_mul]
        omega
      rw [place, ofList_append_right]
      exact ih (fun other member => uniform other (mem_cons_of_mem _ member)) (Nat.lt_of_succ_lt_succ inside)

end PackedBytes
