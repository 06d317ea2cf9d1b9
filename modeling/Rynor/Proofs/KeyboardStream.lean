import Rynor.Drivers.Keyboard
import Rynor.Lib.GapQueue
import Rynor.Lib.RingBuffer
import Rynor.Lib.Transition

/-! Keyboard input is never lost silently: over every interleaving of arriving bytes and
consumer calls, the consumers see the accepted bytes in order and every gap between them. -/

namespace Rynor
open GapQueue Option
variable {before after : Keyboard} {scan status : UInt8} {watch : Watch}

/-! The ring as a queue of stamped bytes. -/

lemma kbdMask_eq (n : Nat) : n &&& kbdMask = n % kbdStorage := Nat.and_two_pow_sub_one_eq_mod n 5

def distance (tail head : Nat) : Nat := (head + kbdStorage - tail) % kbdStorage

/-- The stamped bytes from `tail` up to `head`. -/
def window (data : Nat → KbdSample) (tail head : Nat) : List (Nat × UInt8) :=
  RingBuffer.contents (fun index => ((data index).epoch, (data index).scan)) kbdStorage tail (distance tail head)

section
variable {data : Nat → KbdSample} {head tail : Nat}

lemma window_self (data : Nat → KbdSample) (tail : Nat) : window data tail tail = [] := by
  rw [window, distance, Nat.add_sub_cancel_left, Nat.mod_self, RingBuffer.contents_zero]

lemma window_cons (inside : head < kbdStorage) (behind : tail < kbdStorage) (waiting : head ≠ tail) :
    window data tail head = ((data tail).epoch, (data tail).scan) :: window data ((tail + 1) % kbdStorage) head := by
  have count : distance tail head = distance ((tail + 1) % kbdStorage) head + 1 := by
    unfold distance
    unfold kbdStorage kbdRingCapacity at *
    omega
  have first : (window data tail head).take 1 = [((data tail).epoch, (data tail).scan)] := by
    rw [window, RingBuffer.contents_take (by omega)]
    simp [RingBuffer.contents, Nat.mod_eq_of_lt behind]
  rw [← List.take_append_drop 1 (window data tail head), first, window, RingBuffer.contents_drop (by omega), count]
  rfl

lemma window_store (inside : head < kbdStorage) (behind : tail < kbdStorage) (room : (head + 1) % kbdStorage ≠ tail)
    (sample : KbdSample) :
    window (Function.update data head sample) tail ((head + 1) % kbdStorage) = window data tail head ++
    [(sample.epoch, sample.scan)] := by
  have count : distance tail ((head + 1) % kbdStorage) = distance tail head + 1 ∧ distance tail head < kbdStorage ∧
      (tail + distance tail head) % kbdStorage = head := by
    unfold distance
    unfold kbdStorage kbdRingCapacity at *
    omega
  have cells : (fun index => ((Function.update data head sample index).epoch,
    (Function.update data head sample index).scan)) =
      Function.update (fun index => ((data index).epoch, (data index).scan)) head (sample.epoch, sample.scan) := by
    funext index
    by_cases here : index = head
    · subst here
      simp
    · simp [here]
  rw [window, cells, count.1, window, ← RingBuffer.contents_store behind count.2.1, count.2.2]

end

namespace KbdRing

def samples (q : KbdRing) : List (Nat × UInt8) := window q.data q.tail q.head

structure InRange (q : KbdRing) : Prop where
  head : q.head < kbdStorage
  tail : q.tail < kbdStorage

lemma samples_visible {q : KbdRing} (inside : q.InRange) : visible q.samples q.epoch = q.seenEpoch := by
  unfold seenEpoch samples
  split
  next drained => rw [drained, window_self]; rfl
  next waiting => rw [window_cons inside.head inside.tail waiting]; rfl

end KbdRing

open KbdRing

lemma full_iff {q : KbdRing} (inside : q.InRange) :
    q.samples.length = kbdRingCapacity ↔ (q.head + 1) % kbdStorage = q.tail := by
  have head := inside.head
  have tail := inside.tail
  rw [samples, window, RingBuffer.contents_length, distance]
  unfold kbdStorage kbdRingCapacity at *
  omega

/-- The three answers of a put. -/
inductive Puts (q : KbdRing) (scan : UInt8) : Int × KbdRing → Prop
  | refused : Puts q scan (-1, q)
  | dropped (full : q.samples.length = kbdRingCapacity) :
      Puts q scan (0, { q with dropped := q.dropped + 1, epoch := q.epoch + 1 })
  | stored {after : KbdRing} (room : q.samples.length ≠ kbdRingCapacity) (kept : after.InRange)
      (samples : after.samples = q.samples ++ [(q.epoch, scan)]) (epoch : after.epoch = q.epoch) :
        Puts q scan (1, after)

lemma kbdRingPut_puts (inside : q.InRange) (scan : UInt8) : Puts q scan (kbdRingPut q scan) := by
  unfold kbdRingPut
  split
  · exact .refused
  simp only [kbdMask_eq]
  split
  next full => exact .dropped ((full_iff inside).mpr full)
  rename_i room
  exact .stored (mt (full_iff inside).mp room) ⟨Nat.mod_lt _ (by decide), inside.tail⟩
    (window_store inside.head inside.tail room _) rfl

/-! The observers. -/

inductive KbdOp
  /-- An interrupt, with what the two ports read. -/
  | interrupt (vector : Nat) (cpu : Cpu) (status scan : UInt8)
  /-- A call of `kbd_enable`, with what the ports read in each turn of its drain. -/
  | enable (cpu : Cpu) (routed : Bool) (ports : Nat → UInt8 × UInt8)
  | take (out : Bool) (cpu : Cpu)
  | poll (out : Bool) (cpu : Cpu)

/-- What the ports hand over when `waiting` accepted bytes are not delivered yet. -/
def arrival (waiting : Nat) (status scan : UInt8) : Mark UInt8 :=
  if status &&& statusObf = 0 ∨ status &&& statusAux ≠ 0 then .quiet
  else if status &&& statusError ≠ 0 ∨ scan = 0x00 ∨ scan = 0xff then .gap
  else if waiting = kbdRingCapacity then .gap
  else .item scan

/-- What a consumer call reported. -/
def delivery : KbdResult × Option UInt8 → Mark UInt8
  | (.event, some scan) => .item scan
  | (.lost, _) => .gap
  | _ => .quiet

/-- The driver between its two observers. -/
structure Watch where
  keyboard : Keyboard
  arrived : Tape UInt8
  delivered : Tape UInt8

namespace Watch

def start (state : DriverState) : Watch := ⟨.boot state, .blank, .blank⟩

/-- The ports hand over bytes, each with its status, and the driver is left in `after`. -/
def arrive (watch : Watch) (bytes : List (UInt8 × UInt8)) (after : Keyboard) : Watch :=
  { watch with
    keyboard := after
    arrived := bytes.foldl (fun tape byte =>
      tape.mark (arrival (tape.items.length - watch.delivered.items.length) byte.1 byte.2)) watch.arrived }

def consume (watch : Watch) (reply : KbdResult × Option UInt8) (after : Keyboard) : Watch :=
  { watch with keyboard := after, delivered := watch.delivered.mark (delivery reply) }

/-- The bytes the ports hold from `turn` on, up to the first turn that finds none. -/
def pending (ports : Nat → UInt8 × UInt8) (turn left : Nat) : List (UInt8 × UInt8) :=
  ((List.range' turn left).map ports).takeWhile fun byte => byte.1 &&& statusObf ≠ 0

/-- One operation, with the answer of a consumer call. -/
def step (watch : Watch) : KbdOp → Option (Option (KbdResult × Option UInt8) × Watch)
  | .interrupt vector cpu status scan =>
    (kbdIsr vector cpu status scan watch.keyboard).map fun after => (none, watch.arrive [(status, scan)] after)
  | .enable cpu routed ports =>
    (kbdEnable cpu routed ports watch.keyboard).map fun (enabled, after) =>
      (none, watch.arrive (if enabled then pending ports 0 flushLimit else []) after)
  | .take out cpu =>
    (kbdTake out cpu watch.keyboard).map fun (result, byte, after) =>
      (some (result, byte), watch.consume (result, byte) after)
  | .poll out cpu =>
    (kbdPoll out cpu watch.keyboard).map fun (result, event, after) =>
      (some (result, event.map KbdEvent.scan), watch.consume (result, event.map KbdEvent.scan) after)

/-- The ring holds what has arrived and is not delivered, and its epochs tell the gaps. -/
structure Faithful (watch : Watch) : Prop where
  inside : watch.keyboard.input.InRange
  tracks : ∃ last, Tracks last watch.arrived watch.delivered watch.keyboard.input.samples watch.keyboard.input.epoch
    watch.keyboard.consumedEpoch

lemma faithful_start (state : DriverState) : (start state).Faithful := by
  have empty : (start state).keyboard.input.samples = [] := window_self _ 0
  refine ⟨⟨Nat.succ_pos _, Nat.succ_pos _⟩, 0, ?_⟩
  rw [empty]
  exact .blank

end Watch

open Watch

/-! Arriving bytes. -/

lemma increment_some (counted : increment n = some next) : next = n + 1 := by
  unfold increment at counted
  split at counted
  · cases counted
  · exact (Option.some.inj counted).symm

/-- What the classification of one byte does to the ring, by what the ports say of it. -/
inductive Classified (before : Keyboard) (status scan : UInt8) (after : Keyboard) : Prop
  | ignored (quiet : ∀ waiting, arrival waiting status scan = .quiet) (input : after.input = before.input)
      (reader : after.consumedEpoch = before.consumedEpoch)
  | error (gap : ∀ waiting, arrival waiting status scan = .gap)
      (input : after.input = { before.input with epoch := before.input.epoch + 1 })
      (reader : after.consumedEpoch = before.consumedEpoch)
  | put (plain : ∀ waiting, arrival waiting status scan = if waiting = kbdRingCapacity then .gap else .item scan)
      (stored : Int) (outcome : Puts before.input scan (stored, after.input)) (valid : 0 ≤ stored)
      (reader : after.consumedEpoch = before.consumedEpoch)

lemma Classified.of_stats (classified : Classified before status scan after)
    (same : (before.input, before.consumedEpoch) = (first.input, first.consumedEpoch)) :
    Classified first status scan after := by
  obtain ⟨input, reader⟩ := Prod.mk.inj same
  cases classified with
  | ignored quiet a b => exact .ignored quiet (input ▸ a) (reader ▸ b)
  | error gap a b => exact .error gap (input ▸ a) (reader ▸ b)
  | put plain stored a valid b => exact .put plain stored (input ▸ a) valid (reader ▸ b)

lemma countError_classified (gap : ∀ waiting, arrival waiting status scan = .gap)
    (counted : before.countError = some after) :
    Classified before status scan after := by
  simp only [Keyboard.countError, bind_eq_bind, pure_def, bind_eq_some_iff, Option.some.injEq] at counted
  obtain ⟨errors, -, epoch, second, rfl⟩ := counted
  rw [increment_some second]
  exact .error gap rfl rfl

lemma deliverByte_classified (inside : before.input.InRange) (found : status &&& statusObf ≠ 0)
    (delivered : deliverByte status scan before = some after) : Classified before status scan after := by
  simp only [deliverByte, bind_eq_bind, bind_eq_some_iff] at delivered
  obtain ⟨reads, -, delivered⟩ := delivered
  split at delivered
  next auxiliary =>
    simp only [pure_def, bind_eq_some_iff, Option.some.injEq] at delivered
    obtain ⟨_, -, rfl⟩ := delivered
    exact .ignored (fun _ => if_pos (.inr auxiliary)) rfl rfl
  rename_i own
  have heard : ¬(status &&& statusObf = 0 ∨ status &&& statusAux ≠ 0) := not_or.mpr ⟨found, own⟩
  split at delivered
  next erring => exact (countError_classified (fun _ => by
    rw [arrival, if_neg heard, if_pos (.inl erring)]) delivered).of_stats rfl
  rename_i sound
  split at delivered
  next erring => exact (countError_classified (fun _ => by
    rw [arrival, if_neg heard, if_pos (.inr erring)]) delivered).of_stats rfl
  rename_i key
  split at delivered
  · cases delivered
  rename_i valid
  cases delivered
  refine .put (fun _ => ?_) _ (kbdRingPut_puts inside scan) (Int.not_lt.mp valid) rfl
  rw [arrival, if_neg heard, if_neg (not_or.mpr ⟨sound, key⟩)]

lemma kbdIsr_classified (inside : before.input.InRange) (served : kbdIsr vector cpu status scan before = some after) :
    Classified before status scan after := by
  unfold kbdIsr at served
  split at served
  · cases served
  split at served
  · cases served
  simp only [bind_eq_bind, bind_eq_some_iff] at served
  obtain ⟨irqs, -, served⟩ := served
  split at served
  next missing =>
    simp only [pure_def, bind_eq_some_iff, Option.some.injEq] at served
    obtain ⟨emptyIrqs, -, rfl⟩ := served
    exact .ignored (fun _ => if_pos (.inl missing)) rfl rfl
  next found =>
    have inner : (({ before with stats.irqs := irqs } : Keyboard)).input.InRange := inside
    exact (deliverByte_classified inner found served).of_stats rfl

lemma Watch.Faithful.arrive (faithful : watch.Faithful)
    (classified : Classified watch.keyboard status scan after) : (watch.arrive [(status, scan)] after).Faithful := by
  obtain ⟨inside, last, tracks⟩ := faithful
  have waiting := tracks.waiting
  cases classified with
  | ignored quiet input reader =>
    refine ⟨by simpa only [Watch.arrive, input] using inside, last, ?_⟩
    simpa only [Watch.arrive, List.foldl, quiet, Tape.mark, input, reader] using tracks
  | error gap input reader =>
    refine ⟨by simp only [Watch.arrive, input]; exact ⟨inside.head, inside.tail⟩, last, ?_⟩
    simp only [Watch.arrive, List.foldl, gap, input, reader]
    exact tracks.lose
  | put plain stored outcome valid reader =>
    generalize ring : after.input = input at outcome
    cases outcome with
    | refused => exact absurd valid (by decide)
    | dropped full =>
      refine ⟨by simp only [Watch.arrive, ring]; exact ⟨inside.head, inside.tail⟩, last, ?_⟩
      simp only [Watch.arrive, List.foldl, plain, waiting, if_pos full, ring, reader]
      exact tracks.lose
    | stored room kept samples epoch =>
      refine ⟨by simpa only [Watch.arrive, ring] using kept, last, ?_⟩
      simpa only [Watch.arrive, List.foldl, plain, waiting, if_neg room, ring, reader, samples,
        epoch] using tracks.accept scan

/-- The drain takes the bytes the ports hold, one turn after the other. -/
lemma Watch.Faithful.drain (faithful : watch.Faithful) (drained : drain ports turn left watch.keyboard = some after) :
    (watch.arrive (pending ports turn left) after).Faithful := by
  induction left generalizing turn watch with
  | zero =>
    cases drained
    exact faithful
  | succ left ih =>
    rw [Rynor.drain] at drained
    rw [pending, List.range'_succ, List.map_cons, List.takeWhile_cons]
    split at drained
    next missing =>
      cases drained
      rw [if_neg (by simp [missing])]
      exact faithful
    next found =>
      obtain ⟨middle, delivered, later⟩ := bind_eq_some_iff.mp drained
      rw [if_pos (by simp [found])]
      exact ih (faithful.arrive (deliverByte_classified faithful.inside found delivered)) later

/-! Consumer calls. -/

/-- What a consumer call does to the ring and the epoch it remembers. -/
inductive Consumed (before : Keyboard) (mark : Mark UInt8) (after : Keyboard) : Prop
  | nothing (input : after.input = before.input) (reader : after.consumedEpoch = before.consumedEpoch)
  (quiet : mark = .quiet)
  | lost (input : after.input = before.input) (reader : after.consumedEpoch = before.input.seenEpoch)
      (moved : before.input.seenEpoch ≠ before.consumedEpoch) (gap : mark = .gap)
  | event (waiting : before.input.head ≠ before.input.tail) (current : before.input.seenEpoch = before.consumedEpoch)
      (input : after.input = { before.input with tail := (before.input.tail + 1) % kbdStorage })
      (reader : after.consumedEpoch = before.consumedEpoch) (item : mark =
        .item (before.input.data before.input.tail).scan)

lemma Watch.Faithful.consume (faithful : watch.Faithful) {reply : KbdResult × Option UInt8}
    (consumed : Consumed watch.keyboard (delivery reply) after) : (watch.consume reply after).Faithful := by
  obtain ⟨inside, last, tracks⟩ := faithful
  cases consumed with
  | nothing input reader quiet =>
    refine ⟨by simpa only [Watch.consume, input] using inside, last, ?_⟩
    simpa only [Watch.consume, quiet, Tape.mark, input, reader] using tracks
  | lost input reader moved gap =>
    refine ⟨by simpa only [Watch.consume, input] using inside, last, ?_⟩
    rw [← samples_visible inside] at moved reader
    simpa only [Watch.consume, gap, input, reader] using tracks.report moved
  | event waiting current input reader item =>
    have stamped : (watch.keyboard.input.data watch.keyboard.input.tail).epoch = watch.keyboard.consumedEpoch := by
      rwa [seenEpoch, if_neg waiting] at current
    have queue := @window_cons watch.keyboard.input.data _ _ inside.head inside.tail waiting
    rw [stamped] at queue
    rw [samples, queue] at tracks
    refine ⟨?_, watch.keyboard.consumedEpoch, ?_⟩
    · simp only [Watch.consume, input]
      exact ⟨inside.head, Nat.mod_lt _ (by decide)⟩
    · simp only [Watch.consume, item, input, reader]
      exact tracks.deliver

section
variable {before after : Keyboard} {out : Bool} {cpu : Cpu} {result : KbdResult}

lemma kbdRingGet_drained (inside : q.InRange) (drained : q.head = q.tail) : kbdRingGet q = (0, none, q) := by
  have bounds := inside.tail
  rw [kbdRingGet, if_neg (by omega), if_pos drained]

lemma kbdRingGet_waiting (inside : q.InRange) (waiting : q.head ≠ q.tail) :
    kbdRingGet q = (1, some (q.data q.tail), { q with tail := (q.tail + 1) % kbdStorage }) := by
  have head := inside.head
  have tail := inside.tail
  rw [kbdRingGet, if_neg (by omega), if_neg waiting, kbdMask_eq]

lemma kbdTake_consumed (inside : before.input.InRange)
    (took : kbdTake out cpu before = some (result, byte, after)) : Consumed before (delivery (result, byte)) after := by
  unfold kbdTake at took
  split at took
  · cases took; exact .nothing rfl rfl rfl
  split at took
  · cases took; exact .nothing rfl rfl rfl
  split at took
  · cases took
  split at took
  next moved => cases took; exact .lost rfl rfl moved rfl
  rename_i current
  by_cases drained : before.input.head = before.input.tail
  · rw [kbdRingGet_drained inside drained] at took
    cases took
    exact .nothing rfl rfl rfl
  rw [kbdRingGet_waiting inside drained] at took
  cases took
  exact .event drained (not_not.mp current) rfl rfl rfl

@[simp] lemma kbdDecode_scan (d : KbdDecoder) (scan : UInt8) : (kbdDecode d scan).2.2.scan = scan := by
  unfold kbdDecode
  simp only
  split_ifs <;> rfl

lemma kbdPoll_consumed (inside : before.input.InRange) (polled : kbdPoll out cpu before = some (result, event, after)) :
    Consumed before (delivery (result, event.map KbdEvent.scan)) after := by
  have head := inside.head
  have tail := inside.tail
  unfold kbdPoll at polled
  split at polled
  · cases polled; exact .nothing rfl rfl rfl
  split at polled
  · cases polled; exact .nothing rfl rfl rfl
  rw [kbdStreamNext, if_neg (by omega)] at polled
  by_cases moved : before.input.seenEpoch ≠ before.consumedEpoch
  · rw [if_pos moved] at polled
    cases polled
    exact .lost rfl rfl moved rfl
  rw [if_neg moved] at polled
  by_cases drained : before.input.head = before.input.tail
  · rw [kbdRingGet_drained inside drained] at polled
    cases polled
    exact .nothing rfl rfl rfl
  rw [kbdRingGet_waiting inside drained] at polled
  cases polled
  exact .event drained (not_not.mp moved) rfl rfl (congrArg Mark.item (kbdDecode_scan _ _))

end

/-! Runs. -/

lemma Watch.Faithful.step (faithful : watch.Faithful) (stepped : watch.step op = some (reply, next)) :
    next.Faithful := by
  cases op with
  | interrupt vector cpu status scan =>
    obtain ⟨after, served, same⟩ := map_eq_some_iff.mp stepped
    cases same
    exact faithful.arrive (kbdIsr_classified faithful.inside served)
  | enable cpu routed ports =>
    obtain ⟨⟨enabled, after⟩, called, same⟩ := map_eq_some_iff.mp stepped
    cases same
    unfold kbdEnable at called
    split at called
    · cases called
      exact faithful
    split at called
    · cases called
      exact faithful
    obtain ⟨_, drained, same⟩ := map_eq_some_iff.mp called
    cases same
    exact faithful.drain drained
  | take out cpu =>
    obtain ⟨⟨result, byte, after⟩, took, same⟩ := map_eq_some_iff.mp stepped
    cases same
    exact faithful.consume (kbdTake_consumed faithful.inside took)
  | poll out cpu =>
    obtain ⟨⟨result, event, after⟩, polled, same⟩ := map_eq_some_iff.mp stepped
    cases same
    exact faithful.consume (kbdPoll_consumed faithful.inside polled)

/-- Whatever the interleaving, the bytes delivered so far and those still queued are the
accepted bytes in the order of their arrival, and a delivered byte comes with a reported loss
exactly when a byte was dropped or the controller erred between the previous accepted byte and
it. -/
theorem no_silent_loss {state : DriverState} {ops : List KbdOp} {replies : List (Option (KbdResult × Option UInt8))}
    {last : Watch} (ran : Transition.run Watch.step (Watch.start state) ops = some (replies, last)) :
    ∃ waiting, last.arrived.items = last.delivered.items ++ waiting ∧
    waiting.map Prod.snd = last.keyboard.input.samples.map Prod.snd := by
  have faithful := Transition.run_invariant Watch.Faithful (fun _ _ _ _ held stepped => held.step stepped) ran
    (Watch.faithful_start state)
  obtain ⟨stamp, tracks⟩ := faithful.tracks
  exact ⟨_, tracks.items, flagged_values _ _⟩

def servingIrq : Cpu := ⟨true, true⟩
def inForeground : Cpu := ⟨true, false⟩

/-- The ports answer 32 bytes to interrupts while nobody takes one, and one more after the ring is emptied. -/
def overflowingOps : List KbdOp :=
  (List.range 32).map (fun turn => .interrupt 33 servingIrq 0x01 (.ofNat (turn + 1))) ++
    List.replicate 31 (.take true inForeground) ++ [.interrupt 33 servingIrq 0x01 0x30] ++
    List.replicate 3 (.take true inForeground)

/-- The ring takes 31 of them: the last one is lost, and the loss is told before the byte behind it. -/
theorem no_silent_loss_over_a_full_ring :
    ∃ replies last, Transition.run Watch.step (Watch.start .ready) overflowingOps = some (replies, last) ∧
      replies.filterMap id = (List.range 31).map (fun turn => (.event, some (.ofNat (turn + 1)))) ++
        [(.lost, none), (.event, some 0x30), (.empty, none)] ∧
      last.arrived.items.getLast? = some (true, 0x30) ∧ last.arrived.items.length = 32 ∧
      ∃ waiting, last.arrived.items = last.delivered.items ++ waiting ∧
      waiting.map Prod.snd = last.keyboard.input.samples.map Prod.snd := by
  have runs : (Transition.run Watch.step (Watch.start .ready) overflowingOps).map
      (fun ran => (ran.1.filterMap id, ran.2.arrived.items.getLast?, ran.2.arrived.items.length)) =
      some ((List.range 31).map (fun turn => (.event, some (.ofNat (turn + 1)))) ++
        [(.lost, none), (.event, some 0x30), (.empty, none)], some (true, 0x30), 32) := by decide +kernel
  obtain ⟨⟨replies, last⟩, ran, shown⟩ := map_eq_some_iff.mp runs
  simp only [Prod.mk.injEq] at shown
  obtain ⟨answers, final, count⟩ := shown
  exact ⟨replies, last, ran, answers, final, count, no_silent_loss ran⟩

end Rynor
