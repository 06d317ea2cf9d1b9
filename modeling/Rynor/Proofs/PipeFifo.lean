import Rynor.Core.Pipe
import Rynor.Lib.RingBuffer
import Rynor.Lib.Transition

/-! One attached pipe is a lossless queue under every interleaving of its calls. -/

namespace Rynor.Pipe
open List
variable {pipe next : Pipe} {env : PipeEnv} {ρ : Type} {why : String}
  {n slot gen len ring wslot wgen rslot rgen : Nat} {accepted reader writer : Bool}
  {past : List Nat} {traced : Traced} {halt : Halt}

/-- The buffered bytes, oldest first. -/
def contents (pipe : Pipe) : List UInt8 := RingBuffer.contents pipe.bytes pipeCap pipe.rpos pipe.count

/-- A pipe with the bytes it took from its writer and gave to its reader so far. -/
structure Traced where
  pipe : Pipe
  accepted : List UInt8
  committed : List UInt8

def acceptedBy (call : Call) (reply : Reply) : List UInt8 :=
  match call.op, reply with
  | .write _ _ (some src) _, .wrote n => if n = writeBroken ∨ n = writeRefused then [] else src.slice 0 n
  | _, _ => []

/-- A commit hands over the bytes at the read position, those a stage copies out. -/
def committedBy (pipe : Pipe) (call : Call) (reply : Reply) : List UInt8 :=
  match call.op, reply with
  | .commit n, .done true => (List.range n).map fun i => pipe.bytes ((pipe.rpos + i) % pipeCap)
  | _, _ => []

def traceStep (traced : Traced) (call : Call) : Option (Reply × Traced) :=
  match traced.pipe.perform call with
  | .error _ => none
  | .ok (reply, next) =>
    some (reply, ⟨next, traced.accepted ++ acceptedBy call reply,
      traced.committed ++ committedBy traced.pipe call reply⟩)

/-- The process table and the heap honour the open endpoints. -/
structure Honoured (pipe : Pipe) (env : PipeEnv) : Prop where
  reader : pipe.readerOpen = true → endpointOk (env.slotInfo pipe.rslot) pipe.rgen (·.stdinSel == stdinPipe) = true
  writer : pipe.writerOpen = true → endpointOk (env.slotInfo pipe.wslot) pipe.wgen (·.stdoutSel == stdoutPipe) = true
  heap : env.heapFree = true

/-- An attached ring in use. -/
structure Attached (pipe : Pipe) : Prop where
  live : pipe.live = true
  ring : pipe.ring.isSome = true
  rpos : pipe.rpos < pipeCap
  wpos : pipe.wpos = (pipe.rpos + pipe.count) % pipeCap
  count : pipe.count ≤ pipeCap
  rslot : pipe.rslot < maxProcs
  wslot : pipe.wslot < maxProcs
  distinct : pipe.rslot ≠ pipe.wslot
  someone : pipe.readerOpen = true ∨ pipe.writerOpen = true

/-- Nothing is retained. -/
structure Detached (pipe : Pipe) : Prop where
  live : pipe.live = false
  ring : pipe.ring = none
  rpos : pipe.rpos = 0
  wpos : pipe.wpos = 0
  count : pipe.count = 0
  rgen : pipe.rgen = 0
  wgen : pipe.wgen = 0
  reader : pipe.readerOpen = false
  writer : pipe.writerOpen = false

lemma attached_of_live (sound : Attached pipe ∨ Detached pipe) (live : pipe.live = true) : Attached pipe := by
  rcases sound with attached | detached
  · exact attached
  · rw [detached.live] at live
    cases live

lemma attached_of_open (sound : Attached pipe ∨ Detached pipe)
    (opened : pipe.readerOpen = true ∨ pipe.writerOpen = true) : Attached pipe := by
  rcases sound with attached | detached
  · exact attached
  · rw [detached.reader, detached.writer] at opened
    exact absurd opened (by decide)

lemma Attached.wpos_lt (attached : Attached pipe) : pipe.wpos < pipeCap := by
  rw [attached.wpos]
  exact Nat.mod_lt _ (by decide)

lemma pipeCheck_attached (attached : Attached pipe) (inside : env.cpu.interruptsDisabled = true) :
    pipe.pipeCheck env = true ↔ (pipe.readerOpen = true →
      endpointOk (env.slotInfo pipe.rslot) pipe.rgen (·.stdinSel == stdinPipe) = true) ∧
      (pipe.writerOpen = true → endpointOk (env.slotInfo pipe.wslot) pipe.wgen (·.stdoutSel == stdoutPipe) = true) := by
  have count := not_lt.mpr attached.count
  have rpos := not_le.mpr attached.rpos
  have wpos := not_le.mpr attached.wpos_lt
  have rslot := not_le.mpr attached.rslot
  have wslot := not_le.mpr attached.wslot
  have held : pipe.ring.isNone = false := by simpa using attached.ring
  simp only [pipeCheck, inside, attached.live, attached.distinct, held, ge_iff_le, gt_iff_lt, count, rpos, wpos,
    rslot, wslot,
    decide_false, Bool.or_self, Bool.not_true, Bool.false_eq_true, if_false]
  cases pipe.readerOpen <;> cases pipe.writerOpen <;> simp

lemma pipeCheck_detached (detached : Detached pipe) : pipe.pipeCheck env = env.cpu.interruptsDisabled := by
  have cap : ¬ pipeCap ≤ 0 := by decide
  simp only [pipeCheck, detached.live, detached.ring, detached.count, detached.rpos, detached.wpos, detached.rgen,
    detached.wgen,
    detached.reader, detached.writer, ge_iff_le, gt_iff_lt, cap]
  cases env.cpu.interruptsDisabled <;> simp

lemma checked_ok (called : checked pipe env why reply = .ok (answer, next)) : answer = reply ∧ next = pipe := by
  simp only [checked] at called
  split at called
  · cases called
    exact ⟨rfl, rfl⟩
  · cases called

lemma enqueue_contents (src : ByteMemory) (rpos : pipe.rpos < pipeCap)
    (wpos : pipe.wpos = (pipe.rpos + pipe.count) % pipeCap) (room : pipe.count + n ≤ pipeCap) :
    ∃ bytes turns, pipe.enqueue src n = { pipe with bytes, wpos := (pipe.rpos + (pipe.count + n)) % pipeCap, turns } ∧
      RingBuffer.contents bytes pipeCap pipe.rpos (pipe.count + n) = pipe.contents ++ src.slice 0 n := by
  induction n with
  | zero => exact ⟨pipe.bytes, pipe.turns, by simp [enqueue, ← wpos], by simp [contents]⟩
  | succ n ih =>
    obtain ⟨bytes, turns, filled, same⟩ := ih (by omega)
    have short : pipe.count + n < pipeCap := by omega
    have appended : RingBuffer.contents (Function.update bytes ((pipe.rpos + (pipe.count + n)) % pipeCap) (src n))
        pipeCap pipe.rpos (pipe.count + n + 1) = _ := RingBuffer.contents_store rpos short (src n)
    rw [same, append_assoc] at appended
    have last : src.slice 0 (n + 1) = src.slice 0 n ++ [src n] := by
      rw [ByteMemory.slice_add]
      simp [ByteMemory.slice]
    refine ⟨Function.update bytes ((pipe.rpos + (pipe.count + n)) % pipeCap) (src n),
      if (pipe.rpos + (pipe.count + n)) % pipeCap + 1 = pipeCap then (turns + 1) % u64 else turns, ?_, last ▸ appended⟩
    have next : (pipe.rpos + (pipe.count + (n + 1))) % pipeCap =
        if (pipe.rpos + (pipe.count + n)) % pipeCap + 1 = pipeCap then 0
          else (pipe.rpos + (pipe.count + n)) % pipeCap + 1 := by
      rw [RingBuffer.index_eq rpos (by omega), RingBuffer.index_eq rpos (by omega)]
      split <;> split <;> split <;> omega
    simp only [enqueue, filled, put, next]
    split <;> rfl

lemma dequeue_eq (rpos : pipe.rpos < pipeCap) (short : n ≤ pipeCap) :
    ∃ turns, pipe.dequeue n = { pipe with rpos := (pipe.rpos + n) % pipeCap, turns } := by
  induction n with
  | zero => exact ⟨pipe.turns, by simp [dequeue, Nat.mod_eq_of_lt rpos]⟩
  | succ n ih =>
    obtain ⟨turns, moved⟩ := ih (by omega)
    refine ⟨if (pipe.rpos + n) % pipeCap + 1 = pipeCap then (turns + 1) % u64 else turns, ?_⟩
    have next : (pipe.rpos + (n + 1)) % pipeCap =
        if (pipe.rpos + n) % pipeCap + 1 = pipeCap then 0 else (pipe.rpos + n) % pipeCap + 1 := by
      rw [RingBuffer.index_eq rpos (by omega), RingBuffer.index_eq rpos (by omega)]
      split <;> split <;> split <;> omega
    simp only [dequeue, moved, skip, next]
    split <;> rfl

/-- Stalls, counters and endpoint flags are free to change while someone is left. -/
lemma Attached.reopened (attached : Attached pipe) (someone : reader = true ∨ writer = true) (full empty : Nat) :
    Attached { pipe with readerOpen := reader, writerOpen := writer, fullStalls := full, emptyStalls := empty } :=
  ⟨attached.live, attached.ring, attached.rpos, attached.wpos, attached.count, attached.rslot, attached.wslot,
    attached.distinct, someone⟩

lemma Attached.filled (attached : Attached pipe) (src : ByteMemory) (total : Nat) (room : pipe.count + n ≤ pipeCap) :
    Attached { pipe.enqueue src n with count := pipe.count + n, totalWritten := total } := by
  obtain ⟨bytes, turns, filled, -⟩ := enqueue_contents src attached.rpos attached.wpos room
  rw [filled]
  exact ⟨attached.live, attached.ring, attached.rpos, rfl, room, attached.rslot, attached.wslot, attached.distinct,
    attached.someone⟩

lemma Attached.emptied (attached : Attached pipe) (total : Nat) (within : n ≤ pipe.count) :
    Attached { pipe.dequeue n with count := pipe.count - n, totalRead := total } := by
  obtain ⟨turns, moved⟩ := dequeue_eq attached.rpos (le_trans within attached.count)
  rw [moved]
  refine ⟨attached.live, attached.ring, Nat.mod_lt _ (by decide), ?_, le_trans (Nat.sub_le _ _) attached.count,
    attached.rslot, attached.wslot, attached.distinct, attached.someone⟩
  change pipe.wpos = ((pipe.rpos + n) % pipeCap + (pipe.count - n)) % pipeCap
  rw [Nat.mod_add_mod, add_assoc, Nat.add_sub_cancel' within]
  exact attached.wpos

/-! What each call can do to a pipe. -/

/-- A write keeps the ring under one of three codes, or fills it and checks. -/
inductive Writes (pipe : Pipe) (env : PipeEnv) (src : Option ByteMemory) (outcome : Except Halt (Nat × Pipe)) : Prop
  | kept {code : Nat} (stalls : Nat) (known : code = writeBroken ∨ code = writeRefused ∨ code = 0)
      (same : outcome = .ok (code, { pipe with fullStalls := stalls }))
  | filled {source : ByteMemory} {n : Nat} (total : Nat) (inside : env.cpu.foreground = true) (live : pipe.live = true)
      (given : src = some source) (room : pipe.count + n ≤ pipeCap)
      (same : outcome = checked { pipe.enqueue source n with count := pipe.count + n, totalWritten := total } env
        "write_check" n)

lemma pipeWrite_writes (pipe : Pipe) (env : PipeEnv) (slot gen : Nat) (src : Option ByteMemory) (len : Nat) :
    Writes pipe env src (pipe.pipeWrite env slot gen src len) := by
  rcases src with _ | source
  · exact .kept pipe.fullStalls (.inr (.inl rfl)) rfl
  have refused : Writes pipe env (some source) (.ok (writeRefused, pipe)) := .kept pipe.fullStalls (.inr (.inl rfl)) rfl
  simp only [pipeWrite]
  split
  · exact refused
  next inside =>
  split
  · exact refused
  next attached =>
  iterate 3
    split
    · exact refused
  split
  · exact .kept pipe.fullStalls (.inl rfl) rfl
  split
  · exact refused
  split
  · exact .kept pipe.fullStalls (.inr (.inr rfl)) rfl
  split
  · exact .kept _ (.inr (.inr rfl)) rfl
  simp only [Bool.or_eq_true, Bool.not_eq_true', not_or, Bool.not_eq_false] at attached
  exact .filled _ (by simpa using inside) attached.1 rfl (by omega) rfl

lemma pipeReadStage_cases {dst n reply} (called : pipe.pipeReadStage env slot gen dst len n = (reply, next)) :
    (∃ stalls, next = { pipe with emptyStalls := stalls }) ∧
    ∀ data, reply = .staged data → (data = [] ∧ pipe.count = 0 ∧ pipe.writerOpen = false) ∨
      (data ≠ [] ∧ data = pipe.contents.take len) := by
  simp only [pipeReadStage] at called
  iterate 6
    split at called
    · cases called
      exact ⟨⟨pipe.emptyStalls, rfl⟩, nofun⟩
  split at called
  next empty =>
    split at called
    · cases called
      exact ⟨⟨_, rfl⟩, nofun⟩
    rename_i closed
    cases called
    refine ⟨⟨pipe.emptyStalls, rfl⟩, fun data same => ?_⟩
    cases same
    exact .inl ⟨rfl, empty, by simpa using closed⟩
  rename_i filled
  split at called
  · cases called
    exact ⟨⟨_, rfl⟩, nofun⟩
  rename_i wanted
  cases called
  refine ⟨⟨pipe.emptyStalls, rfl⟩, fun data same => ?_⟩
  cases same
  refine .inr ⟨by simpa using wanted, ?_⟩
  rw [contents, RingBuffer.contents, ← map_take, take_range]

/-- A commit is refused, or empties the ring and checks. -/
inductive Commits (pipe : Pipe) (env : PipeEnv) (n : Nat) (outcome : Except Halt (Bool × Pipe)) : Prop
  | refused (same : outcome = .ok (false, pipe))
  | emptied (total : Nat) (inside : env.cpu.foreground = true) (live : pipe.live = true) (within : n ≤ pipe.count)
      (same : outcome = checked { pipe.dequeue n with count := pipe.count - n, totalRead := total } env
        "commit_check" true)

lemma pipeReadCommit_commits (pipe : Pipe) (env : PipeEnv) (n : Nat) :
    Commits pipe env n (pipe.pipeReadCommit env n) := by
  simp only [pipeReadCommit]
  split
  · exact .refused rfl
  next inside =>
  split
  · exact .refused rfl
  next attached =>
  split
  · exact .refused rfl
  rename_i fits
  simp only [Bool.or_eq_true, decide_eq_true_eq, not_or] at fits
  simp only [Bool.or_eq_true, Bool.not_eq_true', not_or, Bool.not_eq_false] at attached
  exact .emptied _ (by simpa using inside) attached.1 (by omega) rfl

/-- The storage after the second close. -/
def cleared (pipe : Pipe) (ring : Nat) : Pipe :=
  { pipe with ring := none, rpos := 0, wpos := 0, count := 0, rgen := 0, wgen := 0, live := false, freed := pipe.freed ++ [ring] }

/-- The flags with one more endpoint closed. -/
def closing (pipe : Pipe) (reader writer : Bool) : Pipe := { pipe with readerOpen := reader, writerOpen := writer }

section
variable (inside : env.cpu.foreground = true) (held : pipe.ring = some ring)
include inside held

lemma closeOut_eq : (pipe.closing reader writer).closeOut env =
      if reader = true ∨ writer = true then checked (pipe.closing reader writer) env "close_check" true
      else if env.heapFree = true then checked ((pipe.closing false false).cleared ring) env "close_check" true
      else .error (.other "ring_free") := by
  simp only [closeOut, closing, pipeRingFree, held, inside]
  cases reader with
  | true => simp
  | false =>
    cases writer with
    | true => simp
    | false =>
      cases env.heapFree with
      | false => simp
      | true => simp [cleared]

lemma closeOut_cases (called : (pipe.closing reader writer).closeOut env = .ok (accepted, next)) :
    ((reader = true ∨ writer = true) ∧ next = pipe.closing reader writer) ∨ next =
    (pipe.closing false false).cleared ring := by
  rw [closeOut_eq inside held] at called
  split at called
  next someone => exact .inl ⟨someone, (checked_ok called).2⟩
  split at called
  · exact .inr (checked_ok called).2
  · cases called

end

lemma cleared_detached (pipe : Pipe) (ring : Nat) : Detached ((pipe.closing false false).cleared ring) :=
  ⟨rfl, rfl, rfl, rfl, rfl, rfl, rfl, rfl, rfl⟩

/-- A note changes nothing, or closes the endpoint its slot and generation name. -/
inductive Notes (pipe : Pipe) (env : PipeEnv) (slot gen : Nat) (outcome : Except Halt (Bool × Pipe)) : Prop
  | kept (accepted : Bool) (unrelated : accepted = true → pipe.live = false ∨
        ((slot = pipe.wslot → gen ≠ pipe.wgen) ∧ (slot ≠ pipe.wslot → slot = pipe.rslot → gen ≠ pipe.rgen)))
      (same : outcome = .ok (accepted, pipe))
  | closed (reader writer : Bool) (inside : env.cpu.foreground = true) (live : pipe.live = true)
      (fewer : (reader = true → pipe.readerOpen = true ∧ slot = pipe.wslot) ∧
        (writer = true → pipe.writerOpen = true ∧ slot = pipe.rslot))
      (same : outcome = (pipe.closing reader writer).closeOut env)

lemma pipeNoteTerminal_notes (pipe : Pipe) (env : PipeEnv) (slot gen : Nat) :
    Notes pipe env slot gen (pipe.pipeNoteTerminal env slot gen) := by
  simp only [pipeNoteTerminal]
  split
  · exact .kept false nofun rfl
  next inside =>
  split
  next dead => exact .kept true (fun _ => .inl (by simpa using dead)) rfl
  next live =>
  have front : env.cpu.foreground = true := by simpa using inside
  have alive : pipe.live = true := by simpa using live
  split
  next writer =>
    split
    next stale => exact .kept true (fun _ => .inr ⟨fun _ => stale, fun other => absurd writer other⟩) rfl
    split
    · exact .kept false nofun rfl
    · exact .closed pipe.readerOpen false front alive ⟨fun opened => ⟨opened, writer⟩, nofun⟩ rfl
  next other =>
  split
  next reader =>
    split
    next stale => exact .kept true (fun _ => .inr ⟨fun writer => absurd writer other, fun _ _ => stale⟩) rfl
    split
    · exact .kept false nofun rfl
    · exact .closed false pipe.writerOpen front alive ⟨nofun, fun opened => ⟨opened, reader⟩⟩ rfl
  next neither =>
  exact .kept true (fun _ => .inr ⟨fun writer => absurd writer other, fun _ reader => absurd reader neither⟩) rfl

/-! The queue over a whole history. -/

/-- While attached, the ring holds what was accepted and not yet committed. The second
close discards it and returns the ring. -/
inductive Fifo (ring : Nat) (past : List Nat) (traced : Traced) : Prop
  | attached (attached : Attached traced.pipe) (held : traced.pipe.ring = some ring)
      (queue : traced.accepted = traced.committed ++ traced.pipe.contents) (kept : traced.pipe.freed = past)
  | detached (detached : Detached traced.pipe) (order : traced.committed <+: traced.accepted)
    (returned : traced.pipe.freed = past ++ [ring])

section
variable {ring : Nat} {past : List Nat} {pipe next : Pipe} {accepted committed : List UInt8} {call : Call}
variable {slot gen n : Nat} {done : Bool} {env : PipeEnv}

section
variable (fifo : Fifo ring past ⟨pipe, accepted, committed⟩)
include fifo

lemma Fifo.stalls (full empty : Nat) :
    Fifo ring past ⟨{ pipe with fullStalls := full, emptyStalls := empty }, accepted, committed⟩ := by
  cases fifo with
  | attached attached held queue kept =>
    exact .attached (attached.reopened attached.someone full empty) held queue kept
  | detached detached order returned =>
    exact .detached ⟨detached.live, detached.ring, detached.rpos, detached.wpos, detached.count, detached.rgen,
      detached.wgen,
      detached.reader, detached.writer⟩ order returned

lemma Fifo.live (live : pipe.live = true) :
    Attached pipe ∧ pipe.ring = some ring ∧ accepted = committed ++ pipe.contents ∧ pipe.freed = past := by
  cases fifo with
  | attached attached held queue kept => exact ⟨attached, held, queue, kept⟩
  | detached detached order returned => exact absurd (live.symm.trans detached.live) nofun

lemma Fifo.write (op : call.op = .write slot gen src len)
    (called : pipe.pipeWrite call.env slot gen src len = .ok (n, next)) :
    Fifo ring past ⟨next, accepted ++ acceptedBy call (.wrote n), committed⟩ := by
  rcases pipeWrite_writes pipe call.env slot gen src len with ⟨stalls, known, same⟩ | ⟨total, -, live, rfl, room, same⟩
  · rw [called] at same
    cases same
    have none : acceptedBy call (.wrote n) = [] := by
      cases src <;> simp only [acceptedBy, op]
      rcases known with rfl | rfl | rfl <;> simp
    rw [none, append_nil]
    exact fifo.stalls stalls pipe.emptyStalls
  rename_i source taken
  obtain ⟨rfl, rfl⟩ := checked_ok (same.symm.trans called)
  obtain ⟨attached, held, queue, kept⟩ := fifo.live live
  obtain ⟨bytes, turns, filled, same⟩ := enqueue_contents source attached.rpos attached.wpos room
  have codes : pipeCap < writeRefused ∧ pipeCap < writeBroken := by decide
  have taken : acceptedBy call (.wrote n) = source.slice 0 n := by
    simp only [acceptedBy, op]
    exact if_neg (by omega)
  have still := attached.filled source total room
  rw [filled] at still
  rw [filled, taken]
  refine .attached still held ?_ kept
  change accepted ++ source.slice 0 n = committed ++ RingBuffer.contents bytes pipeCap pipe.rpos (pipe.count + n)
  rw [same, queue, append_assoc]

lemma Fifo.commit (op : call.op = .commit n) (called : pipe.pipeReadCommit call.env n = .ok (done, next)) :
    Fifo ring past ⟨next, accepted, committed ++ committedBy pipe call (.done done)⟩ := by
  rcases pipeReadCommit_commits pipe call.env n with same | ⟨total, -, live, within, same⟩
  · rw [called] at same
    cases same
    simpa only [committedBy, op, append_nil] using fifo
  obtain ⟨rfl, rfl⟩ := checked_ok (same.symm.trans called)
  obtain ⟨attached, held, queue, kept⟩ := fifo.live live
  obtain ⟨turns, moved⟩ := dequeue_eq attached.rpos (le_trans within attached.count)
  have given : committedBy pipe call (.done true) = pipe.contents.take n := by
    rw [contents, RingBuffer.contents_take within]
    simp only [committedBy, op]
    rfl
  have still := attached.emptied total within
  rw [moved] at still
  rw [moved, given]
  refine .attached still held ?_ kept
  have rest : pipe.contents.drop n = RingBuffer.contents pipe.bytes pipeCap ((pipe.rpos + n) % pipeCap)
    (pipe.count - n) :=
    RingBuffer.contents_drop within
  change accepted = committed ++ pipe.contents.take n ++ RingBuffer.contents pipe.bytes pipeCap _ (pipe.count - n)
  rw [← rest, append_assoc, take_append_drop, queue]

lemma Fifo.noteTerminal (called : pipe.pipeNoteTerminal env slot gen = .ok (done, next)) :
    Fifo ring past ⟨next, accepted, committed⟩ := by
  rcases pipeNoteTerminal_notes pipe env slot gen with ⟨_, -, same⟩ | ⟨reader, writer, inside, live, -, same⟩
  · rw [called] at same
    cases same
    exact fifo
  obtain ⟨attached, held, queue, kept⟩ := fifo.live live
  rcases closeOut_cases inside held (same.symm.trans called) with ⟨someone, rfl⟩ | rfl
  · exact .attached (attached.reopened someone pipe.fullStalls pipe.emptyStalls) held queue kept
  · exact .detached (cleared_detached pipe ring) ⟨_, queue.symm⟩ (congrArg (· ++ [ring]) kept)

end

end

lemma map_ok {call : Except Halt (ρ × Pipe)} {wrap : ρ → Reply} {reply : Reply}
    (called : call.map (fun (value, next) => (wrap value, next)) = .ok (reply, next)) :
    ∃ value, call = .ok (value, next) ∧ reply = wrap value := by
  cases call with
  | error halt => cases called
  | ok result =>
    cases called
    exact ⟨result.1, rfl, rfl⟩

lemma Fifo.step {next : Traced} {call : Call} {reply : Reply}
    (fifo : Fifo ring past traced) (stepped : traceStep traced call = some (reply, next)) : Fifo ring past next := by
  obtain ⟨pipe, accepted, committed⟩ := traced
  simp only [traceStep] at stepped
  split at stepped
  · cases stepped
  next answer after performed =>
  cases stepped
  simp only [perform] at performed
  split at performed
  next slot gen src len op =>
    obtain ⟨n, wrote, rfl⟩ := map_ok performed
    simpa only [committedBy, op, append_nil] using fifo.write op wrote
  next slot gen dst len n op =>
    cases performed
    obtain ⟨⟨stalls, same⟩, -⟩ := pipeReadStage_cases (Prod.eta (pipe.pipeReadStage call.env slot gen dst len n)).symm
    simp only [acceptedBy, committedBy, op, same, append_nil]
    exact fifo.stalls pipe.fullStalls stalls
  next n op =>
    obtain ⟨accepted, committing, rfl⟩ := map_ok performed
    simpa only [acceptedBy, op, append_nil] using fifo.commit op committing
  rename_i slot gen op
  obtain ⟨accepted, noted, rfl⟩ := map_ok performed
  simpa only [acceptedBy, committedBy, op, append_nil] using fifo.noteTerminal noted

lemma pipeAttach_cases (pipe : Pipe) (env : PipeEnv) (ring : Option Nat) (wslot wgen rslot rgen : Nat) :
    pipe.pipeAttach env ring wslot wgen rslot rgen = .ok (false, pipe) ∨ ∃ address next, ring = some address ∧ next =
      { pipe with
          ring, wslot, wgen, rslot, rgen, rpos := 0, wpos := 0, count := 0, readerOpen := true, writerOpen := true,
          fullStalls := 0, emptyStalls := 0, turns := 0, totalWritten := 0, totalRead := 0, live := true } ∧
        Attached next ∧ env.cpu.foreground = true ∧
        pipe.pipeAttach env ring wslot wgen rslot rgen = next.checked env "attach_check" true := by
  simp only [pipeAttach]
  split
  · exact .inl rfl
  next given =>
  split
  · exact .inl rfl
  split
  · exact .inl rfl
  next inside =>
  split
  · exact .inl rfl
  next apart =>
  simp only [Bool.or_eq_true, decide_eq_true_eq, not_or, Bool.not_eq_true', Bool.not_eq_false] at given inside apart
  cases ring with
  | none => exact absurd rfl given.2
  | some address =>
    exact .inr ⟨address, _, rfl, rfl, ⟨rfl, rfl, Nat.zero_lt_succ _, rfl, Nat.zero_le _, Nat.not_le.mp inside.2,
      Nat.not_le.mp inside.1, Ne.symm apart.1.1, .inl rfl⟩, given.1, rfl⟩

lemma pipeRingFree_cases (pipe : Pipe) (env : PipeEnv) (ring : Option Nat) :
    (∃ given freed, pipe.pipeRingFree env ring = .ok (given, { pipe with freed })) ∨ pipe.pipeRingFree env ring =
      .error (.other "ring_free") := by
  unfold pipeRingFree
  split
  · exact .inl ⟨_, _, rfl⟩
  split
  · exact .inl ⟨_, _, rfl⟩
  split
  · exact .inr rfl
  · exact .inl ⟨_, _, rfl⟩

/-! A call stops the machine only when the process table or the heap disowns the pipe. -/

lemma Honoured.check (honoured : Honoured pipe env) (attached : Attached same)
    (inside : env.cpu.foreground = true) (reader : same.readerOpen = true → pipe.readerOpen = true)
    (writer : same.writerOpen = true → pipe.writerOpen = true)
    (ends : same.rslot = pipe.rslot ∧ same.rgen = pipe.rgen ∧ same.wslot = pipe.wslot ∧ same.wgen = pipe.wgen) :
    same.pipeCheck env = true := by
  obtain ⟨rslot, rgen, wslot, wgen⟩ := ends
  rw [pipeCheck_attached attached (Cpu.foreground_interrupts inside), rslot, rgen, wslot, wgen]
  exact ⟨fun opened => honoured.reader (reader opened), fun opened => honoured.writer (writer opened)⟩

section
variable (sound : Attached pipe ∨ Detached pipe) (honoured : Honoured pipe env)
include sound honoured

lemma pipeWrite_returns (slot gen : Nat) (src : Option ByteMemory) (len : Nat) :
    ∃ reply, pipe.pipeWrite env slot gen src len = .ok reply := by
  rcases pipeWrite_writes pipe env slot gen src len with ⟨_, -, same⟩ | ⟨total, inside, live, -, room, same⟩
  · exact ⟨_, same⟩
  rename_i source taken
  have attached := attached_of_live sound live
  have filled := attached.filled source total room
  obtain ⟨bytes, turns, shape, -⟩ := enqueue_contents source attached.rpos attached.wpos room
  rw [shape] at filled same
  exact ⟨_, same.trans (if_pos (honoured.check filled inside id id ⟨rfl, rfl, rfl, rfl⟩))⟩

lemma pipeReadCommit_returns (n : Nat) : ∃ reply, pipe.pipeReadCommit env n = .ok reply := by
  rcases pipeReadCommit_commits pipe env n with same | ⟨total, inside, live, within, same⟩
  · exact ⟨_, same⟩
  have attached := attached_of_live sound live
  have emptied := attached.emptied total within
  obtain ⟨turns, shape⟩ := dequeue_eq attached.rpos (le_trans within attached.count)
  rw [shape] at emptied same
  exact ⟨_, same.trans (if_pos (honoured.check emptied inside id id ⟨rfl, rfl, rfl, rfl⟩))⟩

end

/-- Closing an endpoint passes the check, as the other end is still honoured or nothing is
left; only the heap can refuse the ring. -/
lemma closeOut_ends (attached : Attached pipe) (honoured : Honoured pipe { env with heapFree := true })
    (inside : env.cpu.foreground = true)
    (fewer : (reader = true → pipe.readerOpen = true) ∧ (writer = true → pipe.writerOpen = true)) :
    (∃ reply, (pipe.closing reader writer).closeOut env = .ok reply) ∨
      (env.heapFree = false ∧ (pipe.closing reader writer).closeOut env = .error (.other "ring_free")) := by
  obtain ⟨ring, held⟩ := Option.isSome_iff_exists.mp attached.ring
  rw [closeOut_eq inside held]
  split
  next someone =>
    have passed : (pipe.closing reader writer).pipeCheck env = true :=
      honoured.check (attached.reopened someone pipe.fullStalls pipe.emptyStalls) inside fewer.1 fewer.2
        ⟨rfl, rfl, rfl, rfl⟩
    exact .inl ⟨_, if_pos passed⟩
  split
  · have passed : ((pipe.closing false false).cleared ring).pipeCheck env = _ :=
      pipeCheck_detached (cleared_detached pipe ring)
    rw [Cpu.foreground_interrupts inside] at passed
    exact .inl ⟨_, if_pos passed⟩
  next refused => exact .inr ⟨by simpa using refused, rfl⟩

section
variable (honoured : Attached pipe → Honoured pipe { env with heapFree := true })
  (sound : Attached pipe ∨ Detached pipe)
include honoured sound

/-- With the endpoints honoured, only a heap that refuses the ring stops a note. -/
lemma pipeNoteTerminal_ends (slot gen : Nat) : (∃ reply, pipe.pipeNoteTerminal env slot gen = .ok reply) ∨
      (env.heapFree = false ∧ pipe.pipeNoteTerminal env slot gen = .error (.other "ring_free")) := by
  rcases pipeNoteTerminal_notes pipe env slot gen with ⟨_, -, same⟩ | ⟨reader, writer, inside, live, fewer, same⟩
  · exact .inl ⟨_, same⟩
  have attached := attached_of_live sound live
  rw [same]
  exact closeOut_ends attached (honoured attached) inside ⟨fun opened => (fewer.1 opened).1,
    fun opened => (fewer.2 opened).1⟩

lemma pipeNoteTerminal_error (called : pipe.pipeNoteTerminal env slot gen = .error halt) :
    halt = .other "ring_free" := by
  rcases pipeNoteTerminal_ends honoured sound slot gen with ⟨reply, same⟩ | ⟨-, same⟩
  · cases called.symm.trans same
  · cases called.symm.trans same
    rfl

end

lemma Fifo.performs (fifo : Fifo ring past traced) (call : Call)
    (honoured : Honoured traced.pipe call.env) : ∃ reply next, traced.pipe.perform call = .ok (reply, next) := by
  have sound : Attached traced.pipe ∨ Detached traced.pipe := by
    cases fifo with
    | attached attached => exact .inl attached
    | detached detached => exact .inr detached
  cases op : call.op with
  | write slot gen src len =>
    obtain ⟨reply, wrote⟩ := pipeWrite_returns sound honoured slot gen src len
    simp only [perform, op, wrote]
    exact ⟨_, _, rfl⟩
  | stage slot gen dst len n =>
    simp only [perform, op]
    exact ⟨_, _, rfl⟩
  | commit n =>
    obtain ⟨reply, committing⟩ := pipeReadCommit_returns sound honoured n
    simp only [perform, op, committing]
    exact ⟨_, _, rfl⟩
  | noteTerminal slot gen =>
    rcases pipeNoteTerminal_ends (fun _ => ⟨honoured.reader, honoured.writer, rfl⟩) sound slot
      gen with ⟨reply, noted⟩ | ⟨heap, -⟩
    swap
    · rw [honoured.heap] at heap
      cases heap
    simp only [perform, op, noted]
    exact ⟨_, _, rfl⟩

/-- Committed bytes are a prefix of the accepted ones, the ring holds exactly the rest
while it is attached, end of file means that nothing is outstanding, and the ring goes
back to the heap once, at the second close. -/
theorem attached_pipe_lossless {before pipe : Pipe} {env : PipeEnv} {ring : Option Nat} {wslot wgen rslot rgen : Nat}
    {calls : List Call} {replies : List Reply} {last : Traced}
    (attached : before.pipeAttach env ring wslot wgen rslot rgen = .ok (true, pipe))
    (ran : Transition.run traceStep ⟨pipe, [], []⟩ calls = some (replies, last)) :
    last.committed <+: last.accepted ∧
    (last.pipe.live = true → last.pipe.count = last.accepted.length - last.committed.length ∧
      last.pipe.contents = last.accepted.drop last.committed.length) ∧
    last.pipe.count ≤ pipeCap ∧
    (∀ env slot gen dst len n data next, last.pipe.pipeReadStage env slot gen dst len n = (.staged data, next) →
      data <+: last.accepted.drop last.committed.length ∧
      (data = [] → last.pipe.writerOpen = false ∧ last.committed = last.accepted)) ∧
    (last.pipe.live = true ↔ last.pipe.readerOpen = true ∨ last.pipe.writerOpen = true) ∧
    last.pipe.freed = before.freed ++ (if last.pipe.live then [] else ring.toList) ∧
    ∀ call, Honoured last.pipe call.env → ∃ reply next, last.pipe.perform call = .ok (reply, next) := by
  rcases pipeAttach_cases before env ring wslot wgen rslot rgen with same | ⟨address, _, rfl, rfl, fresh, -, same⟩
  · cases same.symm.trans attached
  obtain ⟨-, rfl⟩ := checked_ok (same.symm.trans attached)
  have fifo : Fifo address before.freed last :=
    Transition.run_invariant (Fifo address before.freed) (fun _ _ _ _ => Fifo.step) ran (.attached fresh rfl rfl rfl)
  have performs := fifo.performs
  cases fifo with
  | attached attached held queue kept =>
    have rest : last.accepted.drop last.committed.length = last.pipe.contents := by rw [queue, drop_left]
    refine ⟨⟨_, queue.symm⟩, fun _ => ⟨?_, rest.symm⟩, attached.count, ?_, ?_, ?_, performs⟩
    · rw [queue, length_append, contents, RingBuffer.contents_length]
      omega
    · intro env slot gen dst len n data next called
      obtain ⟨-, staged⟩ := pipeReadStage_cases called
      rw [rest]
      rcases staged data rfl with ⟨rfl, empty, closed⟩ | ⟨some, same⟩
      · refine ⟨ nil_prefix, fun _ => ⟨closed, ?_⟩⟩
        rw [queue, contents, empty, RingBuffer.contents_zero, append_nil]
      · exact ⟨same ▸ take_prefix len _, fun none => absurd none some⟩
    · exact ⟨fun _ => attached.someone, fun _ => attached.live⟩
    · rw [attached.live, kept]
      exact (append_nil _).symm
  | detached detached order returned =>
    refine ⟨order, ?_, ?_, ?_, ?_, ?_, performs⟩
    · intro live
      rw [detached.live] at live
      cases live
    · rw [detached.count]
      exact Nat.zero_le _
    · intro env slot gen dst len n data next called
      simp only [pipeReadStage, detached.live] at called
      split at called
      · cases called
      · cases called
    · rw [detached.live, detached.reader, detached.writer]
      decide
    · rw [detached.live]
      exact returned

/-- A table where slots 0 and 1 hold the writer and the reader, in their first generation. -/
def pairEnv : PipeEnv :=
  { cpu := ⟨true, false⟩, heapFree := true
    slotInfo := fun slot => some ⟨1, if slot = 1 then stdinPipe else stdinClosed, if slot = 0 then stdoutPipe
      else stdoutSerial, true⟩ }

/-- Two bytes written and the first read, the writer gone, the rest read, end of file. -/
def drainCalls : List Call :=
  [⟨pairEnv, .write 0 1 (some (ByteMemory.ofList [7, 9])) 2⟩, ⟨pairEnv, .stage 1 1 true 1 true⟩, ⟨pairEnv, .commit 1⟩,
    ⟨pairEnv, .noteTerminal 0 1⟩, ⟨pairEnv, .stage 1 1 true 8 true⟩, ⟨pairEnv, .commit 1⟩,
      ⟨pairEnv, .stage 1 1 true 8 true⟩]

theorem attached_pipe_lossless_drain :
    ∃ pipe last, boot.pipeAttach pairEnv (some 64) 0 1 1 1 = .ok (true, pipe) ∧
      Transition.run traceStep ⟨pipe, [], []⟩ drainCalls =
        some ([.wrote 2, .stage (.staged [7]), .done true, .done true,
        .stage (.staged [9]), .done true, .stage (.staged [])], last) ∧
      last.committed <+: last.accepted := by
  exact ⟨_, _, rfl, rfl, (@attached_pipe_lossless boot _ pairEnv (some 64) 0 1 1 1 drainCalls _ _ rfl rfl).1⟩

end Rynor.Pipe
