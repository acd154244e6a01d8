import Aeglos.Kernel.Files
import Aeglos.Library.RingBuffer
import Aeglos.Library.Runs

/-!
# Pipes

A pipe is a queue of bytes.
-/

namespace Aeglos.Proofs

open TransitionSystem RingBuffer List

inductive PipeOp where
  | read (len : Nat)
  | write (src : Bytes)

/-- A pipe with what has been written to it and what has been read from it. -/
structure LoggedPipe where
  pipe : PipeBuf
  sent : Bytes
  received : Bytes

def LoggedPipe.step (l : LoggedPipe) : PipeOp → LoggedPipe
  | .read len => { l with pipe := (l.pipe.readBytes len).2, received := l.received ++ (l.pipe.readBytes len).1 }
  | .write src =>
    { l with pipe := (l.pipe.writeBytes src).2, sent := l.sent ++ src.take (l.pipe.writeBytes src).1 }

local instance : NeZero pipeCap := ⟨by decide⟩

def PipeBuf.Holds (p : PipeBuf) (count : Nat) (q : Bytes) : Prop :=
  HoldsQueue (fun i => some (p.data i)) (Fin.ofNat pipeCap p.readPos) (Fin.ofNat pipeCap p.writePos) count q

variable {p : PipeBuf} {count : Nat} {q : Bytes}

lemma ofNat_mod (n : Nat) : Fin.ofNat pipeCap (n % pipeCap) = Fin.ofNat pipeCap n := Fin.ext (Nat.mod_mod n pipeCap)

lemma PipeBuf.Holds.read (h : PipeBuf.Holds p p.count q) (len : Nat) :
    (p.readBytes len).1 = q.take len ∧ PipeBuf.Holds (p.readBytes len).2 (p.readBytes len).2.count (q.drop len) := by
  have hlen : q.length = p.count := h.length
  constructor
  · apply ext_getElem?
    intro i
    rw [PipeBuf.readBytes, getElem?_map, getElem?_take]
    by_cases hi : i < min len p.count
    · rw [getElem?_range hi, if_pos (by omega), ← h.cells i (by omega), ← ofNat_add]
      rfl
    · rw [getElem?_eq_none (by rw [length_range]; omega), Option.map_none]
      split_ifs with hlt
      · rw [getElem?_eq_none (by omega)]
      · rfl
  · have hdrop : q.drop (min len p.count) = q.drop len := by rw [← hlen, ← drop_eq_drop_min]
    have hrest := h.discard (Nat.min_le_right len p.count)
    rw [← ofNat_add, ← ofNat_mod, hdrop] at hrest
    exact hrest

lemma PipeBuf.Holds.store (h : PipeBuf.Holds p count q) (src : Bytes) (hroom : count + src.length ≤ pipeCap) :
    PipeBuf.Holds (p.store src) (count + src.length) (q ++ src) := by
  induction src generalizing p count q with
  | nil =>
    rw [append_nil]
    exact h
  | cons b src ih =>
    rw [length_cons] at hroom
    have hpush := h.push (by omega) b
    have htail : Fin.ofNat pipeCap p.writePos + 1 = Fin.ofNat pipeCap ((p.writePos + 1) % pipeCap) := by
      rw [ofNat_mod, ofNat_add]
      rfl
    have hdata : (fun i => some (Function.update p.data (Fin.ofNat pipeCap p.writePos) b i)) =
        Function.update (fun i => some (p.data i)) (Fin.ofNat pipeCap p.writePos) (some b) := Function.comp_update ..
    rw [← hdata, htail] at hpush
    rw [append_cons, length_cons, Nat.add_comm src.length, ← Nat.add_assoc]
    exact ih (p := { p with data := _, writePos := _ }) hpush (by omega)

def LoggedPipe.Queued (l : LoggedPipe) : Prop := ∃ q, PipeBuf.Holds l.pipe l.pipe.count q ∧ l.received ++ q = l.sent

lemma LoggedPipe.Queued.step {l : LoggedPipe} (h : l.Queued) (op : PipeOp) : (l.step op).Queued := by
  obtain ⟨q, hq, hlog⟩ := h
  cases op with
  | read len =>
    obtain ⟨hread, hrest⟩ := hq.read len
    refine ⟨q.drop len, hrest, ?_⟩
    rw [LoggedPipe.step, hread, append_assoc, take_append_drop, hlog]
  | write src =>
    have hle := hq.le
    have hlen : (src.take (l.pipe.writeBytes src).1).length = (l.pipe.writeBytes src).1 := by
      rw [length_take, PipeBuf.writeBytes]
      omega
    have hstore := hq.store (src.take (l.pipe.writeBytes src).1) (by rw [hlen, PipeBuf.writeBytes]; omega)
    rw [hlen] at hstore
    refine ⟨q ++ src.take (l.pipe.writeBytes src).1, hstore, ?_⟩
    rw [LoggedPipe.step, ← append_assoc, hlog]

/-- Over any history of a pipe that `sys_pipe` has handed out, the bytes that have been read, followed by those
that a read of everything would return, are the bytes that were accepted. -/
theorem pipe_is_queue (p : PipeBuf) (ops : List PipeOp) :
    let l := run LoggedPipe.step ⟨{ p with readPos := 0, writePos := 0, count := 0 }, [], []⟩ ops
    l.received ++ (l.pipe.readBytes pipeCap).1 = l.sent ∧ l.pipe.count ≤ pipeCap := by
  intro l
  obtain ⟨q, hq, hlog⟩ : l.Queued := run_preserves (fun _ op h => h.step op) ⟨[], HoldsQueue.empty _ 0, rfl⟩ ops
  have hlen := hq.length
  have hle := hq.le
  refine ⟨?_, hle⟩
  rw [(hq.read pipeCap).1, take_of_length_le (by omega), hlog]

end Aeglos.Proofs
