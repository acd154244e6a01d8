import Aeglos.Kernel.Csprng
import Aeglos.Kernel.Page
import Aeglos.Library.Runs

/-!
# Random bytes are handed out once

The bytes are handed out in the order of the blocks, which have a counter.
-/

namespace Aeglos.Csprng

open TransitionSystem List Function

def counter (s : Words) : Nat := (s 12).toNat + 2 ^ 32 * (s 13).toNat

lemma counter_increment (s : Words) : counter (Drbg.increment s) = (counter s + 1) % 2 ^ 64 := by
  have hlow := (s 12).isLt
  have hhigh := (s 13).isLt
  have hself : Function.update s 12 (s 12 + 1) 12 = s 12 + 1 := update_self ..
  have hother : Function.update s 12 (s 12 + 1) 13 = s 13 := update_of_ne (by decide) ..
  have hsum : (s 12 + 1).toNat = ((s 12).toNat + 1) % 2 ^ 32 := by simp
  rw [Drbg.increment, hself, hother]
  by_cases hzero : s 12 + 1 = 0
  · have hfull : ((s 12).toNat + 1) % 2 ^ 32 = 0 := by
      rw [← hsum, hzero]
      rfl
    have hnext : (s 13 + 1).toNat = ((s 13).toNat + 1) % 2 ^ 32 := by simp
    rw [if_pos hzero, counter, counter, update_self, update_of_ne (by decide), hself, hsum, hnext]
    omega
  · have hroom : ((s 12).toNat + 1) % 2 ^ 32 ≠ 0 := by
      rw [← hsum]
      exact fun h => hzero (BitVec.eq_of_toNat_eq h)
    rw [if_neg hzero, counter, counter, hself, hother, hsum]
    omega

lemma increment_of_ne (s : Words) {i : Fin 16} (h12 : i ≠ 12) (h13 : i ≠ 13) : Drbg.increment s i = s i := by
  rw [Drbg.increment]
  split_ifs
  · rw [update_of_ne h13, update_of_ne h12]
  · rw [update_of_ne h12]

lemma iterate_increment (s : Words) (k : Nat) : counter (Drbg.increment^[k] s) = (counter s + k) % 2 ^ 64 ∧
    ∀ i, i ≠ 12 → i ≠ 13 → Drbg.increment^[k] s i = s i := by
  induction k with
  | zero =>
    have hlow := (s 12).isLt
    have hhigh := (s 13).isLt
    refine ⟨?_, fun _ _ _ => rfl⟩
    rw [iterate_zero_apply, counter]
    omega
  | succ k ih =>
    rw [iterate_succ_apply', counter_increment, ih.1]
    exact ⟨by omega, fun i h12 h13 => (increment_of_ne _ h12 h13).trans (ih.2 i h12 h13)⟩

section Stream

variable {d : Drbg}

def streamByte (d : Drbg) (j : Nat) : UInt8 :=
  if d.pos + j < 64 then d.keystream.getD (d.pos + j) 0
  else (chacha20Block (Drbg.increment^[(d.pos + j - 64) / 64] d.state)).getD ((d.pos + j - 64) % 64) 0

lemma streamByte_refill (h : d.pos = 64) (j : Nat) : streamByte d.refill j = streamByte d j := by
  have hstate : d.refill.state = Drbg.increment d.state := rfl
  have hkeystream : d.refill.keystream = chacha20Block d.state := rfl
  have hpos : d.refill.pos + j = j := Nat.zero_add j
  rw [streamByte, streamByte, h, if_neg (by omega : ¬64 + j < 64), Nat.add_sub_cancel_left, hstate, hkeystream, hpos]
  split_ifs with hin
  · rw [Nat.div_eq_of_lt hin, Nat.mod_eq_of_lt hin, iterate_zero_apply]
  · have hblock : j / 64 = (j - 64) / 64 + 1 := by omega
    have hplace : j % 64 = (j - 64) % 64 := by omega
    rw [hblock, hplace, iterate_succ_apply]

lemma nextByte_of_lt (h : d.pos < 64) : d.nextByte = (d.keystream.getD d.pos 0,
    { d with pos := d.pos + 1, served := d.served ++ [⟨d.blocks.length - 1, d.pos, d.keystream.getD d.pos 0⟩] }) := by
  rw [Drbg.nextByte, if_neg (Nat.not_le.mpr h)]

lemma nextByte_refill (h : 64 ≤ d.pos) : d.nextByte = d.refill.nextByte := by
  rw [Drbg.nextByte, if_pos h]
  rfl

lemma nextByte_spec (h : d.pos ≤ 64) :
    d.nextByte.1 = streamByte d 0 ∧ d.nextByte.2.pos ≤ 64 ∧ ∀ j, streamByte d.nextByte.2 j = streamByte d (j + 1) := by
  have hlt : ∀ d : Drbg, d.pos < 64 → d.nextByte.1 = streamByte d 0 ∧ d.nextByte.2.pos ≤ 64 ∧
      ∀ j, streamByte d.nextByte.2 j = streamByte d (j + 1) := by
    intro d hlt
    rw [nextByte_of_lt hlt]
    refine ⟨(if_pos hlt).symm, hlt, fun j => ?_⟩
    have hsum : d.pos + 1 + j = d.pos + (j + 1) := by omega
    rw [streamByte, streamByte, ← hsum]
  rcases Nat.lt_or_ge d.pos 64 with hpos | hfull
  · exact hlt d hpos
  · have hstream := streamByte_refill (Nat.le_antisymm h hfull)
    have hnext := hlt d.refill (Nat.zero_lt_succ 63)
    simp only [hstream] at hnext
    rwa [nextByte_refill hfull]

lemma fillBytes_eq (n : Nat) (h : d.pos ≤ 64) : (d.fillBytes n).1 = (List.range n).map (streamByte d) := by
  induction n generalizing d with
  | zero => rfl
  | succ n ih =>
    obtain ⟨hbyte, hpos, hstream⟩ := nextByte_spec h
    rw [Drbg.fillBytes, range_succ_eq_map, map_cons, map_map, hbyte, ih hpos]
    exact congrArg (streamByte d 0 :: ·) (map_congr_left fun j _ => hstream j)

def requests : List Nat → Drbg → Bytes
  | [], _ => []
  | n :: ns, d => (d.fillBytes n).1 ++ requests ns (d.fillBytes n).2

lemma fillBytes_add (m n : Nat) (d : Drbg) :
    (d.fillBytes (m + n)).1 = (d.fillBytes m).1 ++ ((d.fillBytes m).2.fillBytes n).1 ∧
      (d.fillBytes (m + n)).2 = ((d.fillBytes m).2.fillBytes n).2 := by
  induction m generalizing d with
  | zero => rw [Nat.zero_add]; exact ⟨rfl, rfl⟩
  | succ m ih =>
    rw [Nat.succ_add, Drbg.fillBytes, Drbg.fillBytes, (ih d.nextByte.2).1, (ih d.nextByte.2).2]
    exact ⟨rfl, rfl⟩

lemma requests_eq (ns : List Nat) (d : Drbg) : requests ns d = (d.fillBytes ns.sum).1 := by
  induction ns generalizing d with
  | nil => rfl
  | cons n ns ih => rw [requests, ih, sum_cons, (fillBytes_add n ns.sum d).1]

end Stream

section Runs

inductive DrbgOp where
  | fill (n : Nat)
  | reseed (extra : Nat → BitVec 32)

def Drbg.step (d : Drbg) : DrbgOp → Drbg
  | .fill n => (d.fillBytes n).2
  | .reseed extra => d.reseed extra

/-- The blocks have the counters in order, and the bytes have been handed out in the order of the blocks,
up to the present position. -/
structure InOrder (d : Drbg) : Prop where
  pos_le : d.pos ≤ 64
  counted : counter d.state = d.blocks.length % 2 ^ 64
  blocks : ∀ k s, d.blocks[k]? = some s → counter s = k % 2 ^ 64
  current : d.pos < 64 → ∃ s, d.blocks[d.blocks.length - 1]? = some s ∧ d.keystream = chacha20Block s
  order : d.served.Pairwise fun a b => 64 * a.block + a.offset < 64 * b.block + b.offset
  before : ∀ e ∈ d.served, e.offset < 64 ∧ 64 * e.block + e.offset + 64 < 64 * d.blocks.length + d.pos
  bytes : ∀ e ∈ d.served, ∃ s, d.blocks[e.block]? = some s ∧ e.byte = (chacha20Block s).getD e.offset 0

variable {d : Drbg}

lemma InOrder.refill (h : InOrder d) (hfull : 64 ≤ d.pos) : InOrder d.refill := by
  have hpos := h.pos_le
  have hlength : (d.blocks ++ [d.state]).length = d.blocks.length + 1 := by simp
  refine ⟨Nat.zero_le _, ?_, ?_, ?_, h.order, ?_, ?_⟩
  · dsimp only [Drbg.refill]
    rw [counter_increment, h.counted, hlength]
    omega
  · intro k s hk
    rcases Nat.lt_or_ge k d.blocks.length with hlt | hge
    · exact h.blocks k s (by rwa [Drbg.refill, List.getElem?_append_left hlt] at hk)
    · have hlast : k = d.blocks.length := by
        have := (List.getElem?_eq_some_iff.mp hk).1
        rw [Drbg.refill, hlength] at this
        omega
      rw [hlast, Drbg.refill, List.getElem?_concat_length] at hk
      rw [← Option.some.inj hk, h.counted, hlast]
  · intro _
    refine ⟨d.state, ?_, rfl⟩
    rw [Drbg.refill, hlength, Nat.add_sub_cancel, List.getElem?_concat_length]
  · intro e he
    obtain ⟨hoffset, hbefore⟩ := h.before e he
    rw [Drbg.refill, hlength]
    exact ⟨hoffset, by omega⟩
  · intro e he
    obtain ⟨s, hs, hbyte⟩ := h.bytes e he
    exact ⟨s, by rw [Drbg.refill, List.getElem?_append_left (List.getElem?_eq_some_iff.mp hs).1, hs], hbyte⟩

lemma InOrder.serve (h : InOrder d) (hlt : d.pos < 64) :
    InOrder { d with pos := d.pos + 1, served := d.served ++ [⟨d.blocks.length - 1, d.pos, d.keystream.getD d.pos 0⟩] } := by
  obtain ⟨s, hs, hkeystream⟩ := h.current hlt
  have hlength := (List.getElem?_eq_some_iff.mp hs).1
  refine ⟨hlt, h.counted, h.blocks, fun _ => h.current hlt, ?_, ?_, ?_⟩
  · rw [List.pairwise_append]
    refine ⟨h.order, List.pairwise_singleton .., ?_⟩
    intro e he e' he'
    have hbefore := (h.before e he).2
    rw [List.mem_singleton.mp he']
    dsimp only
    omega
  · intro e he
    rcases List.mem_append.mp he with he | he
    · have hbefore := h.before e he
      exact ⟨hbefore.1, Nat.lt_succ_of_lt hbefore.2⟩
    · rw [List.mem_singleton.mp he]
      exact ⟨hlt, by dsimp only; omega⟩
  · intro e he
    rcases List.mem_append.mp he with he | he
    · exact h.bytes e he
    · rw [List.mem_singleton.mp he]
      exact ⟨s, hs, by rw [hkeystream]⟩

lemma InOrder.nextByte (h : InOrder d) : InOrder d.nextByte.2 := by
  rcases Nat.lt_or_ge d.pos 64 with hlt | hfull
  · rw [nextByte_of_lt hlt]
    exact h.serve hlt
  · have hpos : d.refill.pos < 64 := Nat.zero_lt_succ 63
    rw [nextByte_refill hfull, nextByte_of_lt hpos]
    exact (h.refill hfull).serve hpos

lemma InOrder.step (h : InOrder d) (op : DrbgOp) : InOrder (d.step op) := by
  cases op with
  | fill n =>
    rw [Drbg.step]
    induction n generalizing d with
    | zero => exact h
    | succ n ih => exact ih h.nextByte
  | reseed extra =>
    have hpos := h.pos_le
    refine ⟨le_rfl, h.counted, h.blocks, fun hlt => absurd hlt (lt_irrefl 64), h.order, fun e he => ?_, h.bytes⟩
    have hbefore := h.before e he
    exact ⟨hbefore.1, hbefore.2.trans_le (Nat.add_le_add_left hpos _)⟩

lemma inOrder_init (d : Drbg) (seed : Nat → BitVec 32) (t sp : BitVec 64) : InOrder (d.init seed t sp) :=
  ⟨le_rfl, rfl, nofun, fun h => absurd h (lt_irrefl 64), List.Pairwise.nil, nofun, nofun⟩

/-- Every block has a counter of its own and every byte of a block is handed out at most once. From an `init`
or a `reseed` on, the calls hand out the bytes of the blocks for consecutive counters. -/
theorem keystream_handed_out_once {d g : Drbg} {seed : Nat → BitVec 32} {t sp : BitVec 64} {ops : List DrbgOp}
    (hrun : run Drbg.step (d.init seed t sp) ops = g) (hfew : g.blocks.length < 2 ^ 64) :
    (g.blocks.map counter).Nodup ∧ (g.served.map fun e => (e.block, e.offset)).Nodup ∧
    (∀ e ∈ g.served, e.offset < 64 ∧ ∃ s, g.blocks[e.block]? = some s ∧ e.byte = (chacha20Block s).getD e.offset 0) ∧
    (∀ d' : Drbg, d'.pos = 64 → ∀ ns, requests ns d' = (List.range ns.sum).map fun j =>
      (chacha20Block (Drbg.increment^[j / 64] d'.state)).getD (j % 64) 0) ∧
    ∀ s k, counter (Drbg.increment^[k] s) = (counter s + k) % 2 ^ 64 ∧
      ∀ i, i ≠ 12 → i ≠ 13 → Drbg.increment^[k] s i = s i := by
  have h : InOrder g := by
    rw [← hrun]
    exact run_preserves (fun _ op h => h.step op) (inOrder_init d seed t sp) ops
  refine ⟨?_, ?_, fun e he => ⟨(h.before e he).1, h.bytes e he⟩, ?_, iterate_increment⟩
  · have hcounters : g.blocks.map counter = List.range g.blocks.length := by
      refine ext_getElem (by simp) ?_
      intro k hk hk'
      rw [length_range] at hk'
      rw [getElem_map, getElem_range, h.blocks k _ (getElem?_eq_getElem hk')]
      omega
    rw [hcounters]
    exact nodup_range
  · refine pairwise_map.mpr (h.order.imp ?_)
    intro a b hlt hplace
    obtain ⟨hblock, hoffset⟩ := Prod.mk.inj hplace
    rw [hblock, hoffset] at hlt
    exact lt_irrefl _ hlt
  · intro d' hpos ns
    rw [requests_eq, fillBytes_eq _ hpos.le]
    refine map_congr_left fun j _ => ?_
    rw [streamByte, if_neg (by omega), hpos, Nat.add_sub_cancel_left]

theorem keystream_handed_out_once_byte :
    ((run Drbg.step (Drbg.init ⟨fun _ => 0, [], 64, [], []⟩ (fun _ => 0) 0 0) [.fill 1]).blocks.map counter).Nodup :=
  (keystream_handed_out_once rfl (by decide +kernel)).1

end Runs

end Aeglos.Csprng
