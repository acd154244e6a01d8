import Aeglos.Kernel.WasmBinary

/-!
# LEB128 numbers

A number is written in groups of seven bits, the lowest first, and every byte but the last has its
highest bit set.
-/

namespace Aeglos.Wasm

open List Option

def Continued (bs : Bytes) : Prop := ∀ b ∈ bs, b &&& 0x80 ≠ 0

inductive Terminated : Bytes → Prop
  | intro {bs : Bytes} {b : UInt8} (hbs : Continued bs) (hb : b &&& 0x80 = 0) : Terminated (bs ++ [b])

def lebNat : Bytes → Nat
  | [] => 0
  | b :: bs => (b &&& 0x7F).toNat + 128 * lebNat bs

def lebInt (bs : Bytes) : Int := if bs.getLastD 0 &&& 0x40 ≠ 0 then lebNat bs - 128 ^ bs.length else lebNat bs

section Groups

variable {w shift acc : Nat} {b : UInt8}

lemma group_lt (b : UInt8) : (b &&& 0x7F).toNat < 128 := by
  rw [UInt8.toNat_and]
  exact Nat.lt_of_le_of_lt Nat.and_le_right (by decide)

lemma lebNat_lt (bs : Bytes) : lebNat bs < 2 ^ (7 * bs.length) := by
  induction bs with
  | nil => decide
  | cons b bs ih =>
    have hgroup := group_lt b
    rw [lebNat, length_cons, Nat.mul_add_one, Nat.pow_add]
    omega

lemma or_group (hacc : acc < 2 ^ shift) :
    BitVec.ofNat w acc ||| (b &&& 0x7F).toBitVec.setWidth w <<< shift =
      BitVec.ofNat w (acc + 2 ^ shift * (b &&& 0x7F).toNat) := by
  have hgroup : (b &&& 0x7F).toBitVec.setWidth w <<< shift = BitVec.ofNat w (2 ^ shift * (b &&& 0x7F).toNat) := by
    apply BitVec.eq_of_toNat_eq
    rw [BitVec.toNat_shiftLeft, BitVec.toNat_setWidth, BitVec.toNat_ofNat, Nat.shiftLeft_eq, Nat.mod_mul_mod, Nat.mul_comm]
    rfl
  rw [hgroup, Nat.add_comm, Nat.two_pow_add_eq_or_of_lt hacc, BitVec.ofNat_or, BitVec.or_comm]

lemma or_sign (hacc : acc < 2 ^ shift) :
    (if shift < w then BitVec.ofNat w acc ||| -((1 : BitVec w) <<< shift) else BitVec.ofNat w acc) =
      BitVec.ofInt w (acc - 2 ^ shift) := by
  have hone : BitVec.ofInt w (2 ^ shift) = (1 : BitVec w) <<< shift := by
    have hcast : (2 ^ shift : Int) = ((2 ^ shift : Nat) : Int) := by push_cast; rfl
    rw [hcast, BitVec.ofInt_natCast]
    apply BitVec.eq_of_toNat_eq
    rw [BitVec.toNat_ofNat]
    simp [Nat.shiftLeft_eq]
  rw [Int.sub_eq_add_neg, BitVec.ofInt_add, BitVec.ofInt_neg, BitVec.ofInt_natCast, hone]
  split_ifs with hw
  · refine (BitVec.add_eq_or_of_and_eq_zero _ _ (BitVec.eq_of_getLsbD_eq fun i hi => ?_)).symm
    rw [BitVec.getLsbD_and, BitVec.getLsbD_neg]
    by_cases hlt : i < shift
    · have hclear : ∀ j ≤ i, ((1 : BitVec w) <<< shift).getLsbD j = false := by
        intro j hj
        simp [show j < shift by omega]
      have hlow : ¬∃ j < i, ((1 : BitVec w) <<< shift).getLsbD j = true := by
        rintro ⟨j, hj, hbit⟩
        exact Bool.false_ne_true ((hclear j hj.le).symm.trans hbit)
      rw [hclear i le_rfl, decide_eq_false hlow]
      simp
    · have hbit : acc.testBit i = false :=
        Nat.testBit_lt_two_pow (hacc.trans_le (Nat.pow_le_pow_right (by decide) (by omega)))
      simp [BitVec.getLsbD_ofNat, hbit]
  · rw [BitVec.shiftLeft_eq_zero (Nat.le_of_not_lt hw)]
    simp

end Groups

section Loops

variable {w : Nat} (finish : BitVec w → Nat → UInt8 → BitVec w) (data : Bytes) {bs after : Bytes}
  {b : UInt8} {rounds limit acc shift i : Nat}

/-- The loop of the three decoders, with what they make of the bits at the last byte. -/
def lebLoop (limit : Nat) : Nat → BitVec w → Nat → Nat → Option (BitVec w × Nat)
  | 0, _, _, _ => none
  | rounds + 1, result, shift, i =>
    match data[i]? with
    | none => none
    | some b =>
      let result := result ||| (b &&& 0x7F).toBitVec.setWidth w <<< shift
      let shift := shift + 7
      if b &&& 0x80 = 0 then some (finish result shift b, i + 1)
      else if shift ≥ limit then none
      else lebLoop limit rounds result shift (i + 1)

lemma lebU32Loop_eq (r : BitVec 32) :
    lebU32Loop data rounds r shift i = lebLoop (fun r _ _ => r) data 35 rounds r shift i := by
  induction rounds generalizing r shift i with
  | zero => rfl
  | succ rounds ih =>
    rw [lebU32Loop, lebLoop]
    cases data[i]? with
    | none => rfl
    | some b => simp only [ih]

def signExtended (r : BitVec w) (shift : Nat) (b : UInt8) : BitVec w :=
  if shift < w ∧ b &&& 0x40 ≠ 0 then r ||| -((1 : BitVec w) <<< shift) else r

lemma lebSignedLoop_eq (r : BitVec w) :
    lebSignedLoop data w limit rounds r shift i = lebLoop signExtended data limit rounds r shift i := by
  induction rounds generalizing r shift i with
  | zero => rfl
  | succ rounds ih =>
    rw [lebSignedLoop, lebLoop]
    cases data[i]? with
    | none => rfl
    | some b =>
      simp only [ih, signExtended]
      split_ifs <;> rfl

variable {data} {p : Bytes}

lemma lebNat_concat (bs : Bytes) (b : UInt8) :
    lebNat (bs ++ [b]) = lebNat bs + 2 ^ (7 * bs.length) * (b &&& 0x7F).toNat := by
  induction bs with
  | nil => simp [lebNat]
  | cons c bs ih =>
    rw [cons_append, lebNat, ih, lebNat, length_cons, Nat.mul_add_one, Nat.pow_add]
    ring

lemma lebLoop_round (hdata : data.drop i = p ++ b :: after) :
    lebLoop finish data limit (rounds + 1) (BitVec.ofNat w (lebNat p)) (7 * p.length) (i + p.length) =
      if b &&& 0x80 = 0 then
        some (finish (BitVec.ofNat w (lebNat (p ++ [b]))) (7 * (p ++ [b]).length) b, i + (p ++ [b]).length)
      else if 7 * (p ++ [b]).length ≥ limit then none
      else lebLoop finish data limit rounds (BitVec.ofNat w (lebNat (p ++ [b]))) (7 * (p ++ [b]).length)
        (i + (p ++ [b]).length) := by
  have hread : data[i + p.length]? = some b := by
    rw [← getElem?_drop, hdata, getElem?_append_right le_rfl, Nat.sub_self]
    rfl
  rw [lebLoop, hread, length_append, lebNat_concat, ← or_group (lebNat_lt p)]
  rfl

lemma lebLoop_continued {q : Bytes} (hq : Continued q) (hdata : data.drop i = p ++ q ++ after)
    (hlimit : 7 * (p ++ q).length < limit) :
    lebLoop finish data limit (q.length + rounds) (BitVec.ofNat w (lebNat p)) (7 * p.length) (i + p.length) =
      lebLoop finish data limit rounds (BitVec.ofNat w (lebNat (p ++ q))) (7 * (p ++ q).length) (i + (p ++ q).length) := by
  induction q generalizing p with
  | nil => simp
  | cons b q ih =>
    rw [append_cons] at hdata hlimit ⊢
    have hshort : ¬7 * (p ++ [b]).length ≥ limit := by
      rw [length_append] at hlimit
      omega
    rw [← ih (fun c hc => hq c (mem_cons_of_mem b hc)) hdata hlimit, length_cons, Nat.add_right_comm,
      lebLoop_round finish (by simpa using hdata), if_neg (hq b mem_cons_self), if_neg hshort]

lemma lebLoop_start (rounds : Nat) {q : Bytes} (hq : Continued q) (hdata : data.drop i = q ++ after) (hlimit : 7 * q.length < limit) :
    lebLoop finish data limit (q.length + rounds) (0 : BitVec w) 0 i =
      lebLoop finish data limit rounds (BitVec.ofNat w (lebNat q)) (7 * q.length) (i + q.length) :=
  lebLoop_continued (p := []) finish hq hdata hlimit

variable (hdata : data.drop i = bs ++ after)

include hdata

lemma lebLoop_terminated (hbs : Terminated bs) (hlen : bs.length ≤ rounds) :
    lebLoop finish data (7 * rounds) rounds 0 0 i =
      some (finish (BitVec.ofNat w (lebNat bs)) (7 * bs.length) (bs.getLastD 0), i + bs.length) := by
  obtain @⟨q, b, hq, hb⟩ := hbs
  rw [length_append, length_singleton] at hlen
  have hsplit : rounds = q.length + (rounds - q.length - 1 + 1) := by omega
  rw [append_assoc] at hdata
  refine (congrArg (lebLoop finish data (7 * rounds) · 0 0 i) hsplit).trans ?_
  rw [lebLoop_start finish _ hq hdata (by omega), lebLoop_round finish (by simpa using hdata), if_pos hb, getLastD_concat]

lemma lebLoop_unterminated (hbs : Continued bs) (hend : after = [] ∨ rounds ≤ bs.length) :
    lebLoop finish data (7 * rounds) rounds 0 0 i = none := by
  by_cases hlen : rounds ≤ bs.length
  · cases rounds with
    | zero => rfl
    | succ rounds =>
      obtain ⟨q, b, rest, rfl, hq⟩ : ∃ q b rest, bs = q ++ b :: rest ∧ q.length = rounds :=
        ⟨bs.take rounds, bs[rounds], bs.drop (rounds + 1), by simp, by simp; omega⟩
      rw [append_assoc] at hdata
      rw [← hq, lebLoop_start finish 1 (fun c hc => hbs c (mem_append_left _ hc)) hdata (by omega),
        lebLoop_round finish (by simpa using hdata), if_neg (hbs b (by simp)), if_pos (by simp)]
  · obtain rfl := hend.resolve_right hlen
    have hsplit : rounds = bs.length + (rounds - bs.length - 1 + 1) := by omega
    have hover : data[i + bs.length]? = none := by
      rw [← getElem?_drop, hdata]
      simp
    refine (congrArg (lebLoop finish data (7 * rounds) · 0 0 i) hsplit).trans ?_
    rw [lebLoop_start finish _ hbs hdata (by omega), lebLoop, hover]

end Loops

lemma signExtended_eq (w : Nat) (bs : Bytes) :
    signExtended (BitVec.ofNat w (lebNat bs)) (7 * bs.length) (bs.getLastD 0) = BitVec.ofInt w (lebInt bs) := by
  have hpow : (128 ^ bs.length : Int) = 2 ^ (7 * bs.length) := by
    rw [pow_mul]
    rfl
  by_cases hsign : bs.getLastD 0 &&& 0x40 ≠ 0
  · rw [lebInt, if_pos hsign, hpow, ← or_sign (lebNat_lt bs), signExtended]
    simp only [hsign, and_true, ne_eq, not_false_eq_true]
  · rw [lebInt, if_neg hsign, signExtended, if_neg fun h => hsign h.2, BitVec.ofInt_natCast]

/-- Every encoding of a number is decoded to it and to its length, wherever it stands, and bytes that do
not end in time are refused. -/
theorem leb128_decoded (before bs after : Bytes) :
    (Terminated bs → bs.length ≤ 5 →
      (∀ v : BitVec 32, lebNat bs = v.toNat →
        readLeb128U32 (before ++ bs ++ after) before.length = some (v.toNat, bs.length)) ∧
      ∀ v : BitVec 32, lebInt bs = v.toInt →
        readLeb128I32 (before ++ bs ++ after) before.length = some (v, bs.length)) ∧
    (Terminated bs → bs.length ≤ 10 → ∀ v : BitVec 64, lebInt bs = v.toInt →
      readLeb128I64 (before ++ bs ++ after) before.length = some (v, bs.length)) ∧
    (Continued bs → (after = [] ∨ 5 ≤ bs.length →
        readLeb128U32 (before ++ bs ++ after) before.length = none ∧
        readLeb128I32 (before ++ bs ++ after) before.length = none) ∧
      (after = [] ∨ 10 ≤ bs.length → readLeb128I64 (before ++ bs ++ after) before.length = none)) := by
  have hdata : (before ++ bs ++ after).drop before.length = bs ++ after := by simp
  simp only [readLeb128U32, readLeb128I32, readLeb128I64, lebU32Loop_eq, lebSignedLoop_eq]
  refine ⟨fun hbs hlen => ⟨fun v hv => ?_, fun v hv => ?_⟩, fun hbs hlen v hv => ?_, fun hbs => ⟨fun hend => ⟨?_, ?_⟩, fun hend => ?_⟩⟩
  · rw [lebLoop_terminated _ hdata hbs hlen, hv, map_some, BitVec.ofNat_toNat, Nat.add_sub_cancel_left,
      BitVec.setWidth_eq]
  · rw [lebLoop_terminated _ hdata hbs hlen, signExtended_eq, hv, map_some, BitVec.ofInt_toInt, Nat.add_sub_cancel_left]
  · rw [lebLoop_terminated _ hdata hbs hlen, signExtended_eq, hv, map_some, BitVec.ofInt_toInt, Nat.add_sub_cancel_left]
  · rw [lebLoop_unterminated _ hdata hbs hend, map_none]
  · rw [lebLoop_unterminated _ hdata hbs hend, map_none]
  · rw [lebLoop_unterminated _ hdata hbs hend, map_none]

end Aeglos.Wasm
