import Mathlib.Data.Nat.Size
import Aeglos.Kernel.WasmInterp

/-!
# The integer instructions

The instructions are compared with the operators of the WebAssembly specification.
-/

namespace Aeglos.Wasm

namespace Spec

def toSigned (n i : Nat) : Int := if i < 2 ^ (n - 1) then i else i - 2 ^ n

def ofSigned (n : Nat) (j : Int) : Nat := (j % 2 ^ n).toNat

def divS (n i j : Nat) : Option Nat :=
  if toSigned n j = 0 ∨ (toSigned n i).tdiv (toSigned n j) = 2 ^ (n - 1) then none
  else some (ofSigned n ((toSigned n i).tdiv (toSigned n j)))

def remS (n i j : Nat) : Option Nat :=
  if toSigned n j = 0 then none else some (ofSigned n ((toSigned n i).tmod (toSigned n j)))

def extend (m n i : Nat) : Nat := ofSigned n (toSigned m (i % 2 ^ m))

/-- An operator with operands below `2 ^ n` and results below `2 ^ r`; where a binary one is undefined,
the instruction traps. -/
inductive Oper where
  | unary (n r : Nat) (f : Nat → Nat)
  | binary (n r : Nat) (f : Nat → Nat → Option Nat)

def cmp (n : Nat) (f : Nat → Nat → Bool) : Oper := .binary n 32 fun i j => some (f i j).toNat

def num (n : Nat) (f : Nat → Nat → Nat) : Oper := .binary n n fun i j => some (f i j)

def comparisons (n : Nat) : List Oper :=
  [.unary n 32 fun i => (decide (i = 0)).toNat, cmp n fun i j => i = j, cmp n fun i j => i ≠ j,
    cmp n fun i j => toSigned n i < toSigned n j, cmp n fun i j => i < j,
    cmp n fun i j => toSigned n i > toSigned n j, cmp n fun i j => i > j,
    cmp n fun i j => toSigned n i ≤ toSigned n j, cmp n fun i j => i ≤ j,
    cmp n fun i j => toSigned n i ≥ toSigned n j, cmp n fun i j => i ≥ j]

def arithmetic (n : Nat) : List Oper :=
  [.unary n n fun i => n - i.size, .unary n n fun i => (List.range n).findIdx i.testBit,
    .unary n n fun i => (List.range n).countP i.testBit,
    num n fun i j => (i + j) % 2 ^ n, num n fun i j => (i + 2 ^ n - j) % 2 ^ n, num n fun i j => i * j % 2 ^ n,
    .binary n n (divS n), .binary n n fun i j => if j = 0 then none else some (i / j),
    .binary n n (remS n), .binary n n fun i j => if j = 0 then none else some (i % j),
    num n fun i j => i &&& j, num n fun i j => i ||| j, num n fun i j => i ^^^ j,
    num n fun i j => i <<< (j % n) % 2 ^ n, num n fun i j => ofSigned n (toSigned n i >>> (j % n)),
    num n fun i j => i >>> (j % n), num n fun i j => i <<< (j % n) % 2 ^ n ||| i >>> (n - j % n),
    num n fun i j => i >>> (j % n) ||| i <<< (n - j % n) % 2 ^ n]

def numbered (first : Nat) (os : List Oper) : List (Nat × Oper) := os.mapIdx fun k o => (first + k, o)

def conversions : List (Nat × Oper) :=
  [(0xA7, .unary 64 32 fun i => i % 2 ^ 32), (0xAC, .unary 32 64 (extend 32 64)), (0xAD, .unary 32 64 id),
    (0xC0, .unary 32 32 (extend 8 32)), (0xC1, .unary 32 32 (extend 16 32)), (0xC2, .unary 64 64 (extend 8 64)),
    (0xC3, .unary 64 64 (extend 16 64)), (0xC4, .unary 64 64 (extend 32 64))]

def operators : List (Nat × Oper) :=
  numbered 0x45 (comparisons 32) ++ numbered 0x50 (comparisons 64) ++ numbered 0x67 (arithmetic 32) ++
    numbered 0x79 (arithmetic 64) ++ conversions

end Spec

open Spec Effects

section Words

variable {n : Nat} (x y : BitVec n)

lemma toSigned_toNat : toSigned n x.toNat = x.toInt := by
  rw [toSigned, BitVec.toInt_eq_toNat_cond]
  rcases n with _ | n
  · simp [BitVec.toNat_of_zero_length]
  · rw [Nat.add_sub_cancel, Nat.pow_succ]
    split_ifs <;> first | omega | push_cast; ring

lemma ofSigned_toInt : ofSigned n x.toInt = x.toNat := by
  have hlt : (x.toNat : Int) < 2 ^ n := by exact_mod_cast x.isLt
  have hbmod := Int.bmod_emod (x := (x.toNat : Int)) (m := 2 ^ n)
  rw [ofSigned, BitVec.toInt_eq_toNat_bmod]
  push_cast at hbmod
  rw [hbmod, Int.emod_eq_of_lt (by omega) hlt, Int.toNat_natCast]

lemma toNat_clz (hn : 0 < n) : x.clz.toNat = n - x.toNat.size := by
  have hupper : x.toNat.size ≤ n - x.clz.toNat := Nat.size_le.mpr BitVec.toNat_lt_two_pow_sub_clz
  have hle : x.clz.toNat ≤ n := by
    have h := BitVec.le_def.mp (BitVec.clz_le (x := x))
    simpa using h
  by_cases hx : x = 0#n
  · subst hx
    rw [BitVec.clz_eq_iff_eq_zero.mpr rfl]
    simp [Nat.size_zero]
  · have hlower : n - 1 - x.clz.toNat < x.toNat.size :=
      Nat.lt_size.mpr (BitVec.two_pow_sub_clz_le_toNat_of_ne_zero hn hx)
    omega

lemma toNat_ctz : x.ctz.toNat = (List.range n).findIdx x.toNat.testBit := by
  symm
  by_cases hx : x = 0#n
  · subst hx
    have hctz : (0#n).ctz.toNat = n := by
      have hreverse : (0#n).reverse = 0#n := BitVec.eq_of_getLsbD_eq fun i _ => by simp [BitVec.getLsbD_reverse]
      rw [BitVec.ctz, hreverse, BitVec.clz_eq_iff_eq_zero.mpr rfl]
      simp
    rw [hctz]
    refine Eq.trans (List.findIdx_eq_length.mpr fun k _ => ?_) List.length_range
    simp
  · have hlt : x.ctz.toNat < n := by
      have h := BitVec.lt_def.mp (BitVec.ctz_lt_iff_ne_zero.mpr hx)
      simpa using h
    rw [List.findIdx_eq (by simpa using hlt)]
    simp only [List.getElem_range]
    exact ⟨BitVec.getLsbD_true_ctz_of_ne_zero hx, fun j hj => BitVec.getLsbD_false_of_lt_ctz hj⟩

lemma toNat_cpop : x.cpop.toNat = (List.range n).countP x.toNat.testBit := by
  have hrec (k : Nat) : x.cpopNatRec k 0 = (List.range k).countP x.toNat.testBit := by
    induction k with
    | zero => rfl
    | succ k ih =>
      rw [List.range_succ, List.countP_append, ← ih, BitVec.cpopNatRec, BitVec.cpopNatRec_eq, List.countP_singleton]
      change _ + (0 + (x.toNat.testBit k).toNat) = _
      cases x.toNat.testBit k <;> rfl
  rw [BitVec.toNat_cpop, hrec]

lemma toInt_eq_zero_iff : y.toInt = 0 ↔ y = 0 := by
  rw [← BitVec.toInt_inj]
  simp

lemma divS_eq_iff (hn : 0 < n) : (if y = 0 then none else some (x.sdiv y).toNat) = divS n x.toNat y.toNat ↔
    ¬ (x = BitVec.intMin n ∧ y = -1#n) := by
  rw [divS, toSigned_toNat, toSigned_toNat]
  by_cases hy : y = 0
  · have hpos : n ≠ 0 := hn.ne'
    simp [hy, hpos]
  by_cases hover : x = BitVec.intMin n ∧ y = -1#n
  · have hquotient : x.toInt.tdiv y.toInt = 2 ^ (n - 1) := by
      rw [hover.1, hover.2, BitVec.neg_one_eq_allOnes, BitVec.toInt_allOnes, if_pos hn, BitVec.toInt_intMin_of_pos hn]
      simp
    rw [if_neg hy, if_pos (Or.inr hquotient)]
    exact ⟨fun h => absurd h (by simp), fun h => absurd hover h⟩
  · have hdiv : (x.sdiv y).toInt = x.toInt.tdiv y.toInt := BitVec.toInt_sdiv_of_ne_or_ne x y (by tauto)
    have hlt := BitVec.toInt_lt (x := x.sdiv y)
    rw [hdiv] at hlt
    have hdefined : ¬ (y.toInt = 0 ∨ x.toInt.tdiv y.toInt = 2 ^ (n - 1)) := by
      rw [toInt_eq_zero_iff]
      exact not_or.mpr ⟨hy, by omega⟩
    rw [if_neg hy, if_neg hdefined, ← hdiv, ofSigned_toInt]
    simp [hover]

lemma toNat_sub' : (x - y).toNat = (x.toNat + 2 ^ n - y.toNat) % 2 ^ n := by
  rw [BitVec.toNat_sub]
  congr 1
  omega

lemma remS_eq : (if y = 0 then none else some (x.srem y).toNat) = remS n x.toNat y.toNat := by
  rw [remS, toSigned_toNat, toSigned_toNat, ← BitVec.toInt_srem, ofSigned_toInt]
  simp only [toInt_eq_zero_iff]

lemma toNat_sshiftRight (k : Nat) : (x.sshiftRight k).toNat = ofSigned n (toSigned n x.toNat >>> k) := by
  rw [toSigned_toNat, ← BitVec.toInt_sshiftRight, ofSigned_toInt]

lemma toNat_signExtend_mod {m r : Nat} (x : BitVec m) (hr : m ≤ r) (h64 : r ≤ 64) :
    (x.signExtend 64).toNat % 2 ^ r = ofSigned r x.toInt := by
  have hcut : (x.signExtend 64).setWidth r = x.signExtend r := by
    refine BitVec.eq_of_getLsbD_eq fun i hi => ?_
    rw [BitVec.getLsbD_setWidth, BitVec.getLsbD_signExtend, BitVec.getLsbD_signExtend]
    simp [hi, hi.trans_le h64]
  rw [← BitVec.toInt_signExtend_of_le hr, ofSigned_toInt, ← hcut, BitVec.toNat_setWidth]

end Words

/-- The instruction computes what the operator says from the operands `a` and `b`, of which `b` is on top. -/
def Spec.Oper.Agrees (a b : Value) : Oper → Instr → Prop
  | .unary n r f, .unary g => (g b).toNat % 2 ^ r = f (b.toNat % 2 ^ n)
  | .binary n r f, .binary g =>
    (g a b).toOption.map (fun v => v.toNat % 2 ^ r) = f (a.toNat % 2 ^ n) (b.toNat % 2 ^ n)
  | _, _ => False

def Overflows (op : Nat) (a b : Value) : Prop :=
  op = 0x6D ∧ lo a = BitVec.intMin 32 ∧ lo b = -1 ∨ op = 0x7F ∧ a = BitVec.intMin 64 ∧ b = -1

section Families

variable {a b : Value} {i : Instr} {e : Nat × Oper}

lemma toNat_ofBool (c : Bool) : (ofBool c).toNat % 2 ^ 32 = c.toNat := by
  cases c <;> rfl

lemma toNat_ofU32 (x : BitVec 32) : (ofU32 x).toNat % 2 ^ 32 = x.toNat := by
  simp only [ofU32, BitVec.toNat_setWidth]
  omega

lemma toNat_ofS32 (x : BitVec 32) : (ofS32 x).toNat % 2 ^ 32 = x.toNat := by
  rw [ofS32, toNat_signExtend_mod x le_rfl (by decide), ofSigned_toInt]

/-- How the instructions of one width read their operands, and how they make values of unsigned and of
signed results. -/
structure Reading (n : Nat) where
  low : Value → BitVec n
  unsigned : BitVec n → Value
  signed : BitVec n → Value
  toNat_low : ∀ v, (low v).toNat = v.toNat % 2 ^ n
  toNat_unsigned : ∀ x, (unsigned x).toNat % 2 ^ n = x.toNat
  toNat_signed : ∀ x, (signed x).toNat % 2 ^ n = x.toNat
  count : ∀ v, (lo v).toNat % n = v.toNat % 2 ^ n % n

def reading32 : Reading 32 := ⟨lo, ofU32, ofS32, fun _ => rfl, toNat_ofU32, toNat_ofS32, fun _ => rfl⟩

def reading64 : Reading 64 :=
  ⟨id, id, id, fun v => (Nat.mod_eq_of_lt v.isLt).symm, fun x => Nat.mod_eq_of_lt x.isLt,
    fun x => Nat.mod_eq_of_lt x.isLt, fun v => by simp only [lo, BitVec.toNat_setWidth]; omega⟩

namespace Reading

variable {n : Nat} (w : Reading n)

def cmp (f : BitVec n → BitVec n → Bool) : Instr := .binary fun a b => .ok (ofBool (f (w.low a) (w.low b)))

def num (f : BitVec n → BitVec n → BitVec n) : Instr := .binary fun a b => .ok (w.unsigned (f (w.low a) (w.low b)))

def div (convert : BitVec n → Value) (f : BitVec n → BitVec n → BitVec n) : Instr :=
  .binary fun a b => if w.low b = 0 then .error .divisionByZero else .ok (convert (f (w.low a) (w.low b)))

def comparisons : List Instr :=
  [.unary fun a => ofBool (w.low a == 0), w.cmp fun x y => x == y, w.cmp fun x y => x != y, w.cmp BitVec.slt,
    w.cmp BitVec.ult, w.cmp fun x y => y.slt x, w.cmp fun x y => y.ult x, w.cmp BitVec.sle, w.cmp BitVec.ule,
    w.cmp fun x y => y.sle x, w.cmp fun x y => y.ule x]

def arithmetic : List Instr :=
  [.unary fun a => w.unsigned (w.low a).clz, .unary fun a => w.unsigned (w.low a).ctz,
    .unary fun a => w.unsigned (w.low a).cpop, w.num (· + ·), w.num (· - ·), w.num (· * ·),
    w.div w.signed BitVec.sdiv, w.div w.unsigned BitVec.udiv, w.div w.signed BitVec.srem,
    w.div w.unsigned BitVec.umod, w.num (· &&& ·), w.num (· ||| ·), w.num (· ^^^ ·),
    .binary fun a b => .ok (w.unsigned (w.low a <<< ((lo b).toNat % n))),
    .binary fun a b => .ok (w.signed ((w.low a).sshiftRight ((lo b).toNat % n))),
    .binary fun a b => .ok (w.unsigned (w.low a >>> ((lo b).toNat % n))),
    .binary fun a b => .ok (w.unsigned ((w.low a).rotateLeft (lo b).toNat)),
    .binary fun a b => .ok (w.unsigned ((w.low a).rotateRight (lo b).toNat))]

lemma agrees_cmp {f : BitVec n → BitVec n → Bool} {g : Nat → Nat → Bool} (h : ∀ x y, f x y = g x.toNat y.toNat) :
    (Spec.cmp n g).Agrees a b (w.cmp f) := by
  change some ((ofBool (f (w.low a) (w.low b))).toNat % 2 ^ 32) = _
  rw [toNat_ofBool, h, w.toNat_low, w.toNat_low]

lemma agrees_num {f : BitVec n → BitVec n → BitVec n} {g : Nat → Nat → Nat}
    (h : ∀ x y, (f x y).toNat = g x.toNat y.toNat) : (Spec.num n g).Agrees a b (w.num f) := by
  change some ((w.unsigned (f (w.low a) (w.low b))).toNat % 2 ^ n) = _
  rw [w.toNat_unsigned, h, w.toNat_low, w.toNat_low]

lemma agrees_unary {f : BitVec n → BitVec n} {g : Nat → Nat} (h : ∀ x, (f x).toNat = g x.toNat) :
    (Oper.unary n n g).Agrees a b (.unary fun v => w.unsigned (f (w.low v))) := by
  change (w.unsigned (f (w.low b))).toNat % 2 ^ n = _
  rw [w.toNat_unsigned, h, w.toNat_low]

lemma agrees_shift {convert : BitVec n → Value} {f : BitVec n → Nat → BitVec n} {g : Nat → Nat → Nat}
    (hconvert : ∀ x, (convert x).toNat % 2 ^ n = x.toNat) (h : ∀ x v, (f x (lo v).toNat).toNat = g x.toNat (v.toNat % 2 ^ n)) :
    (Spec.num n g).Agrees a b (.binary fun a b => .ok (convert (f (w.low a) (lo b).toNat))) := by
  change some ((convert (f (w.low a) (lo b).toNat)).toNat % 2 ^ n) = _
  rw [hconvert, h, w.toNat_low]

lemma agrees_div {convert : BitVec n → Value} {f : BitVec n → BitVec n → BitVec n} {g : Nat → Nat → Option Nat}
    (hconvert : ∀ x, (convert x).toNat % 2 ^ n = x.toNat) :
    (Oper.binary n n g).Agrees a b (w.div convert f) ↔
      (if w.low b = 0 then none else some (f (w.low a) (w.low b)).toNat) = g (w.low a).toNat (w.low b).toNat := by
  rw [w.toNat_low, w.toNat_low]
  change Option.map _ (Except.toOption (if w.low b = 0 then _ else _)) = _ ↔ _
  split_ifs
  · rfl
  · simp only [Except.toOption, Option.map_some, hconvert]

lemma comparisons_agree : List.Forall₂ (fun o i => o.Agrees a b i) (Spec.comparisons n) w.comparisons := by
  refine .cons ?_ (.cons (w.agrees_cmp ?_) (.cons (w.agrees_cmp ?_) (.cons (w.agrees_cmp ?_) (.cons (w.agrees_cmp ?_)
    (.cons (w.agrees_cmp ?_) (.cons (w.agrees_cmp ?_) (.cons (w.agrees_cmp ?_) (.cons (w.agrees_cmp ?_)
    (.cons (w.agrees_cmp ?_) (.cons (w.agrees_cmp ?_) .nil))))))))))
  · change (ofBool (w.low b == 0)).toNat % 2 ^ 32 = _
    rw [toNat_ofBool, ← w.toNat_low]
    simp [beq_eq_decide, ← BitVec.toNat_inj]
  all_goals
    intro x y
    simp [toSigned_toNat, BitVec.toNat_inj, BitVec.slt_eq_decide, BitVec.sle_eq_decide, BitVec.ult, BitVec.ule,
      beq_eq_decide, bne]

lemma arithmetic_agree (hn : 0 < n) :
    List.Forall₂ (fun o i => o.Agrees a b i) ((Spec.arithmetic n).eraseIdx 6) (w.arithmetic.eraseIdx 6) := by
  refine .cons (w.agrees_unary fun x => toNat_clz x hn) (.cons (w.agrees_unary toNat_ctz) (.cons (w.agrees_unary toNat_cpop)
    (.cons (w.agrees_num BitVec.toNat_add) (.cons (w.agrees_num toNat_sub') (.cons (w.agrees_num BitVec.toNat_mul)
    (.cons ((w.agrees_div w.toNat_unsigned).mpr ?_) (.cons ((w.agrees_div w.toNat_signed).mpr (remS_eq _ _))
    (.cons ((w.agrees_div w.toNat_unsigned).mpr ?_) (.cons (w.agrees_num BitVec.toNat_and)
    (.cons (w.agrees_num BitVec.toNat_or) (.cons (w.agrees_num BitVec.toNat_xor)
    (.cons (w.agrees_shift w.toNat_unsigned (f := fun x k => x <<< (k % n)) fun x v => ?_)
    (.cons (w.agrees_shift w.toNat_signed (f := fun x k => x.sshiftRight (k % n)) fun x v => ?_)
    (.cons (w.agrees_shift w.toNat_unsigned (f := fun x k => x >>> (k % n)) fun x v => ?_)
    (.cons (w.agrees_shift w.toNat_unsigned fun x v => ?_) (.cons (w.agrees_shift w.toNat_unsigned fun x v => ?_)
    .nil))))))))))))))))
  · simp [← BitVec.toNat_inj]
  · simp [← BitVec.toNat_inj]
  · rw [BitVec.toNat_shiftLeft, w.count]
  · rw [toNat_sshiftRight, w.count]
  · rw [BitVec.toNat_ushiftRight, w.count]
  · rw [BitVec.toNat_rotateLeft, w.count]
  · rw [BitVec.toNat_rotateRight, w.count]

end Reading

lemma agrees_extend {m n r : Nat} (hi : i = .unary (signed m)) (hn : m ≤ n) (hr : m ≤ r) (h64 : r ≤ 64) :
    (Oper.unary n r (extend m r)).Agrees a b i := by
  subst hi
  change (signed m b).toNat % 2 ^ r = ofSigned r (toSigned m (b.toNat % 2 ^ n % 2 ^ m))
  rw [signed, toNat_signExtend_mod _ hr h64, Nat.mod_mod_of_dvd _ (Nat.pow_dvd_pow 2 hn), ← toSigned_toNat,
    BitVec.toNat_setWidth]

lemma conversions_agree (he : e ∈ conversions) : e.2.Agrees a b (.ofOpcode (.ofNat e.1)) := by
  revert e
  simp only [conversions, List.forall_mem_cons]
  refine ⟨?_, agrees_extend rfl (by decide) (by decide) (by decide), ?_, agrees_extend rfl (by decide) (by decide)
    (by decide), agrees_extend rfl (by decide) (by decide) (by decide), agrees_extend rfl (by decide) (by decide)
    (by decide), agrees_extend rfl (by decide) (by decide) (by decide),
    agrees_extend rfl (by decide) (by decide) (by decide), nofun⟩
  · change (ofU32 (lo b)).toNat % 2 ^ 32 = b.toNat % 2 ^ 64 % 2 ^ 32
    rw [toNat_ofU32, Nat.mod_eq_of_lt b.isLt]
    rfl
  · change (ofU32 (lo b)).toNat % 2 ^ 64 = b.toNat % 2 ^ 32
    simp only [ofU32, lo, BitVec.toNat_setWidth]
    omega

lemma of_mem_numbered (is : List Instr) {first : Nat} {os : List Oper} (he : e ∈ numbered first os)
    (his : (List.range os.length).map (fun k => Instr.ofOpcode (.ofNat (first + k))) = is) :
    ∃ k, e.1 = first + k ∧ k < os.length ∧ os[k]? = some e.2 ∧ is[k]? = some (.ofOpcode (.ofNat e.1)) := by
  obtain ⟨k, hk, rfl⟩ := List.mem_mapIdx.mp he
  exact ⟨k, rfl, hk, List.getElem?_eq_getElem hk, by simp [← his, hk]⟩

lemma agrees_of_forall₂ {os : List Oper} {is : List Instr} (h : List.Forall₂ (fun o i => o.Agrees a b i) os is) {k : Nat}
    {o : Oper} (ho : os[k]? = some o) (hi : is[k]? = some i) : o.Agrees a b i := by
  obtain ⟨hk, rfl⟩ := List.getElem?_eq_some_iff.mp ho
  obtain ⟨hk', rfl⟩ := List.getElem?_eq_some_iff.mp hi
  exact h.get hk hk'

lemma arithmetic_agrees_iff {n k : Nat} (w : Reading n) (hn : 0 < n) {o : Oper} (ho : (arithmetic n)[k]? = some o)
    (hi : w.arithmetic[k]? = some i) :
    o.Agrees a b i ↔ ¬ (k = 6 ∧ w.low a = BitVec.intMin n ∧ w.low b = -1#n) := by
  rcases lt_trichotomy k 6 with hk | rfl | hk
  · have hagrees : o.Agrees a b i := agrees_of_forall₂ (w.arithmetic_agree hn)
      ((List.getElem?_eraseIdx_of_lt hk).trans ho) ((List.getElem?_eraseIdx_of_lt hk).trans hi)
    exact ⟨fun _ h => hk.ne h.1, fun _ => hagrees⟩
  · obtain rfl : .binary n n (divS n) = o := Option.some.inj ho
    obtain rfl : w.div w.signed BitVec.sdiv = i := Option.some.inj hi
    rw [w.agrees_div w.toNat_signed, divS_eq_iff _ _ hn]
    simp
  · obtain ⟨k, rfl⟩ : ∃ j, k = j + 1 := ⟨k - 1, by omega⟩
    have hagrees : o.Agrees a b i := agrees_of_forall₂ (w.arithmetic_agree hn)
      ((List.getElem?_eraseIdx_of_ge (by omega)).trans ho) ((List.getElem?_eraseIdx_of_ge (by omega)).trans hi)
    exact ⟨fun _ h => hk.ne' h.1, fun _ => hagrees⟩

lemma agrees_iff (he : e ∈ operators) : e.2.Agrees a b (.ofOpcode (.ofNat e.1)) ↔ ¬ Overflows e.1 a b := by
  have hplain (h6D : e.1 ≠ 0x6D) (h7F : e.1 ≠ 0x7F) (h : e.2.Agrees a b (.ofOpcode (.ofNat e.1))) :
      e.2.Agrees a b (.ofOpcode (.ofNat e.1)) ↔ ¬ Overflows e.1 a b :=
    ⟨fun _ hover => hover.elim (fun h => h6D h.1) fun h => h7F h.1, fun _ => h⟩
  simp only [operators, List.mem_append] at he
  rcases he with (((he | he) | he) | he) | he
  · obtain ⟨k, hop, hk, ho, hi⟩ := of_mem_numbered reading32.comparisons he rfl
    change k < 11 at hk
    exact hplain (by omega) (by omega) (agrees_of_forall₂ reading32.comparisons_agree ho hi)
  · obtain ⟨k, hop, hk, ho, hi⟩ := of_mem_numbered reading64.comparisons he rfl
    change k < 11 at hk
    exact hplain (by omega) (by omega) (agrees_of_forall₂ reading64.comparisons_agree ho hi)
  · obtain ⟨k, hop, hk, ho, hi⟩ := of_mem_numbered reading32.arithmetic he rfl
    change k < 18 at hk
    have h6 : k = 6 ↔ e.1 = 0x6D := by omega
    have h7F : e.1 ≠ 0x7F := by omega
    rw [arithmetic_agrees_iff reading32 (by decide) ho hi, h6]
    simp [Overflows, h7F, reading32]
  · obtain ⟨k, hop, hk, ho, hi⟩ := of_mem_numbered reading64.arithmetic he rfl
    change k < 18 at hk
    have h6 : k = 6 ↔ e.1 = 0x7F := by omega
    have h6D : e.1 ≠ 0x6D := by omega
    rw [arithmetic_agrees_iff reading64 (by decide) ho hi, h6]
    simp [Overflows, h6D, reading64]
  · have hop : 0xA7 ≤ e.1 := (by decide : ∀ e ∈ conversions, 0xA7 ≤ e.1) e he
    exact hplain (by omega) (by omega) (conversions_agree he)

end Families

namespace Spec.Oper

def arity : Oper → Nat
  | unary .. => 1
  | binary .. => 2

def width : Oper → Nat
  | unary _ r _ => r
  | binary _ r _ => r

/-- The number that the operator gives for the topmost values, if it is defined for them. -/
def eval : Oper → List Value → Option Nat
  | unary n _ f, b :: _ => some (f (b.toNat % 2 ^ n))
  | binary n _ f, b :: a :: _ => f (a.toNat % 2 ^ n) (b.toNat % 2 ^ n)
  | _, _ => none

end Spec.Oper

section Steps

variable {η : Type} (m : WasmModule) (funcIdx baseSp : Nat) {code : Bytes} {c : Cursor} {s : Machine η} {op : UInt8}
variable {rest : List Value}

lemma pop_eq {b : Value} (hs : s.stack = b :: rest) : pop s = .ok (b, { s with stack := rest }) := by
  rw [pop, get_bind_apply, hs]
  rfl

lemma push_eq {v : Value} (hroom : s.stack.length < maxStackDepth) :
    push v s = .ok ((), { s with stack := v :: s.stack, trace := .depth (s.stack.length + 1) :: s.trace }) := by
  rw [push, get_bind_apply, if_neg (by omega)]
  rfl

def stackAfter (code : Bytes) (c : Cursor) (s : Machine η) : Option (List Value) :=
  (stepOnce m code funcIdx baseSp c s).toOption.map fun r => r.2.stack

lemma stackAfter_unary {g : Value → Value} {b : Value} (hop : code[c.pc]? = some op)
    (hi : Instr.ofOpcode op = .unary g) (hs : s.stack = b :: rest) (hroom : rest.length < maxStackDepth) :
    stackAfter m funcIdx baseSp code c s = some (g b :: rest) := by
  rw [stackAfter, stepOnce, hop]
  dsimp only
  rw [hi]
  dsimp only [execInstr]
  simp only [bind_assoc]
  rw [bind_of_ok (pop_eq hs), bind_of_ok (push_eq hroom)]
  rfl

lemma stackAfter_binary {g : Value → Value → Except WasmError Value} {a b : Value}
    (hop : code[c.pc]? = some op) (hi : Instr.ofOpcode op = .binary g) (hs : s.stack = b :: a :: rest)
    (hroom : rest.length < maxStackDepth) :
    stackAfter m funcIdx baseSp code c s = (g a b).toOption.map (· :: rest) := by
  rw [stackAfter, stepOnce, hop]
  dsimp only
  rw [hi]
  dsimp only [execInstr, pop2]
  simp only [bind_assoc, pure_bind]
  rw [bind_of_ok (pop_eq hs), bind_of_ok (pop_eq rfl)]
  cases g a b with
  | error e => rfl
  | ok v =>
    dsimp only
    simp only [bind_assoc]
    rw [bind_of_ok (push_eq hroom)]
    rfl

variable (code c s)

/-- The next instruction pushes a value with the operator's result in its low bits, or it traps where the
operator is undefined. -/
def Follows (o : Oper) : Prop :=
  (stackAfter m funcIdx baseSp code c s).map (fun vs => (vs.head?.map fun v => v.toNat % 2 ^ o.width, vs.tail)) =
    (o.eval s.stack).map fun i => (some i, s.stack.drop o.arity)

variable {code c s}

/-- Every integer instruction does what its operator says, except for the overflow of a signed division. -/
theorem integer_instruction_iff {o : Oper} (hop : code[c.pc]? = some op) (ho : (op.toNat, o) ∈ operators)
    (hargs : o.arity ≤ s.stack.length) (hroom : s.stack.length ≤ maxStackDepth) :
    Follows m funcIdx baseSp code c s o ↔ ∀ a b rest, s.stack = b :: a :: rest → ¬ Overflows op.toNat a b := by
  have hagrees (a b : Value) : o.Agrees a b (.ofOpcode op) ↔ ¬ Overflows op.toNat a b := by
    have h := agrees_iff ho (a := a) (b := b)
    rwa [UInt8.ofNat_toNat] at h
  have hzero (b : Value) : o.Agrees 0 b (.ofOpcode op) :=
    (hagrees 0 b).mpr (by rintro (⟨-, h, -⟩ | ⟨-, h, -⟩) <;> exact absurd h (by decide))
  rcases o with ⟨n, r, f⟩ | ⟨n, r, f⟩
  · obtain ⟨g, hg⟩ : ∃ g, Instr.ofOpcode op = .unary g := by
      have h := hzero 0
      revert h
      cases Instr.ofOpcode op <;> simp [Oper.Agrees]
    -- the lower operand does not matter
    have hall (a b : Value) : ¬ Overflows op.toNat a b := by
      have hb := hzero b
      rw [← hagrees, hg]
      rwa [hg] at hb
    rcases hs : s.stack with _ | ⟨b, rest⟩
    · simp [hs, Oper.arity] at hargs
    · have hb := hzero b
      rw [hg] at hb
      rw [hs] at hroom
      refine iff_of_true ?_ fun a b _ _ => hall a b
      rw [Follows, stackAfter_unary m funcIdx baseSp hop hg hs hroom, hs]
      exact congrArg (fun i => some (some i, rest)) hb
  · obtain ⟨g, hg⟩ : ∃ g, Instr.ofOpcode op = .binary g := by
      have h := hzero 0
      revert h
      cases Instr.ofOpcode op <;> simp [Oper.Agrees]
    rcases hs : s.stack with _ | ⟨b, _ | ⟨a, rest⟩⟩
    · simp [hs, Oper.arity] at hargs
    · simp [hs, Oper.arity] at hargs
    · rw [hs] at hroom
      have hall : (∀ a' b' rest', b :: a :: rest = b' :: a' :: rest' → ¬ Overflows op.toNat a' b') ↔
          ¬ Overflows op.toNat a b := by
        refine ⟨fun h => h a b rest rfl, fun h a' b' rest' hcons => ?_⟩
        obtain ⟨rfl, rfl, -⟩ : b = b' ∧ a = a' ∧ rest = rest' := by simpa using hcons
        exact h
      have hinj : Function.Injective fun i : Nat => (some i, rest) := fun i j h => Option.some.inj (Prod.mk.inj h).1
      rw [Follows, stackAfter_binary m funcIdx baseSp hop hg hs (Nat.lt_of_succ_lt hroom), hs, hall, ← hagrees, hg,
        Option.map_map]
      refine Iff.trans ?_ (Option.map_injective hinj).eq_iff
      rw [Option.map_map]
      rfl

def operands (a b : Value) : Machine Unit := ⟨⟨0, 1, 1⟩, [], [], [b, a], fun _ => 0, (), []⟩

theorem integer_instruction_iff_div : Follows {} 0 0 [0x6D] ⟨0, [], []⟩ (operands 7 2) (.binary 32 32 (divS 32)) :=
  (integer_instruction_iff {} 0 0 rfl (by simp [operators, numbered, arithmetic]) (by decide) (by decide)).mpr <| by
    rintro a b rest hs (⟨-, ha, -⟩ | ⟨hop, -⟩)
    · obtain ⟨rfl, rfl, -⟩ : (2 : Value) = b ∧ (7 : Value) = a ∧ [] = rest := by simpa [operands] using hs
      exact absurd ha (by decide)
    · exact absurd hop (by decide)

/-- The least number divided by -1: the division does not trap but gives the least number back. -/
theorem div_min_by_minus_one : divS 32 0x80000000 0xFFFFFFFF = none ∧
    stackAfter {} 0 0 [0x6D] ⟨0, [], []⟩ (operands 0x80000000 0xFFFFFFFF) = some [0xFFFFFFFF80000000] := by
  decide +kernel

end Steps

end Aeglos.Wasm
