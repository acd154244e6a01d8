import Aeglos.Proofs.TcpCalls

/-!
# The options of a SYN-ACK

The handler takes the length byte of an option, which counts all of it, for that of what follows.
-/

namespace Aeglos.Tcp

open Effects List

inductive TcpOption where
  | nop
  | mss (value : BitVec 16)
  | other (kind : UInt8) (value : Bytes)

namespace TcpOption

def WellFormed : TcpOption → Prop
  | .other kind value => kind ≠ 0 ∧ kind ≠ 1 ∧ kind ≠ 2 ∧ value.length + 2 < 256
  | _ => True

def isOther : TcpOption → Bool
  | .other _ _ => true
  | _ => false

def bytes : TcpOption → Bytes
  | .nop => [1]
  | .mss value => [2, 4, UInt8.ofNat (value.toNat / 256), UInt8.ofNat value.toNat]
  | .other kind value => kind :: UInt8.ofNat (value.length + 2) :: value

def size? : TcpOption → Option Nat
  | .mss value => some value.toNat
  | _ => none

end TcpOption

/-- The bytes of the options, up to the end or to an end-of-list byte with padding behind it. -/
def optionBytes (os : List TcpOption) (padding : Option Bytes) : Bytes :=
  os.flatMap TcpOption.bytes ++ (padding.map (0 :: ·)).getD []

/-- The segment size that the options name, or `mss`. -/
def namedMss (mss : Nat) (os : List TcpOption) : Nat := ((os.filterMap TcpOption.size?).head?).getD mss

section Loop

variable {turns mss : Nat} {bs : Bytes}

lemma optionMss_turns {turns' : Nat} (h : bs.length ≤ turns) (h' : bs.length ≤ turns') :
    optionMss turns mss bs = optionMss turns' mss bs := by
  induction turns generalizing turns' mss bs with
  | zero =>
    obtain rfl := eq_nil_of_length_eq_zero (Nat.le_zero.mp h)
    cases turns' <;> rfl
  | succ turns ih =>
    match bs with
    | [] => cases turns' <;> rfl
    | [_] => cases turns' <;> rfl
    | kind :: len :: rest =>
      simp only [length_cons] at h h'
      obtain ⟨turns', rfl⟩ : ∃ t, turns' = t + 1 := ⟨turns' - 1, by omega⟩
      have hrest : ∀ n m, optionMss turns m (rest.drop n) = optionMss turns' m (rest.drop n) := fun n m =>
        ih (by simp; omega) (by simp; omega)
      have hnop : optionMss turns mss (len :: rest) = optionMss turns' mss (len :: rest) :=
        ih (by simp; omega) (by simp; omega)
      rw [optionMss, optionMss, hrest, hrest, hnop]

def mssOf (mss : Nat) (bs : Bytes) : Nat := optionMss bs.length mss bs

lemma mssOf_end (padding : Bytes) : mssOf mss (0 :: padding) = mss := by
  cases padding with
  | nil => rfl
  | cons b bs => rfl

lemma mssOf_nop : mssOf mss (1 :: bs) = mssOf mss bs := by
  cases bs with
  | nil => rfl
  | cons b bs => rfl

lemma mssOf_mss (value : BitVec 16) : mssOf mss ((TcpOption.mss value).bytes ++ bs) = mssOf value.toNat bs := by
  have hvalue : be16 (UInt8.ofNat (value.toNat / 256) :: UInt8.ofNat value.toNat :: bs) 0 = value.toNat := by
    have hlt := value.isLt
    simp only [be16, getD_cons_zero, getD_cons_succ, UInt8.toNat_ofNat']
    omega
  change optionMss (bs.length + 3 + 1) mss (2 :: 4 :: _) = _
  rw [optionMss, if_neg (by decide), if_neg (by decide), if_pos ⟨rfl, by simp⟩]
  change optionMss (bs.length + 3) (be16 (UInt8.ofNat (value.toNat / 256) :: UInt8.ofNat value.toNat :: bs) 0) bs = _
  rw [hvalue]
  exact optionMss_turns (by omega) le_rfl

lemma mssOf_other {kind : UInt8} {value : Bytes} (h : (TcpOption.other kind value).WellFormed) :
    mssOf mss ((TcpOption.other kind value).bytes ++ bs) = mssOf mss (bs.drop 2) := by
  obtain ⟨hend, hnop, hmss, hlen⟩ := h
  have hskip : (value ++ bs).drop (UInt8.ofNat (value.length + 2)).toNat = bs.drop 2 := by
    rw [UInt8.toNat_ofNat', Nat.mod_eq_of_lt hlen, drop_append]
    simp
  change optionMss ((value ++ bs).length + 1 + 1) mss (kind :: UInt8.ofNat (value.length + 2) :: (value ++ bs)) = _
  rw [optionMss, if_neg hend, if_neg hnop, if_neg fun h => hmss h.1, hskip]
  exact optionMss_turns (by simp; omega) le_rfl

lemma mssOf_known {pre : List TcpOption} (hpre : ∀ o ∈ pre, o.isOther = false)
    (hone : (pre.filterMap TcpOption.size?).length ≤ 1) :
    mssOf mss (pre.flatMap TcpOption.bytes ++ bs) = mssOf (namedMss mss pre) bs := by
  induction pre generalizing mss with
  | nil => rfl
  | cons o pre ih =>
    have hrest := fun mss => @ih mss (fun o ho => hpre o (mem_cons_of_mem _ ho))
    rw [flatMap_cons, append_assoc]
    cases o with
    | nop => exact mssOf_nop.trans (hrest mss hone)
    | mss value =>
      have hnone : pre.filterMap TcpOption.size? = [] :=
        eq_nil_of_length_eq_zero (Nat.le_zero.mp (Nat.le_of_succ_le_succ hone))
      rw [mssOf_mss, hrest _ (by rw [hnone]; exact Nat.zero_le 1), namedMss, hnone]
      rfl
    | other kind value => exact absurd (hpre _ mem_cons_self) Bool.noConfusion

end Loop

lemma onSynSent_mss {env : Env} {s : Slot} {h : Header} (hflags : h.has tcpSyn ∧ h.has tcpAck) (hdoff : 20 ≤ h.doff) :
    (after (onSynSent env h) s).conn.mss = mssOf s.conn.mss h.options := by
  refine outcome_iff_after (P := fun s' : Slot => s'.conn.mss = mssOf s.conn.mss h.options) |>.mp ?_
  rw [onSynSent, if_pos hflags]
  simp only [outcome_bind, outcome_modifyConn, outcome_ite, outcome_stop, outcome_sendSegment, Slot.send_conn]
  exact ⟨fun hlt => absurd hdoff (Nat.not_le.mpr hlt), fun _ => rfl⟩

lemma first_other {os : List TcpOption} (h : ¬∀ o ∈ os, o.isOther = false) :
    ∃ pre kind value rest, os = pre ++ .other kind value :: rest ∧ ∀ o ∈ pre, o.isOther = false := by
  induction os with
  | nil => exact absurd (fun o ho => nomatch ho) h
  | cons o os ih =>
    by_cases ho : o.isOther = false
    · obtain ⟨pre, kind, value, rest, rfl, hpre⟩ := ih fun hall => h (forall_mem_cons.mpr ⟨ho, hall⟩)
      exact ⟨o :: pre, kind, value, rest, rfl, forall_mem_cons.mpr ⟨ho, hpre⟩⟩
    · cases o with
      | other kind value => exact ⟨[], kind, value, os, rfl, fun o ho => nomatch ho⟩
      | _ => exact absurd rfl ho

def synAck (options : Bytes) : Header := ⟨80, 49152, 7, 1001, 28, tcpSyn ||| tcpAck, 0, [], options⟩

end Aeglos.Tcp
