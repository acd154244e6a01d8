import Aeglos.Proofs.DnsAnswers

/-!
# Responses as name servers write them

A name in a message is a list of labels that ends with a zero byte or with a pointer to an earlier
name.
-/

namespace Aeglos.Net

open Effects Slices List Option

section Places

variable {data a b : Bytes} {off : Nat}

def Lies (data : Bytes) (off : Nat) (bytes : Bytes) : Prop := bytes <+: data.drop off

lemma lies_append : Lies data off (a ++ b) ↔ Lies data off a ∧ Lies data (off + a.length) b := by
  unfold Lies
  rw [← drop_drop]
  constructor
  · rintro ⟨rest, h⟩
    rw [← h, append_assoc, drop_left]
    exact ⟨prefix_append _ _, prefix_append _ _⟩
  · rintro ⟨⟨rest, h⟩, hb⟩
    rw [← h, drop_left] at hb
    rw [← h]
    exact prefix_append_right_inj a |>.mpr hb

lemma Lies.getElem? {x : UInt8} (h : Lies data off (x :: a)) : data[off]? = some x := by
  obtain ⟨rest, h⟩ := h
  rw [← List.head?_drop, ← h]
  rfl

lemma Lies.length_le (h : Lies data off a) : a.length ≤ data.length - off := by
  rw [← length_drop]
  exact List.IsPrefix.length_le h

lemma Lies.take_eq (h : Lies data off a) : (data.drop off).take a.length = a := (prefix_iff_eq_take.mp h).symm

lemma Lies.be16_eq {v : Nat} (h : Lies data off (toBe v 2)) (hv : v < 65536) : be16 data off = some v := by
  rw [toBe_two] at h
  have hfirst : data[off]? = some (UInt8.ofNat (v / 256)) := h.getElem?
  have hsecond : data[off + 1]? = some (UInt8.ofNat v) :=
    Lies.getElem? (a := []) (lies_append (a := [UInt8.ofNat (v / 256)]) (b := [UInt8.ofNat v]) |>.mp h).2
  rw [be16, hfirst, hsecond]
  simp only [Option.bind_eq_bind, Option.bind_some, Option.pure_def, UInt8.toNat_ofNat']
  congr 1
  omega

end Places

section Names

variable {data : Bytes} {off turns : Nat}

structure Name where
  labels : List Bytes
  pointer : Option (Fin 0x4000)
  sizes : ∀ l ∈ labels, 1 ≤ l.length ∧ l.length ≤ 63

def ending : Option (Fin 0x4000) → Bytes
  | none => [0]
  | some p => toBe (0xC000 + p) 2

def Name.Mixed (n : Name) : Prop := n.labels ≠ [] ∧ n.pointer.isSome

instance (n : Name) : Decidable n.Mixed := inferInstanceAs (Decidable (_ ∧ _))

lemma label_byte {l : Bytes} (h : 1 ≤ l.length ∧ l.length ≤ 63) :
    (UInt8.ofNat l.length).toNat = l.length ∧ UInt8.ofNat l.length ≠ 0 ∧ ¬ UInt8.ofNat l.length ≥ 0xC0 := by
  have hnat : (UInt8.ofNat l.length).toNat = l.length := by
    rw [UInt8.toNat_ofNat']
    omega
  refine ⟨hnat, fun hzero => ?_, fun hge => ?_⟩
  · rw [hzero] at hnat
    exact absurd hnat (by simp; omega)
  · have hge := UInt8.le_iff_toNat_le.mp hge
    rw [hnat] at hge
    exact absurd hge (by simp; omega)

lemma pointer_byte (p : Fin 0x4000) : ∃ x y, ending (some p) = [x, y] ∧ x ≠ 0 ∧ x ≥ 0xC0 := by
  have hnat : (UInt8.ofNat ((0xC000 + p) / 256)).toNat = (0xC000 + p) / 256 := by
    rw [UInt8.toNat_ofNat']
    omega
  refine ⟨_, _, toBe_two _, fun hzero => ?_, ?_⟩
  · rw [hzero] at hnat
    exact absurd hnat (by simp; omega)
  · rw [ge_iff_le, UInt8.le_iff_toNat_le, hnat]
    simp
    omega

lemma Lies.turn {x : UInt8} {a : Bytes} (h : Lies data off (x :: a)) (hturns : data.length < turns + off) :
    ¬ off ≥ data.length ∧ ∃ k, turns = k + 1 ∧ data.length < k + 1 + off := by
  have hlength := h.length_le
  rw [length_cons] at hlength
  exact ⟨by omega, turns - 1, by omega, by omega⟩

def encodeLabels (labels : List Bytes) : Bytes := labels.flatMap fun l => UInt8.ofNat l.length :: l

def Name.encode (n : Name) : Bytes := encodeLabels n.labels ++ ending n.pointer

lemma skipQuestionName_eq {labels : List Bytes} {pointer : Option (Fin 0x4000)}
    (hsizes : ∀ l ∈ labels, 1 ≤ l.length ∧ l.length ≤ 63) (h : Lies data off (encodeLabels labels ++ ending pointer))
    (hturns : data.length < turns + off) :
    skipQuestionName data turns off = some (some (off + (encodeLabels labels ++ ending pointer).length)) := by
  induction labels generalizing off turns with
  | nil =>
    cases pointer with
    | none =>
      obtain ⟨hoff, turns, rfl, -⟩ := Lies.turn h hturns
      rw [skipQuestionName, if_neg hoff, h.getElem?]
      rfl
    | some p =>
      obtain ⟨x, y, hend, hx, hge⟩ := pointer_byte p
      rw [hend] at h ⊢
      obtain ⟨hoff, turns, rfl, -⟩ := Lies.turn h hturns
      rw [skipQuestionName, if_neg hoff, h.getElem?, bind_eq_bind, bind_some, if_neg hx, if_pos hge]
      rfl
  | cons l labels ih =>
    obtain ⟨hnat, hne, hlt⟩ := label_byte (hsizes l mem_cons_self)
    rw [encodeLabels, flatMap_cons, append_assoc] at h ⊢
    obtain ⟨hl, hrest⟩ := lies_append.mp h
    obtain ⟨hoff, turns, rfl, hturns⟩ := hl.turn hturns
    rw [length_cons, Nat.add_comm l.length, ← Nat.add_assoc] at hrest
    rw [skipQuestionName, if_neg hoff, hl.getElem?, bind_eq_bind, bind_some, if_neg hne, if_neg hlt, hnat,
      ih (fun l' hl' => hsizes l' (mem_cons_of_mem l hl')) hrest (by omega)]
    simp only [encodeLabels, length_append, length_cons]
    congr 2
    omega

lemma skipAnswerLabels_eq {labels : List Bytes} (hsizes : ∀ l ∈ labels, 1 ≤ l.length ∧ l.length ≤ 63)
    (h : Lies data off (encodeLabels labels ++ [0])) (hturns : data.length < turns + off) :
    skipAnswerLabels data turns off = some (some (off + (encodeLabels labels ++ [0]).length)) := by
  induction labels generalizing off turns with
  | nil =>
    obtain ⟨hoff, turns, rfl, -⟩ := Lies.turn h hturns
    rw [skipAnswerLabels, if_neg hoff, h.getElem?]
    rfl
  | cons l labels ih =>
    obtain ⟨hnat, hne, -⟩ := label_byte (hsizes l mem_cons_self)
    rw [encodeLabels, flatMap_cons, append_assoc] at h ⊢
    obtain ⟨hl, hrest⟩ := lies_append.mp h
    obtain ⟨hoff, turns, rfl, hturns⟩ := hl.turn hturns
    rw [length_cons, Nat.add_comm l.length, ← Nat.add_assoc] at hrest
    rw [skipAnswerLabels, if_neg hoff, hl.getElem?, bind_eq_bind, bind_some, if_neg hne, hnat,
      ih (fun l' hl' => hsizes l' (mem_cons_of_mem l hl')) hrest (by omega)]
    simp only [encodeLabels, length_append, length_cons]
    congr 2
    omega

lemma skipAnswerName_eq {n : Name} (hplain : ¬ n.Mixed) (h : Lies data off n.encode) :
    skipAnswerName data off = some (some (off + n.encode.length)) := by
  obtain ⟨labels, pointer, hsizes⟩ := n
  cases pointer with
  | none =>
    obtain ⟨x, rest, hx, hlt⟩ : ∃ x rest, encodeLabels labels ++ [0] = x :: rest ∧ ¬ x ≥ 0xC0 := by
      cases labels with
      | nil => exact ⟨0, [], rfl, by decide⟩
      | cons l labels => exact ⟨_, _, rfl, (label_byte (hsizes l mem_cons_self)).2.2⟩
    have hfirst : Lies data off (x :: rest) := hx ▸ h
    obtain ⟨hoff, -⟩ := hfirst.turn (by omega : data.length < data.length + 1 + off)
    rw [skipAnswerName, if_neg hoff, hfirst.getElem?, bind_eq_bind, bind_some, if_neg hlt]
    exact skipAnswerLabels_eq hsizes h (by omega)
  | some p =>
    obtain rfl : labels = [] := by
      by_contra hlabels
      exact hplain ⟨hlabels, rfl⟩
    obtain ⟨x, y, hend, -, hge⟩ := pointer_byte p
    rw [Name.encode, hend] at h ⊢
    obtain ⟨hoff, -⟩ := Lies.turn (a := [y]) h (by omega : data.length < data.length + 1 + off)
    rw [skipAnswerName, if_neg hoff, Lies.getElem? (a := [y]) h, bind_eq_bind, bind_some, if_pos hge]
    rfl

end Names

section Sections

variable {data : Bytes} {off : Nat} {found : Option Tcp.IpAddr}

structure Question where
  name : Name
  qtype : Nat
  qclass : Nat

def Question.encode (q : Question) : Bytes := q.name.encode ++ (toBe q.qtype 2 ++ toBe q.qclass 2)

/-- A resource record; the data of an A record is an address. -/
structure Record where
  name : Name
  rtype : Fin 65536
  rclass : Nat
  ttl : Nat
  rdata : Bytes
  size : rdata.length < 65536
  address : rtype.val = 1 → rdata.length = 4

def Record.encode (r : Record) : Bytes :=
  r.name.encode ++ (toBe r.rtype 2 ++ ((toBe r.rclass 2 ++ toBe r.ttl 4) ++ (toBe r.rdata.length 2 ++ r.rdata)))

lemma skipQuestions_eq {qs : List Question} (h : Lies data off (qs.flatMap Question.encode)) :
    skipQuestions data qs.length off = some (some (off + (qs.flatMap Question.encode).length)) := by
  induction qs generalizing off with
  | nil => rfl
  | cons q qs ih =>
    rw [flatMap_cons] at h ⊢
    obtain ⟨hq, hrest⟩ := lies_append.mp h
    have hname : Lies data off q.name.encode := (lies_append.mp hq).1
    rw [length_cons, skipQuestions, skipQuestionName_eq q.name.sizes hname (by omega), bind_eq_bind, bind_some]
    have hnext : off + q.name.encode.length + 4 = off + q.encode.length := by
      simp only [Question.encode, length_append, length_toBe]
      omega
    dsimp only
    rw [← Name.encode, hnext, ih hrest, length_append, Nat.add_assoc]

lemma answers_record {r : Record} (hplain : ¬ r.name.Mixed) (h : Lies data off r.encode) (n : Nat) :
    answers data (n + 1) off found = if r.rtype.val = 1 then some (recordAddr r.rtype r.rdata)
      else answers data n (off + r.encode.length) (found.or (recordAddr r.rtype r.rdata)) := by
  obtain ⟨hname, htype, hfixed, hsize, hdata⟩ : Lies data off r.name.encode ∧
      Lies data (off + r.name.encode.length) (toBe r.rtype 2) ∧
      Lies data (off + r.name.encode.length + 2) (toBe r.rclass 2 ++ toBe r.ttl 4) ∧
      Lies data (off + r.name.encode.length + 8) (toBe r.rdata.length 2) ∧
      Lies data (off + r.name.encode.length + 10) r.rdata := by
    simpa only [Record.encode, lies_append, length_toBe, length_append, Nat.add_assoc] using h
  have hend := h.length_le
  have hlength : r.encode.length = r.name.encode.length + 10 + r.rdata.length := by
    simp only [Record.encode, length_append, length_toBe]
    omega
  set next := off + r.name.encode.length with hnext
  rw [hlength, answers, skipAnswerName_eq hplain hname, ← hnext]
  simp only [bind_eq_bind, bind_some]
  rw [if_neg (by omega), htype.be16_eq r.rtype.isLt, hsize.be16_eq r.size]
  simp only [bind_some]
  rw [if_neg (by omega), slice_eq_some (by omega) (by omega), Nat.add_sub_cancel_left, hdata.take_eq, bind_some]
  by_cases ha : r.rtype.val = 1
  · have hfour := r.address ha
    rw [if_pos ⟨ha, hfour⟩, if_pos ha, recordAddr, if_pos ⟨ha, hfour⟩, array4, arrayOf_eq hfour.ge]
    rfl
  have hplace : next + 10 + r.rdata.length = off + (r.name.encode.length + 10 + r.rdata.length) := by omega
  have hother : ¬ (r.rtype.val = 1 ∧ r.rdata.length = 4) := fun h => ha h.1
  rw [if_neg hother, if_neg ha, recordAddr, if_neg hother, hplace]
  by_cases haaaa : r.rtype.val = 28 ∧ r.rdata.length = 16
  · rw [if_pos haaaa, array16, arrayOf_eq haaaa.2.ge]
    cases found with
    | none =>
      rw [if_pos ⟨haaaa.1, haaaa.2, rfl⟩]
      rfl
    | some addr =>
      rw [if_neg (by simp)]
      rfl
  · rw [if_neg haaaa, if_neg (fun h => haaaa ⟨h.1, h.2.1⟩), or_none]

def Record.Ordinary (r : Record) : Prop := r.rtype.val ≠ 1 ∧ ¬ r.name.Mixed

instance (r : Record) : Decidable r.Ordinary := inferInstanceAs (Decidable (_ ∧ _))

def known (found : Option Tcp.IpAddr) (rs : List Record) : Option Tcp.IpAddr :=
  rs.foldl (fun found r => found.or (recordAddr r.rtype r.rdata)) found

lemma answers_ordinary {rs : List Record} (hrs : ∀ r ∈ rs, r.Ordinary) (h : Lies data off (rs.flatMap Record.encode))
    (n : Nat) : answers data (rs.length + n) off found =
      answers data n (off + (rs.flatMap Record.encode).length) (known found rs) := by
  induction rs generalizing off found with
  | nil => rw [length_nil, Nat.zero_add]; rfl
  | cons r rs ih =>
    rw [flatMap_cons] at h ⊢
    obtain ⟨hr, hrest⟩ := lies_append.mp h
    obtain ⟨htype, hplain⟩ := hrs r mem_cons_self
    rw [length_cons, Nat.add_right_comm, answers_record hplain hr, if_neg htype,
      ih (fun r' hr' => hrs r' (mem_cons_of_mem r hr')) hrest, length_append, Nat.add_assoc]
    rfl

end Sections

structure DnsResponse where
  txn : Fin 65536
  flags : Fin 65536
  questions : List Question
  answers : List Record
  /-- the counts of the other sections, and their records -/
  counts : Bytes
  others : Bytes
  questions_size : questions.length < 65536
  answers_size : answers.length < 65536
  counts_size : counts.length = 4

namespace DnsResponse

variable {r : DnsResponse} {s : Stack}

def header (r : DnsResponse) : Bytes :=
  toBe r.txn 2 ++ (toBe r.flags 2 ++ (toBe r.questions.length 2 ++ (toBe r.answers.length 2 ++ r.counts)))

def encode (r : DnsResponse) : Bytes :=
  r.header ++ (r.questions.flatMap Question.encode ++ (r.answers.flatMap Record.encode ++ r.others))

structure Replies (r : DnsResponse) (s : Stack) : Prop where
  txn : r.txn.val = s.pendingTxn
  response : r.flags.val &&& 0x8000 ≠ 0
  rcode : r.flags.val &&& 0x000F = 0

def firstAddress (r : DnsResponse) : Option Tcp.IpAddr :=
  (r.answers.find? fun a => a.rtype.val = 1).bind fun a => recordAddr a.rtype a.rdata

def lead (r : DnsResponse) : List Record := r.answers.takeWhile fun a => a.Ordinary

def left (r : DnsResponse) : List Record := r.answers.dropWhile fun a => a.Ordinary

def answersAt (r : DnsResponse) : Nat := 12 + (r.questions.flatMap Question.encode).length

/-- Either an A record comes before every mixed name, or what the loop makes of the packet from the
first mixed name on happens to be the right address. -/
def Readable (r : DnsResponse) (s : Stack) : Prop :=
  (∃ a ∈ r.left.head?, ¬ a.name.Mixed) ∨
    Net.answers r.encode r.left.length (r.answersAt + (r.lead.flatMap Record.encode).length) (known s.pendingAddr r.lead) =
      some r.firstAddress

lemma lies_encode (r : DnsResponse) : Lies r.encode 0 r.header ∧ Lies r.encode 12 (r.questions.flatMap Question.encode) ∧
    Lies r.encode r.answersAt (r.answers.flatMap Record.encode) := by
  have hheader : r.header.length = 12 := by simp [header, r.counts_size]
  have hall : Lies r.encode 0 r.encode := prefix_refl _
  rw [encode, lies_append, lies_append, lies_append, hheader, Nat.zero_add] at hall
  exact ⟨hall.1, hall.2.1, hall.2.2.1⟩

lemma be16_header (r : DnsResponse) : be16 r.encode 0 = some r.txn.val ∧ be16 r.encode 2 = some r.flags.val ∧
    be16 r.encode 4 = some r.questions.length ∧ be16 r.encode 6 = some r.answers.length := by
  have h := r.lies_encode.1
  rw [header, lies_append, lies_append, lies_append, lies_append] at h
  simp only [length_toBe] at h
  exact ⟨h.1.be16_eq r.txn.isLt, h.2.1.be16_eq r.flags.isLt, h.2.2.1.be16_eq r.questions_size,
    h.2.2.2.1.be16_eq r.answers_size⟩

lemma after_handle (h : r.Replies s) (hanswers : r.answers ≠ []) {result : Option Tcp.IpAddr}
    (hresult : Net.answers r.encode r.answers.length r.answersAt s.pendingAddr = some result) :
    after (handleDnsResponse r.encode) s = { s with pendingAddr := result } := by
  obtain ⟨htxn, hflags, hquestions, hcount⟩ := r.be16_header
  have hlength : 12 ≤ r.encode.length := by
    have hheader := r.lies_encode.1.length_le
    simpa [header, r.counts_size] using hheader
  refine outcome_iff_after (P := fun s' => s' = { s with pendingAddr := result }) |>.mp ?_
  rw [handleDnsResponse, if_neg (by omega)]
  simp only [word, htxn, hflags, hquestions, hcount, outcome_bind, outcome_get, outcome_orStop_some]
  rw [if_neg (by simpa using h.txn)]
  simp only [outcome_bind, outcome_orStop_some]
  rw [if_neg h.response, if_neg (by simpa using h.rcode)]
  simp only [outcome_bind, outcome_orStop_some]
  rw [if_neg (by simpa using hanswers), skipQuestions_eq r.lies_encode.2.1, outcome_bind, outcome_orStop_some]
  dsimp only
  rw [← answersAt, hresult, outcome_bind, outcome_orStop_some, outcome_modify]

def aliased (name : Name) : DnsResponse where
  txn := 0
  flags := 0x8180
  questions := [⟨⟨[[97], [98]], none, by decide⟩, 1, 1⟩]
  answers := [⟨⟨[], some 12, by decide⟩, 5, 1, 300, [1, 99, 0xC0, 14], by decide, by decide⟩,
    ⟨name, 1, 1, 300, [192, 0, 2, 1], by decide, by decide⟩]
  counts := [0, 0, 0, 0]
  others := []
  questions_size := by decide
  answers_size := by simp
  counts_size := rfl

end DnsResponse

end Aeglos.Net
