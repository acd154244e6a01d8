import Aeglos.Library.RingBuffer
import Aeglos.Proofs.Rights
import Aeglos.Proofs.RunningTasks

/-!
# Mailboxes

A mailbox is a ring buffer, and over whole runs of the scheduler it is a queue.
-/

namespace Aeglos

def Mailbox.queued (b : Mailbox) : List Message := RingBuffer.contents b.buffer b.head b.count

namespace Proofs

open Sched TransitionSystem RingBuffer Effects Call Option Function

def Queues (b : Mailbox) (xs : List Message) : Prop := HoldsQueue b.buffer b.head b.tail b.count xs

lemma new_queues : Queues .new [] := HoldsQueue.empty ..

lemma push_queues {b b' : Mailbox} {msg : Message} {xs : List Message} (h : Queues b xs)
    (hp : b.push msg = some b') : Queues b' (xs ++ [msg]) := by
  unfold Mailbox.push at hp
  split at hp
  case isTrue => cases hp
  case isFalse hroom =>
    obtain rfl := some.inj hp
    exact HoldsQueue.push h (Nat.not_le.mp hroom) msg

lemma pop_queues {b : Mailbox} {xs : List Message} (h : Queues b xs) :
    b.pop.1 = xs.head? ∧ Queues b.pop.2 xs.tail := by
  unfold Mailbox.pop
  cases xs with
  | nil =>
    have hzero : b.count = 0 := h.length.symm
    rw [if_pos hzero]
    exact ⟨rfl, h⟩
  | cons x xs =>
    have hpos : b.count ≠ 0 := by
      rw [← h.length]
      simp
    rw [if_neg hpos]
    exact ⟨HoldsQueue.front h, HoldsQueue.pop h⟩

lemma sendMessage_cases (s : Sched) (tid : Nat) (msg : Message) :
    s.sendMessage tid msg = (false, s) ∨ ∃ slot t mailbox, s.tasks slot = some t ∧ t.tid = tid ∧
      t.mailbox.push msg = some mailbox ∧
      s.sendMessage tid msg = (true, s.modifyTask slot fun t => wake { t with mailbox := mailbox }) := by
  unfold sendMessage
  split
  case h_1 => exact Or.inl rfl
  case h_2 slot hf =>
    obtain ⟨t, ht, htid⟩ := SlotTable.find_some hf
    rw [ht, bind_some]
    cases hp : t.mailbox.push msg with
    | none => exact Or.inl rfl
    | some mailbox => exact Or.inr ⟨slot, t, mailbox, ht, beq_iff_eq.mp htid, hp, rfl⟩

/-- The messages whose send returned `Ok`, by target, and those received, by receiver. -/
structure MailLog where
  sent : Nat → List Message
  received : Nat → List Message

def MailLog.empty : MailLog := ⟨fun _ => [], fun _ => []⟩

def MailLog.posted (log : MailLog) (tid : Nat) (msg : Message) : MailLog :=
  { log with sent := Function.update log.sent tid (log.sent tid ++ [msg]) }

def MailLog.took (log : MailLog) (tid : Nat) : Option Message → MailLog
  | some msg => { log with received := Function.update log.received tid (log.received tid ++ [msg]) }
  | none => log

def recordMessages (s : Sched) (log : MailLog) : SchedOp → MailLog
  | .sendMessage tid msg => if (s.sendMessage tid msg).1 then log.posted tid msg else log
  | .recvMessage cpu => log.took (s.currentTid cpu) (s.recvMessage cpu).1
  | .tryRecvMessage cpu => log.took (s.currentTid cpu) (s.tryRecvMessage cpu).1
  | _ => log

def messagesLogged : Sched × MailLog → SchedOp → Sched × MailLog := withHistory Sched.step recordMessages

/-- Every mailbox holds what was sent to its owner and not yet received. -/
structure Mailed (p : Sched × MailLog) : Prop where
  tids : Tids p.1
  unsent : ∀ tid, p.1.nextTid ≤ tid → p.2.sent tid = [] ∧ p.2.received tid = []
  fifo : ∀ i t, p.1.tasks i = some t →
    ∃ xs, Queues t.mailbox xs ∧ p.2.received t.tid ++ xs = p.2.sent t.tid

section Steps

variable {s : Sched} {log : MailLog}

lemma Mailed.quiet (h : Mailed (s, log)) {op : SchedOp} (hop : movesMessages op = false) :
    Mailed (s.step op, log) := by
  have htids := h.tids.step op
  have hch := step_change s op
  generalize s.step op = s' at hch htids ⊢
  refine ⟨htids, fun tid hle => h.unsent tid ?_, fun i u hu => ?_⟩
  · cases hch with
    | inPlace _ hnext => exact hnext ▸ hle
    | placed _ _ _ _ _ hnext => exact Nat.le_of_succ_le (hnext.symm.trans_le hle)
    | reaped _ _ _ _ _ _ _ hs => exact (congrArg Sched.nextTid hs) ▸ hle
  · cases hch with
    | inPlace htasks =>
      obtain ⟨t, ht, hedit⟩ := htasks.of_some hu
      rw [hedit.mailbox hop, hedit.tid]
      exact h.fifo i t ht
    | placed slot task _ htasks htid _ _ _ _ hmail =>
      rw [htasks] at hu
      rcases placed_eq_some hu with ⟨-, rfl⟩ | ⟨-, hu⟩
      · obtain ⟨hsent, hreceived⟩ := h.unsent task.tid htid.ge
        rw [hmail, hsent, hreceived]
        exact ⟨[], new_queues, rfl⟩
      · exact h.fifo i u hu
    | reaped _ slot t _ _ _ _ hs =>
      subst hs
      exact h.fifo i u (reap_tasks hu).2

lemma Mailed.send (h : Mailed (s, log)) {slot : Slot} {t : Task} {msg : Message} {mailbox : Mailbox}
    (ht : s.tasks slot = some t) (hpush : t.mailbox.push msg = some mailbox) :
    Mailed (s.modifyTask slot fun t => wake { t with mailbox := mailbox }, log.posted t.tid msg) := by
  have hlt := h.tids.tid_lt slot t ht
  refine ⟨h.tids.inPlace (R := fun t u => u.tid = t.tid) (fun _ _ => id) (fun i u hu => ?_) rfl,
    fun tid hle => ⟨?_, (h.unsent tid hle).2⟩, fun i u hu => ?_⟩
  · obtain ⟨a, ha, htid⟩ := (modifyTask_related s (R := fun t u => u.tid = t.tid) (fun _ => rfl)
      (f := fun t => wake { t with mailbox := mailbox }) (fun _ => rfl) slot).of_some hu
    exact ⟨a, ha, htid⟩
  · have hne : tid ≠ t.tid := Nat.ne_of_gt (Nat.lt_of_lt_of_le hlt hle)
    exact (update_of_ne hne ..).trans (h.unsent tid hle).1
  · change SlotTable.modify s.tasks slot _ i = some u at hu
    by_cases hi : i = slot
    · subst hi
      rw [SlotTable.modify_self, ht] at hu
      obtain rfl := some.inj hu
      obtain ⟨xs, hqueue, hsent⟩ := h.fifo i t ht
      refine ⟨xs ++ [msg], push_queues hqueue hpush, ?_⟩
      change log.received t.tid ++ (xs ++ [msg]) = Function.update log.sent t.tid _ t.tid
      rw [update_self, ← List.append_assoc]
      exact congrArg (· ++ [msg]) hsent
    · rw [SlotTable.modify_of_ne _ hi] at hu
      have hne : u.tid ≠ t.tid := fun heq => hi (h.tids.tid_inj i slot u t hu ht heq)
      have hsent : (log.posted t.tid msg).sent u.tid = log.sent u.tid := update_of_ne hne ..
      rw [hsent]
      exact h.fifo i u hu

lemma Mailed.receive (h : Mailed (s, log)) (cpu : Cpu) {f : Task → Task} (htid : ∀ t, (f t).tid = t.tid)
    (hf : ∀ t, (f t).mailbox = t.mailbox.pop.2) :
    Mailed (s.modifyCurrent cpu f,
      log.took (s.currentTid cpu) ((s.currentTask cpu).bind fun t => t.mailbox.pop.1)) := by
  have honly := modifyCurrent_only s cpu f
  have hrel := modifyCurrent_related s cpu (R := fun t u => u.tid = t.tid) (fun _ => rfl) (f := f) htid
  have hsent : ∀ m, (log.took (s.currentTid cpu) m).sent = log.sent := fun m => by cases m <;> rfl
  -- the log of any TID but the current task's is as before
  have hother : ∀ tid, (∀ t, s.currentTask cpu = some t → t.tid ≠ tid) →
      (log.took (s.currentTid cpu) ((s.currentTask cpu).bind fun t => t.mailbox.pop.1)).received tid =
        log.received tid := by
    intro tid hne
    cases hcur : s.currentTask cpu with
    | none => rfl
    | some t =>
      rw [bind_some]
      have hid : s.currentTid cpu = t.tid := by simp [currentTid, hcur]
      cases t.mailbox.pop.1 with
      | none => rfl
      | some msg => exact update_of_ne (hid ▸ (hne t hcur).symm) ..
  have hcurrent : ∀ {t}, s.currentTask cpu = some t → ∃ i, s.current cpu = some i ∧ s.tasks i = some t :=
    fun hcur => bind_eq_some_iff.mp hcur
  refine ⟨h.tids.inPlace (fun _ _ => id) (fun _ _ hu => hrel.of_some hu) honly.nextTid,
    fun tid hle => ?_, fun i u hu => ?_⟩
  · have hold := h.unsent tid (honly.nextTid ▸ hle)
    refine ⟨by rw [hsent]; exact hold.1, (hother tid fun t hcur heq => ?_).trans hold.2⟩
    obtain ⟨i, -, ht⟩ := hcurrent hcur
    have hlt : t.tid < s.nextTid := h.tids.tid_lt i t ht
    rw [honly.nextTid] at hle
    omega
  · rw [modifyCurrent_tasks] at hu
    split at hu
    case isTrue hi =>
      obtain ⟨t, ht, rfl⟩ := map_eq_some_iff.mp hu
      have hcur : s.currentTask cpu = some t := by rw [currentTask, hi, bind_some, ht]
      have hid : s.currentTid cpu = t.tid := by simp [currentTid, hcur]
      obtain ⟨xs, hqueue, hlog⟩ := h.fifo i t ht
      obtain ⟨hpop, hrest⟩ := pop_queues hqueue
      rw [hcur, bind_some, hpop, hid, hf, htid]
      refine ⟨xs.tail, hrest, ?_⟩
      cases xs with
      | nil => exact hlog
      | cons x xs =>
        change Function.update log.received t.tid _ t.tid ++ xs = log.sent t.tid
        rw [update_self, List.append_assoc]
        exact hlog
    case isFalse hi =>
      have hne : ∀ t, s.currentTask cpu = some t → t.tid ≠ u.tid := by
        intro t hcur heq
        obtain ⟨j, hj, ht⟩ := hcurrent hcur
        obtain rfl := h.tids.tid_inj j i t u ht hu heq
        exact hi hj
      rw [hother u.tid hne, hsent]
      exact h.fifo i u hu

end Steps

lemma step_mailed (p : Sched × MailLog) (op : SchedOp) (h : Mailed p) : Mailed (messagesLogged p op) := by
  obtain ⟨s, log⟩ := p
  change Mailed (s.step op, recordMessages s log op)
  cases op with
  | sendMessage tid msg =>
    simp only [step, recordMessages]
    rcases sendMessage_cases s tid msg with hfail | ⟨slot, t, mailbox, ht, rfl, hpush, hsend⟩
    · rw [hfail]
      exact h
    · rw [hsend]
      exact h.send ht hpush
  | recvMessage cpu =>
    simp only [step, recordMessages, recvMessage]
    cases hm : (s.currentTask cpu).bind fun t => t.mailbox.pop.1 with
    | none =>
      have hnone := h.receive cpu (f := fun t => { t with mailbox := t.mailbox.pop.2, state := .blocked })
        (fun _ => rfl) fun _ => rfl
      rw [hm] at hnone
      exact hnone
    | some msg =>
      have hsome := h.receive cpu (f := fun t => { t with mailbox := t.mailbox.pop.2 })
        (fun _ => rfl) fun _ => rfl
      rw [hm] at hsome
      exact hsome
  | tryRecvMessage cpu => exact h.receive cpu (fun _ => rfl) fun _ => rfl
  | init | secondaryIdleInit | spawn | spawnUserEntryWithSegs | spawnUserThread | scheduleNext
  | setTaskSyscallFilter | sendSignal | setSignalHandler | popPendingSignal | forceExit
  | swapSignalMask | setTaskCaps | yieldCpu | exitTask | waitForTid | setAffinity
  | setTaskPriority => exact h.quiet rfl

structure Reliable (p : Sched × MailLog) : Prop where
  fifo : ∀ i t, p.1.tasks i = some t → p.2.received t.tid ++ t.mailbox.queued = p.2.sent t.tid
  bounded : ∀ i t, p.1.tasks i = some t → t.mailbox.queued.length ≤ mailboxCapacity
  failed : ∀ tid msg, (p.1.sendMessage tid msg).1 = false → (p.1.sendMessage tid msg).2 = p.1

lemma Mailed.reliable {p : Sched × MailLog} (h : Mailed p) : Reliable p where
  fifo i t ht := by
    obtain ⟨xs, hqueue, hlog⟩ := h.fifo i t ht
    rw [Mailbox.queued, HoldsQueue.contents_eq hqueue]
    exact hlog
  bounded i t ht := by
    obtain ⟨xs, hqueue, -⟩ := h.fifo i t ht
    rw [Mailbox.queued, HoldsQueue.contents_eq hqueue, hqueue.length]
    exact hqueue.le
  failed tid msg hfail := by
    rcases sendMessage_cases p.1 tid msg with heq | ⟨_, _, _, _, _, _, heq⟩
    · rw [heq]
    · simp [heq] at hfail

def sysSendNumber : Nat := 1

def SendsAsCaller (k : Kernel) (cpu : Cpu) (a : Args) (env : Env) : Prop :=
  ∀ i t', (k.syscall cpu sysSendNumber a env).sched.tasks i = some t' →
    ∃ t, k.sched.tasks i = some t ∧ (t'.mailbox = t.mailbox ∨
      ∃ data, t.mailbox.push ⟨k.sched.currentTid cpu, data⟩ = some t'.mailbox)

lemma sendMessage_mailboxes {s : Sched} {tid : Nat} {msg : Message} {i : Slot} {t' : Task}
    (h : (s.sendMessage tid msg).2.tasks i = some t') :
    ∃ t, s.tasks i = some t ∧ (t'.mailbox = t.mailbox ∨ t.mailbox.push msg = some t'.mailbox) := by
  rcases sendMessage_cases s tid msg with hfail | ⟨slot, t, mailbox, ht, -, hpush, hsend⟩
  · rw [hfail] at h
    exact ⟨t', h, Or.inl rfl⟩
  · rw [hsend] at h
    change SlotTable.modify s.tasks slot _ i = some t' at h
    by_cases hi : i = slot
    · subst hi
      rw [SlotTable.modify_self, ht] at h
      obtain rfl := some.inj h
      exact ⟨t, ht, Or.inr hpush⟩
    · rw [SlotTable.modify_of_ne _ hi] at h
      exact ⟨t', h, Or.inl rfl⟩

lemma sysSend_after (k : Kernel) (cpu : Cpu) (target msgPtr : Nat) :
    (after (sysSend cpu target msgPtr) k).sched = k.sched ∨ ∃ data,
      (after (sysSend cpu target msgPtr) k).sched =
        (k.sched.sendMessage target ⟨k.sched.currentTid cpu, data⟩).2 := by
  unfold sysSend
  by_cases hnull : msgPtr = 0
  · rw [if_pos hnull]
    exact Or.inl rfl
  · rw [if_neg hnull]
    have hload := load_eq k cpu msgPtr messageSize
    cases hbytes : loaded k cpu msgPtr messageSize with
    | none =>
      rw [hbytes] at hload
      rw [after_bind_error hload]
      exact Or.inl rfl
    | some raw =>
      rw [hbytes] at hload
      rw [after_bind_ok hload, after_get_bind]
      by_cases hmay : mayMessage (k.sched.currentCaps cpu) target = true
      · rw [if_neg (by simp [hmay])]
        refine Or.inr ⟨payload (raw.drop 8), ?_⟩
        -- the last branch only chooses the value to return
        cases hok : (k.sched.sendMessage target ⟨k.sched.currentTid cpu, payload (raw.drop 8)⟩).1 <;>
          rw [after_bind_ok rfl] <;> simp only [hok] <;> rfl
      · rw [if_pos (by simp [hmay])]
        exact Or.inl rfl

lemma accepted_send {k : Kernel} {cpu : Cpu} {call : Syscall}
    (h : accepted k cpu sysSendNumber = some call) : call = .send := by
  unfold accepted at h
  split at h
  case isTrue => exact (some.inj (filter_eq_some_iff.mp h).1).symm
  case isFalse => cases h

lemma syscall_sendsAsCaller (k : Kernel) (cpu : Cpu) (a : Args) (env : Env) : SendsAsCaller k cpu a env := by
  intro i t' h
  cases hacc : accepted k cpu sysSendNumber with
  | none =>
    obtain ⟨ret, hd⟩ := dispatch_refused hacc a env
    rw [Kernel.syscall, hd] at h
    exact ⟨t', h, Or.inl rfl⟩
  | some call =>
    obtain rfl : call = .send := accepted_send hacc
    rw [syscall_of_plain hacc rfl] at h
    rcases sysSend_after k cpu a.arg0 a.arg1 with hsame | ⟨data, hsend⟩
    · rw [hsame] at h
      exact ⟨t', h, Or.inl rfl⟩
    · rw [hsend] at h
      obtain ⟨t, ht, hmail⟩ := sendMessage_mailboxes h
      exact ⟨t, ht, hmail.imp_right fun hpush => ⟨data, hpush⟩⟩

theorem mailboxes_reliable (mem : Memory) (frames : Nat → TrapFrame) (vmmTtbr0 : Nat)
    (ops : List SchedOp) :
    Reliable (run messagesLogged (Sched.boot mem frames vmmTtbr0, .empty) ops) ∧
      ∀ k cpu a env, SendsAsCaller k cpu a env := by
  have hboot : Mailed (Sched.boot mem frames vmmTtbr0, .empty) :=
    ⟨(boot_tableInv mem frames vmmTtbr0).toTids, fun _ _ => ⟨rfl, rfl⟩, fun i t ht => by
      simp [Sched.boot] at ht⟩
  have hrun : Mailed (run messagesLogged (Sched.boot mem frames vmmTtbr0, .empty) ops) :=
    run_preserves step_mailed hboot ops
  exact ⟨hrun.reliable, syscall_sendsAsCaller⟩

end Proofs

end Aeglos
