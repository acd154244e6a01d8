import Aeglos.Proofs.Pointers

/-!
# Access to the disk and the network

What tasks without `CAP_BLK` and `CAP_NET` do to the disk and the network.
-/

namespace Aeglos.Proofs

open Effects Call TransitionSystem

variable {k : Kernel}

section Steps

variable {K : Kind → Bool} {k k' : Kernel}

lemma poke_devices (k : Kernel) (pa : Nat) (b : UInt8) :
    (k.poke pa b).fat = k.fat ∧ (k.poke pa b).sent = k.sent := by
  unfold Kernel.poke
  cases k.layout.taskByte pa with
  | none => exact ⟨rfl, rfl⟩
  | some byte => cases byte <;> exact ⟨rfl, rfl⟩

lemma commit_devices (k : Kernel) (cpu : Cpu) (stores : List (Nat × UInt8)) :
    (k.commit cpu stores).fat = k.fat ∧ (k.commit cpu stores).sent = k.sent := by
  refine commit_induction (P := fun k' => k'.fat = k.fat ∧ k'.sent = k.sent) ⟨rfl, rfl⟩ ?_
  intro s _ pa _ k' hk'
  have hp := poke_devices k' pa s.2
  exact ⟨hp.1.trans hk'.1, hp.2.trans hk'.2⟩

lemma acts_disk (hK : K .disk = false) (h : Relation.ReflTransGen (Acts K) k k') : k'.fat.disk = k.fat.disk := by
  induction h with
  | refl => rfl
  | tail _ hstep ih =>
    rw [← ih]
    cases hstep with
    | reads f hr => exact hr.disk
    | store pa b => rw [(poke_devices _ pa b).1]
    | disk f hd => simp [hK] at hd
    | quiet | vfs | config | spawn | rights | memory | network => rfl

lemma acts_sent (hK : K .network = false) (h : Relation.ReflTransGen (Acts K) k k') : k'.sent = k.sent := by
  induction h with
  | refl => rfl
  | tail _ hstep ih =>
    rw [← ih]
    cases hstep with
    | store pa b => exact (poke_devices _ pa b).2
    | network frame hn => simp [hK] at hn
    | quiet | vfs | reads | config | spawn | rights | memory | disk => rfl

end Steps

lemma syscall_devices {cpu : Cpu} {id : Nat} {a : Args} {env : Env} {call : Syscall}
    (hacc : accepted k cpu id = some call) :
    (k.syscall cpu id a env).fat = (after (handle cpu a env call) k).fat ∧
      (k.syscall cpu id a env).sent = (after (handle cpu a env call) k).sent := by
  unfold Kernel.syscall after
  rw [dispatch_accepted hacc]
  cases handle cpu a env call k with
  | error k' => exact ⟨rfl, rfl⟩
  | ok r => exact commit_devices r.2 cpu r.1.stores

lemma syscall_refused {cpu : Cpu} {id : Nat} {a : Args} {env : Env}
    (hacc : accepted k cpu id = none) : k.syscall cpu id a env = k := by
  obtain ⟨ret, hd⟩ := dispatch_refused hacc a env
  unfold Kernel.syscall
  rw [hd]
  rfl

def Lacks (cap : BitVec 64) (k : Kernel) : KernelOp → Prop
  | .syscall cpu _ _ _ => k.sched.currentCaps cpu &&& cap = 0
  | _ => True

/-- Calls that reach the writing half of the file system come from tasks with `CAP_BLK`, and calls that reach
the network device from tasks with `CAP_NET`. -/
def Mediated (k : Kernel) (op : KernelOp) : Prop :=
  match op with
  | .syscall cpu id a env => ∀ call, accepted k cpu id = some call →
      (Lacks Cap.blk k op → writesDisk k cpu a env call = false) ∧
      (Lacks Cap.net k op → sendsFrames env call = false)
  | _ => True

lemma step_devices {op : KernelOp} (h : Mediated k op) :
    (Lacks Cap.blk k op → (k.step op).fat.disk = k.fat.disk) ∧ (Lacks Cap.net k op → (k.step op).sent = k.sent) := by
  cases op with
  | syscall cpu id a env =>
    change (_ → (k.syscall cpu id a env).fat.disk = _) ∧ (_ → (k.syscall cpu id a env).sent = _)
    cases hacc : accepted k cpu id with
    | none =>
      rw [syscall_refused hacc]
      exact ⟨fun _ => rfl, fun _ => rfl⟩
    | some call =>
      have hacts := handle_acts k cpu a env call
      rw [(syscall_devices hacc).1, (syscall_devices hacc).2]
      exact ⟨fun hl => acts_disk ((h call hacc).1 hl) hacts, fun hl => acts_sent ((h call hacc).2 hl) hacts⟩
  | popPendingSignal cpu | scheduleNext cpu sp | pageFault cpu => exact ⟨fun _ => rfl, fun _ => rfl⟩

lemma run_devices {ops : List KernelOp} (hg : Guarded Kernel.step Mediated k ops) :
    (Guarded Kernel.step (Lacks Cap.blk) k ops → (run Kernel.step k ops).fat.disk = k.fat.disk) ∧
      (Guarded Kernel.step (Lacks Cap.net) k ops → (run Kernel.step k ops).sent = k.sent) := by
  induction ops generalizing k with
  | nil => exact ⟨fun _ => rfl, fun _ => rfl⟩
  | cons op ops ih =>
    obtain ⟨hdisk, hsent⟩ := ih hg.2
    constructor
    · intro hl
      exact (hdisk hl.2).trans ((step_devices hg.1).1 hl.1)
    · intro hl
      exact (hsent hl.2).trans ((step_devices hg.1).2 hl.1)

def harmlessCalls : List KernelOp :=
  [.syscall 0 31 ⟨0, 0, 0, 0, 0, 0⟩ quietEnv, .syscall 0 7 ⟨0, 0x1000, 0, 0, 0, 0⟩ quietEnv]

def sendRaw : KernelOp := .syscall 0 14 ⟨kernelVaOffset + 0x40000000, 14, 0, 0, 0, 0⟩ quietEnv

end Aeglos.Proofs
