import Aeglos.Kernel.Handlers
import Aeglos.Library.Transactions

/-!
# Capability updates by their critical sections

`sys_cap_grant` and `sys_cap_revoke` take the scheduler lock once for each access.
-/

namespace Aeglos

open Transactions

inductive CapCall where
  | grant (cpu : Cpu) (capBits : BitVec 64)
  | revoke (capBits : BitVec 64)
  deriving DecidableEq

def storeCaps (tid : Nat) (newCaps : BitVec 64) (s : Sched) : Int × Sched :=
  (if (s.setTaskCaps tid newCaps).1 then 0 else -1, (s.setTaskCaps tid newCaps).2)

namespace CapCall

def finishGrant (tid : Nat) (capBits : BitVec 64) : List (Option (BitVec 64)) → Sched → Int × Sched
  | [some grantorCaps, some existing], s => storeCaps tid (existing ||| (capBits &&& grantorCaps)) s
  | _, s => (-1, s)

def finishRevoke (tid : Nat) (capBits : BitVec 64) : List (Option (BitVec 64)) → Sched → Int × Sched
  | [some existing], s => storeCaps tid (existing &&& ~~~capBits) s
  | _, s => (-1, s)

/-- The sections of a call on the task `tid`. An unknown TID makes the last one do nothing. -/
def transaction (tid : Nat) : CapCall → Transaction Sched (Option (BitVec 64)) Int
  | .grant cpu capBits =>
    ⟨[fun s => some (s.currentCaps cpu), fun s => s.getTaskCaps tid], finishGrant tid capBits⟩
  | .revoke capBits => ⟨[fun s => s.getTaskCaps tid], finishRevoke tid capBits⟩

end CapCall

end Aeglos
