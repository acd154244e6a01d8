import Aeglos.Kernel.X509
import Aeglos.Library.Calendar

/-!
# The clock of the inference engine

`rtc_decompose` of `numenor/src/cpp/llm_engine.cpp`.
-/

namespace Aeglos.Services

open Calendar X509

def rtcYear (year days : Nat) : Nat × Nat :=
  let diy := if isLeap year then 366 else 365
  if days < diy then (year, days) else rtcYear (year + 1) (days - diy)
termination_by days
decreasing_by grind

/-- The loop over `dim`; month and day stay 1 if it comes to its end. -/
def rtcMonth : List Nat → Nat → Nat → Nat × Nat
  | [], _, _ => (1, 1)
  | dim :: dims, i, days => if days < dim then (i + 1, days + 1) else rtcMonth dims (i + 1) (days - dim)

def rtcDecompose (epoch : BitVec 32) : DateTime :=
  let year := rtcYear 1970 (epoch.toNat / 86400)
  let dims := [31, if isLeap year.1 then 29 else 28, 31, 30, 31, 30, 31, 31, 30, 31, 30, 31]
  let date := rtcMonth dims 0 year.2
  ⟨year.1, date.1, date.2, epoch.toNat / 3600 % 24, epoch.toNat / 60 % 60, epoch.toNat % 60⟩

end Aeglos.Services
