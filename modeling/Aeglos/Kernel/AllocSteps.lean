import Aeglos.Kernel.PageBitmap
import Aeglos.Kernel.Scheduler

/-!
# Page allocation step by step

`alloc_pages` takes no lock. A step is an access to a bitmap byte, or a return.
-/

namespace Aeglos

inductive AllocPhase where
  | scanning (i consecutive startIdx : Nat)
  | marking (startIdx k : Nat)
  | done (block : Option Nat)

/-- The shared bitmap, and for each CPU the argument of its call and where the call is. -/
structure AllocCalls where
  bitmap : PageBitmap
  count : Cpu → Nat
  phase : Cpu → AllocPhase

namespace AllocCalls

def begin (bitmap : PageBitmap) (count : Cpu → Nat) : AllocCalls :=
  ⟨bitmap, count, fun c => if count c = 0 then .done none else .scanning 0 0 0⟩

def goto (a : AllocCalls) (c : Cpu) (phase : AllocPhase) : AllocCalls :=
  { a with phase := Function.update a.phase c phase }

def step (a : AllocCalls) (c : Cpu) : AllocCalls :=
  match a.phase c with
  | .scanning i consecutive startIdx =>
    if i < a.bitmap.numPages then
      if PageBitmap.isFree a.bitmap.bytes i then
        let startIdx := if consecutive = 0 then i else startIdx
        if consecutive + 1 = a.count c then a.goto c (.marking startIdx 0)
        else a.goto c (.scanning (i + 1) (consecutive + 1) startIdx)
      else a.goto c (.scanning (i + 1) 0 startIdx)
    else a.goto c (.done none)
  | .marking startIdx k =>
    if k < a.count c then
      { a with bitmap := { a.bitmap with
        bytes := PageBitmap.markUsed a.bitmap.bytes (startIdx + k) } }.goto c (.marking startIdx (k + 1))
    else a.goto c (.done (some startIdx))
  | .done _ => a

def returned (a : AllocCalls) (c : Cpu) : Option Nat :=
  match a.phase c with
  | .done block => block.map fun startIdx => a.bitmap.pageBase + startIdx * pageSize
  | _ => none

end AllocCalls

end Aeglos
