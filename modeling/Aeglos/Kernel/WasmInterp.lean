import Aeglos.Kernel.WasmHost

/-!
# The WebAssembly interpreter

`wasm/interp.rs`, `sys_wasm_load` and `sys_wasm_exec`. Loops that a module can keep running take
their rounds from `fuel`.
-/

namespace Aeglos.Wasm

open Effects

inductive LabelKind where
  | block
  | loop
  | if_
  deriving DecidableEq

structure Label where
  kind : LabelKind
  arity : Nat
  baseSp : Nat
  brTarget : Nat
  endPc : Nat

structure Cursor where
  pc : Nat
  locals : List Value
  labels : List Label

structure Frame where
  funcIdx : Nat
  baseSp : Nat
  cursor : Cursor

/-- `StepResult`, of which `Continue` never occurs. -/
inductive StepResult where
  | return_ (vals : List Value)
  | call (callee : Nat) (args : List Value)

/-- The instructions; those that only compute are described by what they compute. `load` has
the number of bytes and the conversion of what is read. -/
inductive Instr where
  | unreachable
  | nop
  | block
  | loop
  | if_
  | else_
  | end_
  | br
  | brIf
  | brTable
  | return_
  | call
  | callIndirect
  | drop
  | select
  | localGet
  | localSet
  | localTee
  | globalGet
  | globalSet
  | load (width : Nat) (convert : Value → Value)
  | floatLoad
  | store (width : Nat)
  | floatStore
  | memorySize
  | memoryGrow
  | i32Const
  | i64Const
  | floatConst (len : Nat)
  | unary (f : Value → Value)
  | binary (f : Value → Value → Except WasmError Value)
  | unknown

def lo (a : Value) : BitVec 32 := a.setWidth 32

def ofU32 (a : BitVec 32) : Value := a.setWidth 64

def ofS32 (a : BitVec 32) : Value := a.signExtend 64

def signed (width : Nat) (a : Value) : Value := (a.setWidth width).signExtend 64

def ofBool (b : Bool) : Value := if b then 1 else 0

def cmp32 (f : BitVec 32 → BitVec 32 → Bool) : Instr := .binary fun a b => .ok (ofBool (f (lo a) (lo b)))

def cmp64 (f : Value → Value → Bool) : Instr := .binary fun a b => .ok (ofBool (f a b))

def num32 (f : BitVec 32 → BitVec 32 → BitVec 32) : Instr := .binary fun a b => .ok (ofU32 (f (lo a) (lo b)))

def num64 (f : Value → Value → Value) : Instr := .binary fun a b => .ok (f a b)

def div32 (convert : BitVec 32 → Value) (f : BitVec 32 → BitVec 32 → BitVec 32) : Instr :=
  .binary fun a b => if lo b = 0 then .error .divisionByZero else .ok (convert (f (lo a) (lo b)))

def div64 (f : Value → Value → Value) : Instr :=
  .binary fun a b => if b = 0 then .error .divisionByZero else .ok (f a b)

def opcodes : List (Nat × Nat × Instr) :=
  [(0x00, 0x00, .unreachable), (0x01, 0x01, .nop), (0x02, 0x02, .block), (0x03, 0x03, .loop),
    (0x04, 0x04, .if_), (0x05, 0x05, .else_), (0x0B, 0x0B, .end_), (0x0C, 0x0C, .br), (0x0D, 0x0D, .brIf),
    (0x0E, 0x0E, .brTable), (0x0F, 0x0F, .return_), (0x10, 0x10, .call), (0x11, 0x11, .callIndirect),
    (0x1A, 0x1A, .drop), (0x1B, 0x1B, .select),
    (0x20, 0x20, .localGet), (0x21, 0x21, .localSet), (0x22, 0x22, .localTee),
    (0x23, 0x23, .globalGet), (0x24, 0x24, .globalSet),
    (0x28, 0x28, .load 4 id), (0x29, 0x29, .load 8 id), (0x2A, 0x2B, .floatLoad),
    (0x2C, 0x2C, .load 1 (signed 8)), (0x2D, 0x2D, .load 1 id),
    (0x2E, 0x2E, .load 2 (signed 16)), (0x2F, 0x2F, .load 2 id),
    (0x30, 0x30, .load 1 (signed 8)), (0x31, 0x31, .load 1 id),
    (0x32, 0x32, .load 2 (signed 16)), (0x33, 0x33, .load 2 id),
    (0x34, 0x34, .load 4 (signed 32)), (0x35, 0x35, .load 4 id),
    (0x36, 0x36, .store 4), (0x37, 0x37, .store 8), (0x38, 0x39, .floatStore), (0x3A, 0x3A, .store 1),
    (0x3B, 0x3B, .store 2), (0x3C, 0x3C, .store 1), (0x3D, 0x3D, .store 2), (0x3E, 0x3E, .store 4),
    (0x3F, 0x3F, .memorySize), (0x40, 0x40, .memoryGrow),
    (0x41, 0x41, .i32Const), (0x42, 0x42, .i64Const), (0x43, 0x43, .floatConst 4), (0x44, 0x44, .floatConst 8),
    -- comparisons of 32 bits
    (0x45, 0x45, .unary fun a => ofBool (lo a == 0)), (0x46, 0x46, cmp32 fun a b => a == b),
    (0x47, 0x47, cmp32 fun a b => a != b), (0x48, 0x48, cmp32 fun a b => a.slt b),
    (0x49, 0x49, cmp32 fun a b => a.ult b), (0x4A, 0x4A, cmp32 fun a b => b.slt a),
    (0x4B, 0x4B, cmp32 fun a b => b.ult a), (0x4C, 0x4C, cmp32 fun a b => a.sle b),
    (0x4D, 0x4D, cmp32 fun a b => a.ule b), (0x4E, 0x4E, cmp32 fun a b => b.sle a),
    (0x4F, 0x4F, cmp32 fun a b => b.ule a),
    -- comparisons of 64 bits
    (0x50, 0x50, .unary fun a => ofBool (a == 0)), (0x51, 0x51, cmp64 fun a b => a == b),
    (0x52, 0x52, cmp64 fun a b => a != b), (0x53, 0x53, cmp64 fun a b => a.slt b),
    (0x54, 0x54, cmp64 fun a b => a.ult b), (0x55, 0x55, cmp64 fun a b => b.slt a),
    (0x56, 0x56, cmp64 fun a b => b.ult a), (0x57, 0x57, cmp64 fun a b => a.sle b),
    (0x58, 0x58, cmp64 fun a b => a.ule b), (0x59, 0x59, cmp64 fun a b => b.sle a),
    (0x5A, 0x5A, cmp64 fun a b => b.ule a),
    (0x5B, 0x66, .binary fun _ _ => .ok 0),
    -- arithmetic of 32 bits
    (0x67, 0x67, .unary fun a => ofU32 (lo a).clz), (0x68, 0x68, .unary fun a => ofU32 (lo a).ctz),
    (0x69, 0x69, .unary fun a => ofU32 (lo a).cpop), (0x6A, 0x6A, num32 fun a b => a + b),
    (0x6B, 0x6B, num32 fun a b => a - b), (0x6C, 0x6C, num32 fun a b => a * b),
    (0x6D, 0x6D, div32 ofS32 BitVec.sdiv), (0x6E, 0x6E, div32 ofU32 BitVec.udiv),
    (0x6F, 0x6F, div32 ofS32 BitVec.srem), (0x70, 0x70, div32 ofU32 BitVec.umod),
    (0x71, 0x71, num32 fun a b => a &&& b), (0x72, 0x72, num32 fun a b => a ||| b),
    (0x73, 0x73, num32 fun a b => a ^^^ b), (0x74, 0x74, num32 fun a b => a <<< (b.toNat % 32)),
    (0x75, 0x75, .binary fun a b => .ok (ofS32 ((lo a).sshiftRight ((lo b).toNat % 32)))),
    (0x76, 0x76, num32 fun a b => a >>> (b.toNat % 32)), (0x77, 0x77, num32 fun a b => a.rotateLeft b.toNat),
    (0x78, 0x78, num32 fun a b => a.rotateRight b.toNat),
    -- arithmetic of 64 bits
    (0x79, 0x79, .unary fun a => a.clz), (0x7A, 0x7A, .unary fun a => a.ctz), (0x7B, 0x7B, .unary fun a => a.cpop),
    (0x7C, 0x7C, num64 fun a b => a + b), (0x7D, 0x7D, num64 fun a b => a - b),
    (0x7E, 0x7E, num64 fun a b => a * b), (0x7F, 0x7F, div64 BitVec.sdiv), (0x80, 0x80, div64 BitVec.udiv),
    (0x81, 0x81, div64 BitVec.srem), (0x82, 0x82, div64 BitVec.umod), (0x83, 0x83, num64 fun a b => a &&& b),
    (0x84, 0x84, num64 fun a b => a ||| b), (0x85, 0x85, num64 fun a b => a ^^^ b),
    (0x86, 0x86, num64 fun a b => a <<< ((lo b).toNat % 64)),
    (0x87, 0x87, num64 fun a b => a.sshiftRight ((lo b).toNat % 64)),
    (0x88, 0x88, num64 fun a b => a >>> ((lo b).toNat % 64)),
    (0x89, 0x89, num64 fun a b => a.rotateLeft (lo b).toNat),
    (0x8A, 0x8A, num64 fun a b => a.rotateRight (lo b).toNat),
    (0x8B, 0xA6, .unary fun _ => 0),
    -- conversions
    (0xA7, 0xA7, .unary fun a => ofU32 (lo a)), (0xA8, 0xA8, .unary (signed 32)),
    (0xA9, 0xA9, .unary fun a => ofU32 (lo a)), (0xAA, 0xAA, .unary (signed 32)),
    (0xAB, 0xAB, .unary fun a => ofU32 (lo a)), (0xAC, 0xAC, .unary (signed 32)),
    (0xAD, 0xAD, .unary fun a => ofU32 (lo a)), (0xAE, 0xBB, .unary id),
    (0xBC, 0xBC, .unary fun a => ofU32 (lo a)), (0xBD, 0xBF, .unary id),
    (0xC0, 0xC0, .unary (signed 8)), (0xC1, 0xC1, .unary (signed 16)), (0xC2, 0xC2, .unary (signed 8)),
    (0xC3, 0xC3, .unary (signed 16)), (0xC4, 0xC4, .unary (signed 32))]

def Instr.ofOpcode (op : UInt8) : Instr :=
  ((opcodes.find? fun e => e.1 ≤ op.toNat ∧ op.toNat ≤ e.2.1).map fun e => e.2.2).getD .unknown

section Scanners

variable (code : Bytes)

def skipU32 (i : Nat) : Nat := i + ((readLeb128U32 code i).map Prod.snd).getD 0

def skipI32 (i : Nat) : Nat := i + ((readLeb128I32 code i).map Prod.snd).getD 0

def skipI64 (i : Nat) : Nat := i + ((readLeb128I64 code i).map Prod.snd).getD 0

def skipU32s : Nat → Nat → Nat
  | 0, i => i
  | n + 1, i => skipU32s n (skipU32 code i)

def skipBlocktype (i : Nat) : Nat :=
  match code[i]? with
  | none => i
  | some b => if b = 0x40 ∨ (0x7C ≤ b ∧ b ≤ 0x7F) then i + 1 else skipI32 code i

def skipOperands (op : UInt8) (i : Nat) : Nat :=
  if op = 0x02 ∨ op = 0x03 ∨ op = 0x04 then skipBlocktype code i
  else if op = 0x0C ∨ op = 0x0D then skipU32 code i
  else if op = 0x0E then
    match readLeb128U32 code i with
    | none => i
    | some (cnt, n) => skipU32s code (cnt + 1) (i + n)
  else if op = 0x10 then skipU32 code i
  else if op = 0x11 then skipU32 code (skipU32 code i)
  else if 0x20 ≤ op ∧ op ≤ 0x24 then skipU32 code i
  else if 0x28 ≤ op ∧ op ≤ 0x3E then skipU32 code (skipU32 code i)
  else if op = 0x3F ∨ op = 0x40 then i + 1
  else if op = 0x41 then skipI32 code i
  else if op = 0x42 then skipI64 code i
  else if op = 0x43 then i + 4
  else if op = 0x44 then i + 8
  else i

def opensBlock (op : UInt8) : Bool := decide (op = 0x02 ∨ op = 0x03 ∨ op = 0x04)

def findEndLoop : Nat → Nat → Nat → Option Nat
  | 0, _, _ => none
  | rounds + 1, depth, i =>
    match code[i]? with
    | none => none
    | some op =>
      if opensBlock op then findEndLoop rounds (depth + 1) (skipOperands code op (i + 1))
      else if op = 0x0B then if depth = 1 then some i else findEndLoop rounds (depth - 1) (i + 1)
      else findEndLoop rounds depth (skipOperands code op (i + 1))

def findEnd (start : Nat) : Option Nat := findEndLoop code code.length 1 start

def findElseLoop : Nat → Nat → Nat → Option Nat
  | 0, _, _ => none
  | rounds + 1, depth, i =>
    match code[i]? with
    | none => none
    | some op =>
      if opensBlock op then findElseLoop rounds (depth + 1) (skipOperands code op (i + 1))
      else if op = 0x05 then if depth = 1 then some i else findElseLoop rounds depth (i + 1)
      else if op = 0x0B then if depth = 1 then none else findElseLoop rounds (depth - 1) (i + 1)
      else findElseLoop rounds depth (skipOperands code op (i + 1))

def findElse (start : Nat) : Option Nat := findElseLoop code code.length 1 start

end Scanners

section Steps

variable {η : Type} (m : WasmModule) (code : Bytes)

def immediate {α : Type} (read : Bytes → Nat → Option (α × Nat)) (text : String) (pc : Nat) :
    Exec η (α × Nat) := do
  let (v, n) ← orFail (read code pc) (.trap text)
  return (v, pc + n)

def memEa (pc : Nat) : Exec η (BitVec 32 × Nat) := do
  let (_, pc) ← immediate code readLeb128U32 "memarg align" pc
  let (offset, pc) ← immediate code readLeb128U32 "memarg offset" pc
  let base ← pop
  return (lo base + BitVec.ofNat 32 offset, pc)

def skipMemarg (pc : Nat) : Exec η Nat := do
  let (_, pc) ← immediate code readLeb128U32 "memarg" pc
  let (_, pc) ← immediate code readLeb128U32 "memarg2" pc
  return pc

def parseBlocktype (pc : Nat) : Exec η (Nat × Nat) := do
  let b ← orFail code[pc]? (.trap "blocktype eof")
  if b = 0x40 then return (0, pc + 1)
  else if b = 0x7F ∨ b = 0x7E ∨ b = 0x7D ∨ b = 0x7C then return (1, pc + 1)
  else
    let (ti, pc) ← immediate code readLeb128I32 "blocktype leb" pc
    -- a negative index becomes larger than any table
    let ft ← orFail (if ti.msb then none else m.types[ti.toNat]?) (.trap "blocktype: no type")
    return (ft.results.length, pc)

def collectResults (funcIdx baseSp : Nat) : Exec η (List Value) := do
  let ft ← orFail (m.funcType funcIdx) (.trap "collect_results: no type")
  let s ← get
  if s.stack.length < baseSp + ft.results.length then trap "missing results"
  else
    let vals ← stackFrom (s.stack.length - ft.results.length)
    truncate (s.stack.length - ft.results.length)
    return vals

def doBr (c : Cursor) (depth : Nat) : Exec η Cursor := do
  match c.labels[depth]? with
  | none => trap "br depth too large"
  | some lbl =>
    trimStack lbl.baseSp lbl.arity
    let kept := if lbl.kind = .loop then depth else depth + 1
    return { c with pc := lbl.brTarget, labels := c.labels.drop kept }

def brTargets : Nat → Nat → Exec η (List Nat × Nat)
  | 0, pc => return ([], pc)
  | n + 1, pc => do
    let (t, pc) ← immediate code readLeb128U32 "br_table: bad leb2" pc
    let (ts, pc) ← brTargets n pc
    return (t :: ts, pc)

def brTarget (targets : List Nat) (idx : Nat) : Exec η Nat :=
  match targets[if idx < targets.length - 1 then idx else targets.length - 1]? with
  | none => panic
  | some t => return t

def pushLabel (c : Cursor) (kind : LabelKind) (arity brTarget endPc : Nat) : Exec η Cursor := do
  return { c with labels := ⟨kind, arity, (← get).stack.length, brTarget, endPc⟩ :: c.labels }

def endOf (pc : Nat) : Exec η Nat := orFail (findEnd code pc) (.trap "find_end: no matching end")

def execIf (c : Cursor) : Exec η Cursor := do
  let (arity, pc) ← parseBlocktype m code c.pc
  let cond ← pop
  let endPc ← endOf code pc
  if lo cond ≠ 0 then pushLabel { c with pc := pc } .if_ arity (endPc + 1) endPc
  else match findElse code pc with
    | some ep => pushLabel { c with pc := ep + 1 } .if_ arity (endPc + 1) endPc
    | none => return { c with pc := endPc + 1 }

/-- The argument types of a table entry are compared by their number only. -/
def execCallIndirect (c : Cursor) : Exec η (Cursor × StepResult) := do
  let (typeIdx, pc) ← immediate code readLeb128U32 "call_indirect: bad leb" c.pc
  let (_, pc) ← immediate code readLeb128U32 "call_indirect: bad leb2" pc
  let idx ← pop
  let entry ← orFail (← get).table[idx.toNat]? (.trap "call_indirect: table oob")
  if !entry.valid then trap "call_indirect: null ref"
  else
    let actual ← orFail (m.funcType entry.funcIdx) (.trap "call_indirect: no type")
    let expected ← orFail m.types[typeIdx]? (.trap "call_indirect: no type idx")
    if actual.params.length ≠ expected.params.length ∨ actual.results.length ≠ expected.results.length then
      trap "call_indirect: type mismatch"
    else
      let args ← popN expected.params.length
      return ({ c with pc := pc }, .call entry.funcIdx args)

def setLocal (c : Cursor) (pc idx : Nat) (v : Value) (text : String) : Exec η Cursor :=
  if idx < c.locals.length then return { c with pc := pc, locals := c.locals.set idx v } else trap text

/-- Execute an instruction that stays in its frame. The cursor is past the opcode. -/
def execInstr (c : Cursor) : Instr → Exec η Cursor
  | .nop => return c
  | .block => do
    let (arity, pc) ← parseBlocktype m code c.pc
    let endPc ← endOf code pc
    pushLabel { c with pc := pc } .block arity (endPc + 1) endPc
  | .loop => do
    let (_, pc) ← parseBlocktype m code c.pc
    let endPc ← endOf code pc
    pushLabel { c with pc := pc } .loop 0 pc endPc
  | .if_ => execIf m code c
  | .else_ =>
    match c.labels with
    | [] => return c
    | lbl :: rest => return { c with pc := lbl.endPc + 1, labels := rest }
  | .br => do
    let (depth, pc) ← immediate code readLeb128U32 "br: bad leb" c.pc
    doBr { c with pc := pc } depth
  | .brIf => do
    let (depth, pc) ← immediate code readLeb128U32 "br_if: bad leb" c.pc
    let cond ← pop
    if lo cond ≠ 0 then doBr { c with pc := pc } depth else return { c with pc := pc }
  | .brTable => do
    let (cnt, pc) ← immediate code readLeb128U32 "br_table: bad leb" c.pc
    let (targets, pc) ← brTargets code (cnt + 1) pc
    let idx ← pop
    doBr { c with pc := pc } (← brTarget targets idx.toNat)
  | .drop => do
    let _ ← pop
    return c
  | .select => do
    let cond ← pop
    let b ← pop
    let a ← pop
    push (if lo cond ≠ 0 then a else b)
    return c
  | .localGet => do
    let (idx, pc) ← immediate code readLeb128U32 "local.get: bad leb" c.pc
    push (← orFail c.locals[idx]? (.trap "local.get: oob"))
    return { c with pc := pc }
  | .localSet => do
    let (idx, pc) ← immediate code readLeb128U32 "local.set: bad leb" c.pc
    let v ← pop
    setLocal c pc idx v "local.set: oob"
  | .localTee => do
    let (idx, pc) ← immediate code readLeb128U32 "local.tee: bad leb" c.pc
    let v ← orFail (← get).stack.head? (.trap "local.tee: empty")
    setLocal c pc idx v "local.tee: oob"
  | .globalGet => do
    let (idx, pc) ← immediate code readLeb128U32 "global.get: bad leb" c.pc
    push (← orFail (← get).globals[idx]? (.trap "global.get: oob"))
    return { c with pc := pc }
  | .globalSet => do
    let (idx, pc) ← immediate code readLeb128U32 "global.set: bad leb" c.pc
    let v ← pop
    let s ← get
    if idx < s.globals.length then
      set { s with globals := s.globals.set idx v }
      return { c with pc := pc }
    else trap "global.set: oob"
  | .load width convert => do
    let (addr, pc) ← memEa code c.pc
    push (convert (← orFail (← loadLe width addr) (.memoryFault addr)))
    return { c with pc := pc }
  | .floatLoad => do
    let pc ← skipMemarg code c.pc
    let _ ← pop
    push 0
    return { c with pc := pc }
  | .store width => do
    let (addr, pc) ← memEa code c.pc
    let v ← pop
    if ← storeLe width addr v then return { c with pc := pc } else fail (.memoryFault addr)
  | .floatStore => do
    let pc ← skipMemarg code c.pc
    let _ ← pop
    return { c with pc := pc }
  | .memorySize => do
    push (BitVec.ofNat 64 ((← get).mem.pages % 2 ^ 32))
    return { c with pc := c.pc + 1 }
  | .memoryGrow => do
    let delta ← pop
    push (ofS32 (← memoryGrow (lo delta).toNat))
    return { c with pc := c.pc + 1 }
  | .i32Const => do
    let (v, pc) ← immediate code readLeb128I32 "i32.const" c.pc
    push (ofS32 v)
    return { c with pc := pc }
  | .i64Const => do
    let (v, pc) ← immediate code readLeb128I64 "i64.const" c.pc
    push v
    return { c with pc := pc }
  | .floatConst len => do
    push 0
    return { c with pc := c.pc + len }
  | .unary f => do
    push (f (← pop))
    return c
  | .binary f => do
    let (b, a) ← pop2
    match f a b with
    | .error e => fail e
    | .ok v =>
      push v
      return c
  | .unreachable => trap "unreachable"
  | _ => fail (.unimplemented "unknown opcode")

def stepOnce (funcIdx baseSp : Nat) (c : Cursor) : Exec η (Cursor × Option StepResult) := do
  match code[c.pc]? with
  | none => return (c, some (.return_ (← collectResults m funcIdx baseSp)))
  | some op =>
    let c := { c with pc := c.pc + 1 }
    match Instr.ofOpcode op with
    | .end_ =>
      match c.labels with
      | lbl :: rest =>
        trimStack lbl.baseSp lbl.arity
        return ({ c with labels := rest }, none)
      | [] => return (c, some (.return_ (← collectResults m funcIdx baseSp)))
    | .return_ => return (c, some (.return_ (← collectResults m funcIdx baseSp)))
    | .call =>
      let (idx, pc) ← immediate code readLeb128U32 "call: bad leb" c.pc
      let ft ← orFail (m.funcType idx) (.trap "call: unknown func")
      let args ← popN ft.params.length
      return ({ c with pc := pc }, some (.call idx args))
    | .callIndirect =>
      let (c, r) ← execCallIndirect m code c
      return (c, some r)
    | instr => return (← execInstr m code c instr, none)

def stepFrame (funcIdx baseSp : Nat) : Nat → Cursor → Exec η (Cursor × StepResult)
  | 0, _ => halt .unfinished
  | fuel + 1, c => do
    match ← stepOnce m code funcIdx baseSp c with
    | (c, some r) => return (c, r)
    | (c, none) => stepFrame funcIdx baseSp fuel c

end Steps

section Calls

variable {η : Type} (host : Host η) (m : WasmModule)

def bodyOf (idx : Nat) : Option FuncBody :=
  if idx < m.importFuncCount then none else m.code[idx - m.importFuncCount]?

def frameLocals (ft : FuncType) (body : FuncBody) (args : List Value) : List Value :=
  (List.range ft.params.length).map (args.getD · 0) ++ body.locals.flatMap fun g => List.replicate g.1 0

def callLoop (fuel : Nat) : Nat → List Frame → Exec η Unit
  | 0, _ => halt .unfinished
  | _ + 1, [] => return ()
  | rounds + 1, frame :: rest =>
    if (frame :: rest).length > maxCallDepth then fail .stackOverflow
    else match bodyOf m frame.funcIdx with
      | none => panic
      | some body => do
        let (c, result) ← stepFrame m body.code frame.funcIdx frame.baseSp fuel frame.cursor
        let frame := { frame with cursor := c }
        match result with
        | .return_ vals =>
          truncate frame.baseSp
          pushAll vals
          callLoop fuel rounds rest
        | .call callee args =>
          emit (.call callee)
          if callee < m.importFuncCount then
            pushAll (← callHost host args m fuel callee)
            callLoop fuel rounds (frame :: rest)
          else match bodyOf m callee with
            | none => panic
            | some body =>
              let ft ← orFail (m.funcType callee) (.trap "bad callee type")
              let new : Frame := ⟨callee, (← get).stack.length, ⟨0, frameLocals ft body args, []⟩⟩
              emit (.frames (new :: frame :: rest).length)
              callLoop fuel rounds (new :: frame :: rest)

def call (fuel funcIdx : Nat) (args : List Value) : Exec η (List Value) := do
  if funcIdx < m.importFuncCount then callHost host args m fuel funcIdx
  else
    let body ← orFail (bodyOf m funcIdx) (.trap "bad func idx")
    let ft ← orFail (m.funcType funcIdx) (.trap "no func type")
    let baseSp := (← get).stack.length
    pushAll args
    if (← get).stack.length < baseSp + ft.params.length then trap "not enough args"
    else
      truncate baseSp
      emit (.frames 1)
      callLoop host m fuel fuel [⟨funcIdx, baseSp, ⟨0, frameLocals ft body args, []⟩⟩]
      let s ← get
      if s.stack.length < baseSp + ft.results.length then trap "missing return values"
      else
        let results ← stackFrom (s.stack.length - ft.results.length)
        truncate (s.stack.length - ft.results.length)
        return results

def applyElem (table : List TableEntry) (seg : ElemSegment) : List TableEntry :=
  (List.range seg.funcIdxs.length).foldl (fun t i =>
    t.set (seg.offset.toNat + i) ⟨seg.funcIdxs.getD i 0, true⟩) table

def initialTable : List TableEntry := m.elem.foldl applyElem (List.replicate (max m.tableSize 1) ⟨0, false⟩)

def minPages : Nat := max m.memMin 1

def initial (base : Nat) (ram : Nat → UInt8) (kernel : η) (trace : List Event) : Machine η where
  mem := .new base (minPages m)
  globals := m.globals.map GlobalDef.initVal
  table := initialTable m
  stack := []
  ram := fun a => if base ≤ a ∧ a < base + LinearMemory.capacity (minPages m) * wasmPageSize then 0 else ram a
  kernel := kernel
  trace := .access base (LinearMemory.capacity (minPages m) * wasmPageSize)
    (LinearMemory.new base (minPages m)).pages :: trace

def applyData : List DataSegment → Exec η Unit
  | [] => return ()
  | seg :: segs => do
    if seg.memIdx = 0 then
      if ← writeBytes seg.offset seg.data then applyData segs else fail (.memoryFault seg.offset)
    else applyData segs

def instantiate (fuel : Nat) : Exec η Unit := do
  applyData m.data
  match m.start with
  | none => return ()
  | some start =>
    let _ ← call host m fuel start []

structure World (η : Type) where
  ram : Nat → UInt8
  kernel : η
  trace : List Event

def Machine.world (s : Machine η) : World η := ⟨s.ram, s.kernel, s.trace⟩

/-- Why a computation ended, by its last event. A host function that never returned leaves no
event of its own. -/
def haltReason : List Event → Halt
  | .halted h :: _ => h
  | _ => .unfinished

def runExport (fuel idx : Nat) (args : List Value) (w : World η) : Except Halt (List Value) × World η :=
  match host.allocPages (LinearMemory.capacity (minPages m) * kernelPagesPerWasmPage) w.kernel with
  | .error k => (.error .unfinished, { w with kernel := k })
  | .ok (none, k) => (.error (.error .outOfMemory), { w with kernel := k })
  | .ok (some base, k) =>
    match (do instantiate host m fuel; call host m fuel idx args) (initial m base w.ram k w.trace) with
    | .ok (vals, s) => (.ok vals, s.world)
    | .error s => (.error (haltReason s.trace), s.world)

def callExport (fuel : Nat) (name : Bytes) (args : List Value) (w : World η) :
    Except Halt (List Value) × World η :=
  match m.findExport name with
  | none => (.error (.error .exportNotFound), w)
  | some idx => runExport host m fuel idx args w

end Calls

section Syscalls

variable {η : Type} (host : Host η)

/-- `sys_wasm_load` from the bytes of its buffer on. Errors of the module are ignored. -/
def sysWasmLoad (fuel : Nat) (bytes : Bytes) (w : World η) : Except Halt Int × World η :=
  match load bytes with
  | .error (.error _) => (.ok (-1), w)
  | .error h => (.error h, w)
  | .ok m =>
    match m.findExport (ascii "main") with
    | none => (.ok 0, w)
    | some idx =>
      match runExport host m fuel idx [] w with
      | (.error .panic, w) => (.error .panic, w)
      | (.error .unfinished, w) => (.error .unfinished, w)
      | (_, w) => (.ok 0, w)

def exitCode (result : List Value → Int) : Except Halt (List Value) → Except Halt Int
  | .ok vals => .ok (result vals)
  | .error (.error e) => if e = .trap "proc_exit" then .ok 0 else .ok (-5)
  | .error h => .error h

def sysWasmExec (fuel : Nat) (bytes : Bytes) (w : World η) : Except Halt Int × World η :=
  match validate bytes with
  | .error h => (.error h, w)
  | .ok (some _) => (.ok (-3), w)
  | .ok none =>
    match load bytes with
    | .error (.error _) => (.ok (-4), w)
    | .error h => (.error h, w)
    | .ok m =>
      match m.findExport (ascii "_start") with
      | some idx =>
        let r := runExport host m fuel idx [] w
        (exitCode (fun _ => 0) r.1, r.2)
      | none =>
        match m.findExport (ascii "main") with
        | some idx =>
          let r := runExport host m fuel idx [0, 0] w
          (exitCode (fun vals => (vals.headD 0).toInt) r.1, r.2)
        | none => (.ok 0, w)

end Syscalls

end Aeglos.Wasm
