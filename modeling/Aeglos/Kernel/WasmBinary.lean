import Aeglos.Kernel.Handlers

/-!
# WebAssembly modules

The reader of `wasm/mod.rs`. A `None` of the parser is `InvalidSection`; an access out of range is a
panic.
-/

namespace Aeglos.Wasm

inductive ValType where
  | i32
  | i64
  | f32
  | f64
  deriving DecidableEq

def ValType.fromByte (b : UInt8) : Option ValType :=
  if b = 0x7F then some .i32 else if b = 0x7E then some .i64
  else if b = 0x7D then some .f32 else if b = 0x7C then some .f64 else none

structure FuncType where
  params : List ValType
  results : List ValType

inductive ImportKind where
  | func (typeIdx : Nat)
  | table
  | memory (min : Nat) (max : Option Nat)
  | global

structure Import where
  module : Bytes
  name : Bytes
  kind : ImportKind

inductive ExportKind where
  | func
  | table
  | memory
  | global
  deriving DecidableEq

structure Export where
  name : Bytes
  kind : ExportKind
  idx : Nat

structure GlobalDef where
  valType : ValType
  mutable : Bool
  initVal : BitVec 64

structure FuncBody where
  locals : List (Nat × ValType)
  code : Bytes

structure DataSegment where
  memIdx : Nat
  offset : BitVec 32
  data : Bytes

structure ElemSegment where
  tableIdx : Nat
  offset : BitVec 32
  funcIdxs : List Nat

structure WasmModule where
  types : List FuncType := []
  imports : List Import := []
  funcTypes : List Nat := []
  tableSize : Nat := 0
  memMin : Nat := 1
  memMax : Option Nat := none
  globals : List GlobalDef := []
  exports : List Export := []
  start : Option Nat := none
  elem : List ElemSegment := []
  code : List FuncBody := []
  data : List DataSegment := []
  caps : BitVec 64 := Cap.send ||| Cap.recv

namespace WasmModule

def importedFuncs (m : WasmModule) : List (Import × Nat) :=
  m.imports.filterMap fun i => match i.kind with
    | .func ti => some (i, ti)
    | _ => none

def importFuncCount (m : WasmModule) : Nat := m.importedFuncs.length

def funcType (m : WasmModule) (idx : Nat) : Option FuncType :=
  if idx < m.importFuncCount then m.importedFuncs[idx]? >>= fun i => m.types[i.2]?
  else m.funcTypes[idx - m.importFuncCount]? >>= fun ti => m.types[ti]?

def findExport (m : WasmModule) (name : Bytes) : Option Nat :=
  (m.exports.find? fun e => e.kind = .func ∧ e.name = name).map Export.idx

end WasmModule

/-- The texts of `Trap` and `Unimplemented` are kept as they stand in the source. -/
inductive WasmError where
  | invalidMagic
  | invalidSection
  | outOfMemory
  | exportNotFound
  | trap (text : String)
  | memoryFault (addr : BitVec 32)
  | divisionByZero
  | stackOverflow
  | unimplemented (text : String)
  deriving DecidableEq

/-- Why a computation ends without a value. A loop that needs more rounds than the model gives
it is unfinished. -/
inductive Halt where
  | error (e : WasmError)
  | panic
  | unfinished
  deriving DecidableEq

section Leb

variable (data : Bytes)

def lebU32Loop : Nat → BitVec 32 → Nat → Nat → Option (BitVec 32 × Nat)
  | 0, _, _, _ => none
  | rounds + 1, result, shift, i =>
    match data[i]? with
    | none => none
    | some b =>
      let result := result ||| (b &&& 0x7F).toBitVec.setWidth 32 <<< shift
      let shift := shift + 7
      if b &&& 0x80 = 0 then some (result, i + 1)
      else if shift ≥ 35 then none
      else lebU32Loop rounds result shift (i + 1)

def readLeb128U32 (pos : Nat) : Option (Nat × Nat) :=
  (lebU32Loop data 5 0 0 pos).map fun r => (r.1.toNat, r.2 - pos)

def lebSignedLoop (width limit : Nat) : Nat → BitVec width → Nat → Nat → Option (BitVec width × Nat)
  | 0, _, _, _ => none
  | rounds + 1, result, shift, i =>
    match data[i]? with
    | none => none
    | some b =>
      let result := result ||| (b &&& 0x7F).toBitVec.setWidth width <<< shift
      let shift := shift + 7
      if b &&& 0x80 = 0 then
        if shift < width ∧ b &&& 0x40 ≠ 0 then some (result ||| -((1 : BitVec width) <<< shift), i + 1)
        else some (result, i + 1)
      else if shift ≥ limit then none
      else lebSignedLoop width limit rounds result shift (i + 1)

def readLeb128I32 (pos : Nat) : Option (BitVec 32 × Nat) :=
  (lebSignedLoop data 32 35 5 0 0 pos).map fun r => (r.1, r.2 - pos)

def readLeb128I64 (pos : Nat) : Option (BitVec 64 × Nat) :=
  (lebSignedLoop data 64 70 10 0 0 pos).map fun r => (r.1, r.2 - pos)

end Leb

structure Parser where
  data : Bytes
  pos : Nat

abbrev Parse (α : Type) := StateT Parser (Except Halt) α

namespace Parser

def new (data : Bytes) : Parser := ⟨data, 0⟩

def remaining (p : Parser) : Nat :=
  if p.pos ≤ p.data.length then p.data.length - p.pos else 2 ^ 64 + p.data.length - p.pos

def eof (p : Parser) : Bool := decide (p.pos ≥ p.data.length)

end Parser

namespace Parse

def invalid {α : Type} : Parse α := throw (.error .invalidSection)

def slice (lo hi : Nat) : Parse Bytes := do
  let p ← get
  if lo ≤ hi ∧ hi ≤ p.data.length then return (p.data.take hi).drop lo else throw .panic

def ofLeb {α : Type} (read : Bytes → Nat → Option (α × Nat)) : Parse α := do
  let p ← get
  match read p.data p.pos with
  | none => invalid
  | some (v, n) =>
    set { p with pos := p.pos + n }
    return v

def byte : Parse UInt8 := do
  let p ← get
  match p.data[p.pos]? with
  | none => invalid
  | some b =>
    set { p with pos := p.pos + 1 }
    return b

def bytes (n : Nat) : Parse Bytes := do
  let p ← get
  if p.pos + n > p.data.length then invalid
  else
    let s ← slice p.pos (p.pos + n)
    set { p with pos := p.pos + n }
    return s

def u32Leb : Parse Nat := ofLeb readLeb128U32

def i32Leb : Parse (BitVec 32) := ofLeb readLeb128I32

def i64Leb : Parse (BitVec 64) := ofLeb readLeb128I64

def name : Parse Bytes := do
  let len ← u32Leb
  return utf8Lossy (← bytes len)

def valType : Parse ValType := do
  match ValType.fromByte (← byte) with
  | none => invalid
  | some t => return t

def repeated {α : Type} (item : Parse α) : Nat → Parse (List α)
  | 0 => return []
  | n + 1 => do
    let a ← item
    return a :: (← repeated item n)

def vec {α : Type} (item : Parse α) : Parse (List α) := do
  repeated item (← u32Leb)

def vecValTypes : Parse (List ValType) := vec valType

def constOperand (op : UInt8) : Parse (BitVec 64) := do
  if op = 0x41 then return (← i32Leb).signExtend 64
  else if op = 0x42 then i64Leb
  else if op = 0x43 then
    let _ ← bytes 4
    return 0
  else if op = 0x44 then
    let _ ← bytes 8
    return 0
  else invalid

def constExpr : Parse (BitVec 64) := do
  let val ← constOperand (← byte)
  if (← byte) ≠ 0x0B then invalid else return val

def limits : Parse (Nat × Option Nat) := do
  let flag ← byte
  let min ← u32Leb
  if flag = 1 then return (min, some (← u32Leb)) else return (min, none)

def funcType : Parse FuncType := do
  if (← byte) ≠ 0x60 then invalid
  else
    let params ← vecValTypes
    let results ← vecValTypes
    return ⟨params, results⟩

def importKind : Parse ImportKind := do
  let kind ← byte
  if kind = 0x00 then return .func (← u32Leb)
  else if kind = 0x01 then
    let _ ← byte
    let _ ← limits
    return .table
  else if kind = 0x02 then
    let (min, max) ← limits
    return .memory min max
  else if kind = 0x03 then
    let _ ← valType
    let _ ← byte
    return .global
  else invalid

def import_ : Parse Import := do
  let module ← name
  let name ← name
  return ⟨module, name, ← importKind⟩

def table : Parse Nat := do
  let _ ← byte
  return (← limits).1

def global : Parse GlobalDef := do
  let vt ← valType
  let mutable := (← byte) != 0
  return ⟨vt, mutable, ← constExpr⟩

def exportKind : Parse ExportKind := do
  let kind ← byte
  if kind = 0 then return .func
  else if kind = 1 then return .table
  else if kind = 2 then return .memory
  else if kind = 3 then return .global
  else invalid

def export_ : Parse Export := do
  let name ← name
  let kind ← exportKind
  return ⟨name, kind, ← u32Leb⟩

def elemSegment : Parse ElemSegment := do
  let tableIdx ← u32Leb
  let offset ← constExpr
  return ⟨tableIdx, offset.setWidth 32, ← vec u32Leb⟩

def localGroup : Parse (Nat × ValType) := do
  let count ← u32Leb
  return (count, ← valType)

def funcBody : Parse FuncBody := do
  let locals ← vec localGroup
  let p ← get
  return ⟨locals, ← slice p.pos p.data.length⟩

def sizedBody : Parse FuncBody := do
  let size ← u32Leb
  let body ← bytes size
  (funcBody (.new body)).map Prod.fst

def dataSegment : Parse DataSegment := do
  let memIdx ← u32Leb
  let offset ← constExpr
  let len ← u32Leb
  return ⟨memIdx, offset.setWidth 32, ← bytes len⟩

/-- The contents of a section. Custom sections, the data count, which is read with errors
ignored, and unknown sections change nothing. -/
def section_ (id : UInt8) (m : WasmModule) : Parse WasmModule := do
  if id = 1 then return { m with types := m.types ++ (← vec funcType) }
  else if id = 2 then return { m with imports := m.imports ++ (← vec import_) }
  else if id = 3 then return { m with funcTypes := m.funcTypes ++ (← vec u32Leb) }
  else if id = 4 then return { m with tableSize := (← vec table).foldl max m.tableSize }
  else if id = 5 then
    match ← vec limits with
    | [] => return m
    | (min, max) :: _ => return { m with memMin := min, memMax := max }
  else if id = 6 then return { m with globals := m.globals ++ (← vec global) }
  else if id = 7 then return { m with exports := m.exports ++ (← vec export_) }
  else if id = 8 then return { m with start := some (← u32Leb) }
  else if id = 9 then return { m with elem := m.elem ++ (← vec elemSegment) }
  else if id = 10 then return { m with code := m.code ++ (← vec sizedBody) }
  else if id = 11 then return { m with data := m.data ++ (← vec dataSegment) }
  else return m

def nextSection : Parse (UInt8 × Bytes) := do
  let id ← byte
  let len ← u32Leb
  let p ← get
  if p.remaining < len then invalid
  else
    let data ← slice p.pos (p.pos + len)
    set { p with pos := p.pos + len }
    return (id, data)

end Parse

def loadSections : Nat → Parser → WasmModule → Except Halt WasmModule
  | 0, _, _ => throw .unfinished
  | rounds + 1, p, m => do
    if p.eof then return m
    let ((id, data), p) ← Parse.nextSection p
    let (m, _) ← Parse.section_ id m (.new data)
    loadSections rounds p m

def wasmMagic : Bytes := [0, 0x61, 0x73, 0x6D]

def headerOk (bytes : Bytes) : Bool :=
  decide (bytes.length ≥ 8 ∧ bytes.take 4 = wasmMagic ∧ fromLe ((bytes.drop 4).take 4) = 1)

def load (bytes : Bytes) : Except Halt WasmModule :=
  if headerOk bytes then loadSections bytes.length (.new (bytes.drop 8)) {}
  else throw (.error .invalidMagic)

/-- The loop of `validate`. The text is that of the error, `none` if it returns `Ok`. -/
def validateLoop (data : Bytes) : Nat → Nat → Except Halt (Option String)
  | 0, _ => throw .unfinished
  | rounds + 1, pos =>
    match data[pos]? with
    | none => return none
    | some id =>
      if id > 12 then return some "section ID out of valid range (0-12)"
      else match readLeb128U32 data (pos + 1) with
        | none => return some "malformed section length"
        | some (len, n) =>
          if pos + 1 + n + len > data.length then return some "section extends past end of module"
          else validateLoop data rounds (pos + 1 + n + len)

def validate (bytecode : Bytes) : Except Halt (Option String) :=
  if bytecode.length < 8 then return some "too short to be a valid WASM module"
  else if bytecode.take 4 ≠ wasmMagic then return some "invalid WASM magic bytes"
  else if fromLe ((bytecode.drop 4).take 4) ≠ 1 then return some "unsupported WASM version (expected 1)"
  else validateLoop bytecode bytecode.length 8

end Aeglos.Wasm
