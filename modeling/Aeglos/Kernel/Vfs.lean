import Aeglos.Kernel.Fat32
import Aeglos.Kernel.Task

/-!
# The virtual file system

The descriptor table, the pipes and the synthetic files of `fs/mod.rs`, and the table of
`config.rs`.
-/

namespace Aeglos

abbrev vfsMaxFd : Nat := 16
abbrev maxPipes : Nat := 8
abbrev pipeCap : Nat := 4096

/-- An open file; the contents of an inline file are the first `len` bytes of its buffer. -/
inductive VfsFd where
  | fat32 (fd : Fin maxOpen)
  | inline (content : Bytes) (pos : Nat) (writable : Bool)
  | pipe (id : Fin maxPipes) (writeEnd : Bool)

structure PipeBuf where
  data : Fin pipeCap → UInt8
  readPos : Nat
  writePos : Nat
  count : Nat
  openRead : Bool
  openWrite : Bool

namespace PipeBuf

def new : PipeBuf := ⟨fun _ => 0, 0, 0, 0, false, false⟩

def readBytes (p : PipeBuf) (len : Nat) : Bytes × PipeBuf :=
  let n := min len p.count
  ((List.range n).map fun i => p.data (Fin.ofNat pipeCap (p.readPos + i)),
    { p with readPos := (p.readPos + n) % pipeCap, count := p.count - n })

def store (p : PipeBuf) : Bytes → PipeBuf
  | [] => p
  | b :: bs => store { p with
      data := Function.update p.data (Fin.ofNat pipeCap p.writePos) b
      writePos := (p.writePos + 1) % pipeCap } bs

def writeBytes (p : PipeBuf) (src : Bytes) : Nat × PipeBuf :=
  let n := min src.length (pipeCap - p.count)
  (n, { p.store (src.take n) with count := p.count + n })

end PipeBuf

structure Vfs where
  fds : Fin vfsMaxFd → Option VfsFd
  pipes : Fin maxPipes → PipeBuf

namespace Vfs

def vfsAlloc (v : Vfs) (fd : VfsFd) : Option (Fin vfsMaxFd) × Vfs :=
  match (List.finRange vfsMaxFd).find? fun i => (v.fds i).isNone with
  | none => (none, v)
  | some i => (some i, { v with fds := Function.update v.fds i (some fd) })

def setFd (v : Vfs) (i : Fin vfsMaxFd) (fd : Option VfsFd) : Vfs := { v with fds := Function.update v.fds i fd }

def setPipe (v : Vfs) (id : Fin maxPipes) (p : PipeBuf) : Vfs := { v with pipes := Function.update v.pipes id p }

def fd (v : Vfs) (n : Nat) : Option (Fin vfsMaxFd × VfsFd) :=
  if h : n < vfsMaxFd then (v.fds ⟨n, h⟩).map fun fd => (⟨n, h⟩, fd) else none

end Vfs

inductive Backend where
  | fat32
  | proc
  | mem
  deriving DecidableEq

def procPrefix : Bytes := ascii "/proc"
def memPrefix : Bytes := ascii "/mem"

def route (path : Bytes) : Backend :=
  if procPrefix.isPrefixOf path then .proc
  else if memPrefix.isPrefixOf path then .mem
  else .fat32

structure ProcInfo where
  totalTicks : Nat
  idleTicks : Nat
  freePages : Nat
  totalPages : Nat
  ip : Bytes
  mac : Bytes
  tasks : List (Nat × BitVec 64 × Bytes)

namespace ProcInfo

def inlineSize : Nat := 512

def writeStr (buf s : Bytes) : Bytes := buf ++ s.take (inlineSize - buf.length)

def digits : Nat → Nat → Bytes
  | 0, _ => []
  | fuel + 1, n => if n = 0 then [] else UInt8.ofNat (48 + n % 10) :: digits fuel (n / 10)

def writeDec (buf : Bytes) (n : Nat) : Bytes :=
  if n = 0 then writeStr buf [48]
  else buf ++ ((digits 20 n).take (inlineSize - buf.length)).reverse

def hexDigit (n : Nat) : UInt8 := UInt8.ofNat (if n < 10 then 48 + n else 87 + n)

def writeHex (buf : Bytes) (width : Nat) (n : Nat) : Bytes :=
  (List.range width).foldl (fun buf i => writeStr buf [hexDigit (n / 16 ^ (width - 1 - i) % 16)]) buf

def writeLine (buf : Bytes) (label : String) (n : Nat) (unit : String) : Bytes :=
  writeStr (writeDec (writeStr buf (ascii label)) n) (ascii unit)

def writeIp (ip : Bytes) : Bytes :=
  (List.range 4).foldl (fun buf i =>
    let buf := writeDec buf (ip.getD i 0).toNat
    if i < 3 then writeStr buf [46] else buf) []

def writeMac (mac : Bytes) : Bytes :=
  (List.range 6).foldl (fun buf i =>
    let buf := writeHex buf 2 (mac.getD i 0).toNat
    if i < 5 then writeStr buf [58] else buf) []

def writeTask (buf : Bytes) (task : Nat × BitVec 64 × Bytes) : Bytes :=
  let (tid, caps, name) := task
  let name := name.takeWhile (· ≠ 0)
  let buf := writeStr (writeDec buf tid) (ascii "    ")
  let buf := writeStr (writeStr buf name) (List.replicate (17 - name.length) 32)
  writeStr (writeHex (writeStr buf (ascii "0x")) 16 caps.toNat) [10]

def writeTasks : List (Nat × BitVec 64 × Bytes) → Bytes → Bytes
  | [], buf => buf
  | task :: tasks, buf =>
    let buf := writeTask buf task
    if buf.length + 40 > inlineSize then buf else writeTasks tasks buf

def megabytes (pages : Nat) : Nat := pages * pageSize / (1024 * 1024)

def procNode (path : Bytes) : Bytes := trimSlashes (stripOr (ascii "proc") (trimSlashes path))

def procOpen (i : ProcInfo) (path : Bytes) : Option VfsFd :=
  let node := procNode path
  let file := fun content => some (VfsFd.inline content 0 false)
  if node = ascii "version" then
    file (writeStr [] (ascii "Aeglos OS 1.0 (AArch64 bare-metal)\n"))
  else if node = ascii "uptime" then
    file (writeLine [] "" (i.totalTicks / 100) " seconds\n")
  else if node = ascii "meminfo" then
    let total := megabytes i.totalPages
    let free := megabytes i.freePages
    let buf := writeLine [] "MemTotal:  " total " MB\n"
    let buf := writeLine buf "MemFree:   " free " MB\n"
    file (writeLine buf "MemUsed:   " (total - free) " MB\n")
  else if node = ascii "net/ip" ∨ node = ascii "net" then
    file (writeStr (writeIp i.ip) [10])
  else if node = ascii "net/mac" then file (writeStr (writeMac i.mac) [10])
  else if node = ascii "cpuinfo" then
    file (writeLine [] "Architecture: AArch64\nCPUs:         " maxCpus
      "\nModel:        QEMU virt (ARMv8.2-A)\n")
  else if node = ascii "tasks" then
    file (writeTasks i.tasks (writeStr [] (ascii "TID  NAME             CAPS\n")))
  else if node = ascii "stats" then
    let cpu := if i.totalTicks > 0 then 100 - i.idleTicks * 100 / i.totalTicks else 0
    let buf := writeLine [] "cpu_pct:   " cpu "%\n"
    file (writeLine buf "task_cnt:  " i.tasks.length "\n")
  else none

end ProcInfo

def procReaddir (path : Bytes) : List (Bytes × Bool) :=
  let node := ProcInfo.procNode path
  if node = [] then
    [(ascii "version", false), (ascii "uptime", false),
      (ascii "meminfo", false), (ascii "cpuinfo", false),
      (ascii "tasks", false), (ascii "stats", false),
      (ascii "net", true)]
  else if node = ascii "net" then [(ascii "ip", false), (ascii "mac", false)]
  else []

def nameMax : Nat := 255

/-- The bytes of a `DirEntry` that a listing stores, each run with its offset in the record:
the name with its NUL, the directory flag with the padding, and the size. -/
def dirEntryBytes (name : Bytes) (isDir : Bool) (size : Nat) : List (Nat × Bytes) :=
  [(0, name.take nameMax ++ [0]), (256, [if isDir then 1 else 0, 0, 0]), (260, toLe size 4)]

def dirEntrySize : Nat := 264

abbrev configMaxEntries : Nat := 32
abbrev keyMax : Nat := 32
abbrev valMax : Nat := 128

structure ConfigEntry where
  key : Bytes
  val : Bytes

namespace Config

def nextLine (data : Bytes) : Bytes × Bytes := (data.takeWhile (· ≠ 10), (data.dropWhile (· ≠ 10)).drop 1)

def parseLine (line : Bytes) : Option ConfigEntry :=
  let line := if line.getLast? = some 13 then line.dropLast else line
  match line.findIdx? (· == 61) with
  | none => none
  | some eq => some ⟨(line.take eq).take keyMax, (line.drop (eq + 1)).take valMax⟩

def parseLoop : Nat → Bytes → List ConfigEntry → List ConfigEntry
  | 0, _, table => table
  | fuel + 1, data, table =>
    if data = [] ∨ table.length ≥ configMaxEntries then table
    else
      let (line, rest) := nextLine data
      match parseLine line with
      | none => parseLoop fuel rest table
      | some entry => parseLoop fuel rest (table ++ [entry])

def parseConfig (data : Bytes) : List ConfigEntry := parseLoop data.length data []

def serialise (cap : Nat) (table : List ConfigEntry) : Bytes :=
  ((table.filter fun e => e.key ≠ []).flatMap fun e => e.key ++ 61 :: e.val ++ [10]).take cap

/-- A key or value that is not UTF-8 reads as the empty string. -/
def configGet (table : List ConfigEntry) (key : Bytes) : Option Bytes :=
  (table.find? fun e => strOrEmpty e.key = key).map fun e => strOrEmpty e.val

def configSet (table : List ConfigEntry) (key val : Bytes) : Option (List ConfigEntry) :=
  if key.length > keyMax ∨ val.length > valMax then none
  else match table.findIdx? fun e => strOrEmpty e.key = key with
    | some i => some (table.modify i fun e => { e with val := val })
    | none => if table.length ≥ configMaxEntries then none else some (table ++ [⟨key, val⟩])

def configRemove (table : List ConfigEntry) (key : Bytes) : Option (List ConfigEntry) :=
  (table.findIdx? fun e => strOrEmpty e.key = key).map table.eraseIdx

end Config

end Aeglos
