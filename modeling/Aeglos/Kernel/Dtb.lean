import Aeglos.Kernel.Bytes
import Aeglos.Kernel.PageBitmap

/-!
# The flattened device tree

`dtb.rs`, and the start of the page allocator in `kernel_main`. The blob has a byte for every
offset, as the walk trusts the offsets in the header.
-/

namespace Aeglos

structure DtbInfo where
  ramBase : Nat
  ramSize : Nat
  cpuCount : Nat
  psci : Bool
  gicDist : Nat
  gicCpu : Nat
  uartBase : Nat
  timerFreq : Nat
  pcieEcam : Nat
  aicBase : Nat
  fbBase : Nat
  fbWidth : Nat
  fbHeight : Nat
  fbStride : Nat
  reserved : List (Nat × Nat)
  deriving DecidableEq

namespace Dtb

def fdtMagic : Nat := 0xD00DFEED
def defaultUartBase : Nat := 0x09000000

def defaults : DtbInfo where
  ramBase := 0x40000000
  ramSize := 0x100000000
  cpuCount := 1
  psci := false
  gicDist := 0x08000000
  gicCpu := 0x08010000
  uartBase := defaultUartBase
  timerFreq := 0
  pcieEcam := 0
  aicBase := 0
  fbBase := 0
  fbWidth := 0
  fbHeight := 0
  fbStride := 0
  reserved := []

def reserve (info : DtbInfo) (base size : Nat) : DtbInfo :=
  if info.reserved.length < 8 then { info with reserved := info.reserved ++ [(base, size)] } else info

abbrev Blob := Nat → UInt8

def rbe32 (blob : Blob) (p : Nat) : Nat :=
  (blob p).toNat * 2 ^ 24 + (blob (p + 1)).toNat * 2 ^ 16 + (blob (p + 2)).toNat * 2 ^ 8 +
    (blob (p + 3)).toNat

def rbe64 (blob : Blob) (p : Nat) : Nat := rbe32 blob p * 2 ^ 32 + rbe32 blob (p + 4)

def bytesAt (blob : Blob) (p len : Nat) : Bytes := (List.range len).map fun i => blob (p + i)

def streq (blob : Blob) (p : Nat) (want : String) : Bool :=
  bytesAt blob p (ascii want).length == ascii want && blob (p + (ascii want).length) == 0

def nameMatches (name : Bytes) (word : String) : Bool :=
  name.take (ascii word).length == ascii word &&
    (name.length == (ascii word).length || name[(ascii word).length]? == some 0x40)

inductive Ctx where
  | other | root | memory | cpus | cpu | intc | uart | resvMem | resvRegion | psci | chosen | pcie
  | simpleFb | aic
  deriving DecidableEq

def maxDepth : Nat := 12

def nodeCtx (depth : Nat) (parentCtx : Ctx) (name : Bytes) : Ctx :=
  if depth = 0 then .root
  else if nameMatches name "memory" then .memory
  else if name = ascii "cpus" then .cpus
  else if parentCtx = .cpus ∧ nameMatches name "cpu" then .cpu
  else if nameMatches name "intc" ∨ nameMatches name "gic" ∨ nameMatches name "interrupt-controller" then
    .intc
  else if nameMatches name "pl011" ∨ nameMatches name "uart" ∨ nameMatches name "serial" then .uart
  else if name = ascii "reserved-memory" then .resvMem
  else if parentCtx = .resvMem then .resvRegion
  else if name = ascii "psci" then .psci
  else if name = ascii "chosen" then .chosen
  else if nameMatches name "pcie" ∨ nameMatches name "pci" then .pcie
  else if name = ascii "aic" then .aic
  else if nameMatches name "framebuffer" ∨ nameMatches name "simple-framebuffer" ∨
      nameMatches name "display" then
    .simpleFb
  else .other

structure Walk where
  off : Nat
  depth : Nat
  ctx : Nat → Ctx
  addrCells : Nat → Nat
  sizeCells : Nat → Nat
  info : DtbInfo

def Walk.start (info : DtbInfo) : Walk := ⟨0, 0, fun _ => .other, fun _ => 2, fun _ => 2, info⟩

def Walk.current (w : Walk) : Ctx := if w.depth > 0 then w.ctx (w.depth - 1) else .other

def Walk.beginNode (w : Walk) (blob : Blob) (sblk : Nat) : Walk :=
  let name := (bytesAt blob (sblk + w.off) 128).takeWhile (· != 0)
  let newCtx := nodeCtx w.depth w.current name
  let w := { w with
    off := w.off + (name.length + 4) / 4 * 4
    info := if newCtx = .cpu then { w.info with cpuCount := w.info.cpuCount + 1 } else w.info }
  if w.depth < maxDepth then
    { w with
      ctx := Function.update w.ctx w.depth newCtx
      addrCells := if w.depth > 0 then Function.update w.addrCells w.depth (w.addrCells (w.depth - 1))
        else w.addrCells
      sizeCells := if w.depth > 0 then Function.update w.sizeCells w.depth (w.sizeCells (w.depth - 1))
        else w.sizeCells
      depth := w.depth + 1 }
  else w

def wrapU32 (n : Nat) : Nat := n % 2 ^ 32

def readCells (blob : Blob) (cells p : Nat) : Nat := if cells = 2 then rbe64 blob p else rbe32 blob p

def Walk.endNode (w : Walk) : Walk := { w with depth := w.depth - 1 }

def cpuProp (blob : Blob) (info : DtbInfo) (name propLen data : Nat) : DtbInfo :=
  let info :=
    if streq blob name "clock-frequency" ∧ propLen = 4 ∧ info.timerFreq = 0 then
      { info with timerFreq := rbe32 blob data }
    else info
  if streq blob name "enable-method" ∧ propLen ≥ 4 ∧ bytesAt blob data 4 = ascii "psci" then
    { info with psci := true }
  else info

def intcProp (blob : Blob) (info : DtbInfo) (parentAc parentSc name propLen data : Nat) : DtbInfo :=
  let entryBytes := wrapU32 ((parentAc + parentSc) * 4)
  if streq blob name "reg" ∧ propLen ≥ entryBytes * 2 then
    let dist := readCells blob parentAc data
    let cpu := readCells blob parentAc (data + entryBytes)
    { info with
      gicDist := if dist > 0 then dist else info.gicDist
      gicCpu := if cpu > 0 then cpu else info.gicCpu }
  else info

def resvProp (blob : Blob) (info : DtbInfo) (parentAc parentSc name propLen data : Nat) : DtbInfo :=
  let entryBytes := wrapU32 ((parentAc + parentSc) * 4)
  if streq blob name "reg" ∧ propLen ≥ entryBytes then
    let base := readCells blob parentAc data
    let size := readCells blob parentSc (data + wrapU32 (parentAc * 4))
    if size > 0 then reserve info base size else info
  else info

def readBase (blob : Blob) (wide : Bool) (propLen data : Nat) : Nat :=
  if wide ∧ propLen ≥ 16 then rbe64 blob data else rbe32 blob data

def fbProp (blob : Blob) (info : DtbInfo) (parentAc name propLen data : Nat) : DtbInfo :=
  let base := readBase blob (parentAc = 2) propLen data
  { info with
    fbBase := if streq blob name "reg" ∧ propLen ≥ 8 ∧ base > 0 then base else info.fbBase
    fbWidth := if streq blob name "width" ∧ propLen = 4 then rbe32 blob data else info.fbWidth
    fbHeight := if streq blob name "height" ∧ propLen = 4 then rbe32 blob data else info.fbHeight
    fbStride := if streq blob name "stride" ∧ propLen = 4 then rbe32 blob data else info.fbStride }

def nodeProp (blob : Blob) (info : DtbInfo) (cur : Ctx) (parentAc parentSc name propLen data : Nat) :
    DtbInfo :=
  match cur with
  | .memory =>
    if streq blob name "reg" ∧ propLen ≥ 16 ∧ rbe64 blob (data + 8) > 0 then
      { info with ramBase := rbe64 blob data, ramSize := rbe64 blob (data + 8) }
    else info
  | .cpu => cpuProp blob info name propLen data
  | .intc => intcProp blob info parentAc parentSc name propLen data
  | .uart =>
    let base := readBase blob (parentAc = 2) propLen data
    if streq blob name "reg" ∧ propLen ≥ 8 ∧ base > 0 ∧ info.uartBase = defaultUartBase then
      { info with uartBase := base }
    else info
  | .resvRegion => resvProp blob info parentAc parentSc name propLen data
  | .pcie =>
    let ecam := readBase blob true propLen data
    if streq blob name "reg" ∧ propLen ≥ 8 ∧ ecam > 0 ∧ info.pcieEcam = 0 then
      { info with pcieEcam := ecam }
    else info
  | .aic =>
    let base := readBase blob true propLen data
    if streq blob name "reg" ∧ propLen ≥ 4 ∧ base > 0 ∧ info.aicBase = 0 then
      { info with aicBase := base }
    else info
  | .simpleFb => fbProp blob info parentAc name propLen data
  | .other | .root | .cpus | .resvMem | .psci | .chosen => info

def Walk.prop (w : Walk) (blob : Blob) (sblk strs : Nat) : Walk :=
  let propLen := rbe32 blob (sblk + w.off)
  let name := strs + rbe32 blob (sblk + w.off + 4)
  let data := sblk + w.off + 8
  let w := { w with off := w.off + 8 + (propLen + 3) / 4 * 4 }
  let d := w.depth - 1
  let parentAc := if d > 0 then w.addrCells (d - 1) else 2
  let parentSc := if d > 0 then w.sizeCells (d - 1) else 2
  if streq blob name "#address-cells" ∧ propLen = 4 then
    { w with addrCells := Function.update w.addrCells d (rbe32 blob data) }
  else if streq blob name "#size-cells" ∧ propLen = 4 then
    { w with sizeCells := Function.update w.sizeCells d (rbe32 blob data) }
  else { w with info := nodeProp blob w.info w.current parentAc parentSc name propLen data }

/-- The memory reserve map from `rp` on, which ends with a pair of zeros; `none` when there
is none within `fuel` entries. -/
def reserveMap (blob : Blob) : Nat → Nat → DtbInfo → Option DtbInfo
  | 0, _, _ => none
  | fuel + 1, rp, info =>
    let addr := rbe64 blob rp
    let size := rbe64 blob (rp + 8)
    if addr = 0 ∧ size = 0 then some info
    else reserveMap blob fuel (rp + 16) (reserve info addr size)

/-- The structure block: every round moves on by at least a token, so `totalSize` rounds are
enough. -/
def walkStruct (blob : Blob) (totalSize offStruct offStrings : Nat) : Nat → Walk → Walk
  | 0, w => w
  | fuel + 1, w =>
    if offStruct + w.off + 4 > totalSize then w
    else
      let token := rbe32 blob (offStruct + w.off)
      let w := { w with off := w.off + 4 }
      match token with
      | 1 => walkStruct blob totalSize offStruct offStrings fuel (w.beginNode blob offStruct)
      | 2 => walkStruct blob totalSize offStruct offStrings fuel w.endNode
      | 3 => walkStruct blob totalSize offStruct offStrings fuel (w.prop blob offStruct offStrings)
      | 4 => walkStruct blob totalSize offStruct offStrings fuel w
      | _ => w

def walk (fuel : Nat) (blob : Blob) : Option DtbInfo :=
  if rbe32 blob 0 ≠ fdtMagic then some defaults
  else
    let totalSize := rbe32 blob 4
    let offStruct := rbe32 blob 8
    let offStrings := rbe32 blob 12
    let offRsvmap := rbe32 blob 16
    (reserveMap blob fuel offRsvmap defaults).map fun info =>
      let info := (walkStruct blob totalSize offStruct offStrings totalSize (.start info)).info
      if info.cpuCount > 1 then { info with cpuCount := info.cpuCount - 1 } else info

def parse (fuel : Nat) : Option Blob → Option DtbInfo
  | none => some defaults
  | some blob => walk fuel blob

end Dtb

/-- `kernel_main` up to the page allocator, which is started with the end of RAM and with no
regard to the reserved regions. `none` when the walk does not end or `init` panics. -/
def kernelMain (fuel : Nat) (blob : Option Dtb.Blob) (kernelEnd : Nat) :
    Option (DtbInfo × PageBitmap) := do
  let info ← Dtb.parse fuel blob
  let pages ← PageBitmap.init kernelEnd (wrap64 (info.ramBase + info.ramSize))
  return (info, pages)

end Aeglos
