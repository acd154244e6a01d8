import Aeglos.Library.Slices
import Aeglos.Kernel.Bytes

/-!
# The certificate parser

`net/x509.rs`. The outer `none` of a function is a panic, or a loop that has had all of its turns.
-/

namespace Aeglos.X509

open Slices

def tagInteger : UInt8 := 0x02
def tagOid : UInt8 := 0x06
def tagUtf8str : UInt8 := 0x0C
def tagPrintstr : UInt8 := 0x13
def tagT61str : UInt8 := 0x14
def tagIa5str : UInt8 := 0x16
def tagUtctime : UInt8 := 0x17
def tagGentime : UInt8 := 0x18
def tagSequence : UInt8 := 0x30
def tagSet : UInt8 := 0x31
def tagCtx0 : UInt8 := 0xA0
def tagCtx3 : UInt8 := 0xA3
def tagDnsname : UInt8 := 0x82

def oidCn : Bytes := [0x55, 0x04, 0x03]
def oidSan : Bytes := [0x55, 0x1D, 0x11]

structure Der where
  data : Bytes
  pos : Nat

namespace Der

def sub (data : Bytes) : Der := ⟨data, 0⟩

def remaining (d : Der) : Prop := d.pos < d.data.length

instance (d : Der) : Decidable d.remaining := inferInstanceAs (Decidable (_ < _))

def peekTag (d : Der) : Option (Option UInt8) :=
  if d.remaining then do
    let b ← d.data[d.pos]?
    return some b
  else some none

def advance (d : Der) (n : Nat) : Option Der := do
  let pos ← checked 64 (d.pos + n)
  return { d with pos := pos }

def lenBytes : Nat → Nat → Der → Option (Nat × Der)
  | 0, len, d => some (len, d)
  | n + 1, len, d => do
    let b ← d.data[d.pos]?
    lenBytes n (len * 256 + b.toNat) (← d.advance 1)

def readLen (d : Der) : Option (Option Nat × Der) :=
  if d.pos ≥ d.data.length then some (none, d)
  else do
    let b ← d.data[d.pos]?
    let d ← d.advance 1
    if b < 0x80 then return (some b.toNat, d)
    let n := (b &&& 0x7F).toNat
    let stop ← checked 64 (d.pos + n)
    if n = 0 ∨ n > 4 ∨ stop > d.data.length then return (none, d)
    let (len, d) ← lenBytes n 0 d
    return (some len, d)

def nextTlv (d : Der) : Option (Option (UInt8 × Bytes) × Der) :=
  if d.pos ≥ d.data.length then some (none, d)
  else do
    let tag ← d.data[d.pos]?
    let d ← d.advance 1
    match ← d.readLen with
    | (none, d) => return (none, d)
    | (some len, d) =>
      let stop ← checked 64 (d.pos + len)
      if stop > d.data.length then return (none, d)
      let val ← slice d.data d.pos stop
      return (some (tag, val), { d with pos := stop })

def skip (d : Der) : Option Der := do
  let (_, d) ← d.nextTlv
  return d

def skipIf (tag : UInt8) (d : Der) : Option Der := do
  if (← d.peekTag) = some tag then d.skip else return d

def expect (tag : UInt8) (d : Der) : Option (Option (Bytes × Der)) := do
  match ← d.nextTlv with
  | (some (t, val), d) => if t = tag then return some (val, d) else return none
  | (none, _) => return none

end Der

def isAsciiDigit (b : UInt8) : Prop := 48 ≤ b ∧ b ≤ 57

instance (b : UInt8) : Decidable (isAsciiDigit b) := inferInstanceAs (Decidable (_ ∧ _))

def parse2 (a b : UInt8) : Option (Option Nat) :=
  if isAsciiDigit a ∧ isAsciiDigit b then do
    let tens ← checkedSub a.toNat 48
    let ones ← checkedSub b.toNat 48
    return some (← checked 32 (tens * 10 + ones))
  else some none

def isLeap (y : Nat) : Prop := (y % 4 = 0 ∧ y % 100 ≠ 0) ∨ y % 400 = 0

instance (y : Nat) : Decidable (isLeap y) := inferInstanceAs (Decidable (_ ∨ _))

def daysInMonth (m y : Nat) : Nat :=
  if m ∈ [1, 3, 5, 7, 8, 10, 12] then 31
  else if m ∈ [4, 6, 9, 11] then 30
  else if m = 2 then (if isLeap y then 29 else 28)
  else 0

def yearDays (year : Nat) : Nat := ((List.range' 1970 (year - 1970)).map fun y => if isLeap y then 366 else 365).sum

def monthDays (year mon : Nat) : Nat := ((List.range' 1 (mon - 1)).map fun m => daysInMonth m year).sum

def ymdHmsToUnix (year mon day hour min sec : Nat) : Option Nat :=
  if year < 1970 ∨ mon < 1 ∨ mon > 12 ∨ day < 1 ∨ day > 31 then some 0
  else do
    let last ← checkedSub day 1
    let days ← checked 64 (yearDays year + monthDays year mon + last)
    checked 64 (days * 86400 + hour * 3600 + min * 60 + sec)

def parse2At (v : Bytes) (i default : Nat) : Option Nat := do
  let a ← v[i]?
  let b ← v[i + 1]?
  let n ← parse2 a b
  return n.getD default

def parseUtctime (v : Bytes) : Option Nat :=
  if v.length < 13 then some 0
  else do
    let yy ← parse2At v 0 99
    let year ← checked 32 (if yy ≤ 49 then 2000 + yy else 1900 + yy)
    ymdHmsToUnix year (← parse2At v 2 0) (← parse2At v 4 0) (← parse2At v 6 0) (← parse2At v 8 0) (← parse2At v 10 0)

def parseGentime (v : Bytes) : Option Nat :=
  if v.length < 15 then some 0
  else do
    let year ← checked 32 ((← parse2At v 0 0) * 100 + (← parse2At v 2 0))
    ymdHmsToUnix year (← parse2At v 4 0) (← parse2At v 6 0) (← parse2At v 8 0) (← parse2At v 10 0) (← parse2At v 12 0)

def parseTime (other : Nat) (tag : UInt8) (v : Bytes) : Option Nat :=
  if tag = tagUtctime then parseUtctime v
  else if tag = tagGentime then parseGentime v
  else some other

/-- `san` holds the names that were stored, of which there is room for eight. -/
structure CertInfo where
  cn : Option Bytes
  san : List Bytes
  notBefore : Nat
  notAfter : Nat

def CertInfo.empty : CertInfo := ⟨none, [], 0, 0⟩

def CertInfo.addSan (info : CertInfo) (name : Bytes) : Option CertInfo :=
  if info.san.length < 8 then some { info with san := info.san ++ [name] } else none

/-- The loop over the attributes of one RDN. The result is `none` where the loop ends by itself, and
otherwise what `extract_cn` returns. -/
def cnOfRdn : Nat → Der → Option (Option (Option Bytes))
  | 0, _ => none
  | turns + 1, rdn =>
    if rdn.remaining then do
      match ← rdn.nextTlv with
      | (none, _) => return some none
      | (some (tAtv, atvVal), rdn) =>
        if tAtv ≠ tagSequence then
          let rest ← cnOfRdn turns rdn
          return rest
        match ← (Der.sub atvVal).nextTlv with
        | (none, _) => return some none
        | (some (tOid, oidVal), atv) =>
          if tOid ≠ tagOid ∨ oidVal ≠ oidCn then
            let rest ← cnOfRdn turns rdn
            return rest
          match ← atv.nextTlv with
          | (none, _) => return some none
          | (some (tv, vv), _) =>
            if tv ∈ [tagUtf8str, tagPrintstr, tagT61str, tagIa5str] then return some (some vv)
            cnOfRdn turns rdn
    else some none

def cnOfName : Nat → Der → Option (Option Bytes)
  | 0, _ => none
  | turns + 1, d =>
    if d.remaining then do
      match ← d.nextTlv with
      | (none, _) => return none
      | (some (tRdn, rdnVal), d) =>
        if tRdn ≠ tagSet then
          let rest ← cnOfName turns d
          return rest
        match ← cnOfRdn (rdnVal.length + 1) (Der.sub rdnVal) with
        | some r => return r
        | none => cnOfName turns d
    else some none

def extractCn (nameVal : Bytes) : Option (Option Bytes) := cnOfName (nameVal.length + 1) (Der.sub nameVal)

def sanNames : Nat → Der → CertInfo → Option CertInfo
  | 0, _, _ => none
  | turns + 1, seq, info =>
    if seq.remaining ∧ info.san.length < 8 then do
      match ← seq.nextTlv with
      | (none, _) => return info
      | (some (gnTag, gnVal), seq) =>
        if gnTag = tagDnsname then
          let rest ← sanNames turns seq (← info.addSan gnVal)
          return rest
        sanNames turns seq info
    else some info

def extractSan (extnVal : Bytes) (info : CertInfo) : Option CertInfo := do
  match ← (Der.sub extnVal).nextTlv with
  | (none, _) => return info
  | (some (t, seqVal), _) =>
    if t ≠ tagSequence then return info
    sanNames (seqVal.length + 1) (Der.sub seqVal) info

def parseExtension (extBody : Bytes) (info : CertInfo) : Option CertInfo := do
  match ← (Der.sub extBody).nextTlv with
  | (none, _) => return info
  | (some (tOid, oidVal), ext) =>
    if tOid ≠ tagOid then return info
    let ext ← ext.skipIf 0x01
    match ← ext.nextTlv with
    | (none, _) => return info
    | (some (tOct, octVal), _) =>
      if tOct ≠ 0x04 then return info
      if oidVal = oidSan then extractSan octVal info else return info

def extensionLoop : Nat → Der → CertInfo → Option CertInfo
  | 0, _, _ => none
  | turns + 1, exts, info =>
    if exts.remaining then do
      match ← exts.nextTlv with
      | (none, _) => return info
      | (some (tExt, extBody), exts) =>
        if tExt ≠ tagSequence then
          let rest ← extensionLoop turns exts info
          return rest
        extensionLoop turns exts (← parseExtension extBody info)
    else some info

def parseExtensions (extVal : Bytes) (info : CertInfo) : Option CertInfo := do
  match ← (Der.sub extVal).nextTlv with
  | (none, _) => return info
  | (some (tOuter, seqVal), _) =>
    if tOuter ≠ tagSequence then return info
    extensionLoop (seqVal.length + 1) (Der.sub seqVal) info

def skipToExtensions : Nat → Der → Option Der
  | 0, _ => none
  | turns + 1, tbs => do
    match ← tbs.peekTag with
    | none => return tbs
    | some tag => if tag = tagCtx3 then return tbs else skipToExtensions turns (← tbs.skip)

def parseCert (der : Bytes) : Option (Option CertInfo) := do
  let some (certVal, _) ← (Der.sub der).expect tagSequence | return none
  let some (tbsVal, _) ← (Der.sub certVal).expect tagSequence | return none
  let tbs ← (Der.sub tbsVal).skipIf tagCtx0
  let some (_, tbs) ← tbs.expect tagInteger | return none
  let some (_, tbs) ← tbs.expect tagSequence | return none
  let some (_, tbs) ← tbs.expect tagSequence | return none
  let some (valBody, tbs) ← tbs.expect tagSequence | return none
  let (some (tNb, nbVal), validity) ← (Der.sub valBody).nextTlv | return none
  let notBefore ← parseTime 0 tNb nbVal
  let (some (tNa, naVal), _) ← validity.nextTlv | return none
  let notAfter ← parseTime (2 ^ 64 - 1) tNa naVal
  let some (subVal, tbs) ← tbs.expect tagSequence | return none
  let cn ← extractCn subVal
  let some (_, tbs) ← tbs.expect tagSequence | return none
  let info : CertInfo := { CertInfo.empty with cn := cn, notBefore := notBefore, notAfter := notAfter }
  let tbs ← skipToExtensions (tbsVal.length + 1) tbs
  if (← tbs.peekTag) = some tagCtx3 then
    let (some (_, extVal), _) ← tbs.nextTlv | return none
    let info ← parseExtensions extVal info
    return some info
  return some info

def asciiEqCi (a b : Bytes) : Bool := a.map toAsciiLowercase == b.map toAsciiLowercase

def dnsNameMatch (pattern host : Bytes) : Option Bool :=
  if [42, 46].isPrefixOf pattern then do
    let patSuffix ← sliceFrom pattern 2
    match host.findIdx? fun b => b == 46 with
    | some dot =>
      let hostSuffix ← sliceFrom host (← checked 64 (dot + 1))
      return asciiEqCi patSuffix hostSuffix
    | none => return false
  else some (asciiEqCi pattern host)

def anyNameMatch (host : Bytes) : List Bytes → Option Bool
  | [] => some false
  | san :: rest => do if ← dnsNameMatch san host then return true else anyNameMatch host rest

def hostnameMatch (info : CertInfo) (host : Bytes) : Option Bool :=
  if info.san.length > 0 then anyNameMatch host info.san
  else match info.cn with
    | some cn => dnsNameMatch cn host
    | none => some false

def validityOk (now : Nat) (info : CertInfo) : Bool :=
  now = 0 || (decide (info.notBefore ≤ now) && decide (now ≤ info.notAfter))

structure Slice where
  bytes : Bytes
  fits : bytes.length < 2 ^ 63

def u24 (p : Bytes) (i : Nat) : Option Nat := do
  let a ← p[i]?
  let b ← p[← checked 64 (i + 1)]?
  let c ← p[← checked 64 (i + 2)]?
  return a.toNat * 65536 + b.toNat * 256 + c.toNat

def verifyCertChain (now : Nat) (msgBody host : Slice) : Option Bool := do
  let msg := msgBody.bytes
  if msg.length < 4 then return false
  let contextLen := (← msg[0]?).toNat
  if msg.length < 1 + contextLen + 3 then return false
  let listLen ← u24 msg (1 + contextLen)
  let pos := 1 + contextLen + 3
  let listEnd ← checked 64 (pos + listLen)
  if listEnd > msg.length then return false
  if (← checked 64 (pos + 3)) > listEnd then return false
  let certLen ← u24 msg pos
  let pos := pos + 3
  let certEnd ← checked 64 (pos + certLen)
  if certEnd > listEnd then return false
  let certDer ← slice msg pos certEnd
  match ← parseCert certDer with
  | none => return false
  | some info =>
    if !validityOk now info then return false
    hostnameMatch info host.bytes

end Aeglos.X509
