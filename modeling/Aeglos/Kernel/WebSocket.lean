import Aeglos.Kernel.Http

/-!
# WebSocket support

`net/ws.rs`. A computation stops, and a function returns `none`, at an access out of range.
-/

namespace Aeglos.Ws

open Net Effects Slices

structure Digest where
  a : UInt32
  b : UInt32
  c : UInt32
  d : UInt32
  e : UInt32

def Digest.start : Digest := ⟨0x67452301, 0xEFCDAB89, 0x98BADCFE, 0x10325476, 0xC3D2E1F0⟩

def rotateLeft (x n : UInt32) : UInt32 := x <<< n ||| x >>> (32 - n)

def padLen (len : Nat) : Nat := if (len + 9) % 64 = 0 then 9 else 9 + (64 - (len + 9) % 64)

def padded (data : Bytes) : Option (Bytes × Nat) := do
  let tlen := min (data.length + padLen data.length) 256
  let copy ← slice data 0 (min data.length 256)
  let buf ← overwrite (List.replicate 256 0) 0 copy
  let buf ← overwriteIf (data.length < 256) buf data.length [0x80]
  let buf ← overwriteIf (tlen ≥ 8) buf (tlen - 8) (toLe (data.length * 8) 8).reverse
  return (buf, tlen)

def wordAt (buf : Bytes) (k : Nat) : Option UInt32 := do
  let b0 ← buf[k]?
  let b1 ← buf[k + 1]?
  let b2 ← buf[k + 2]?
  let b3 ← buf[k + 3]?
  return b0.toUInt32 <<< 24 ||| b1.toUInt32 <<< 16 ||| b2.toUInt32 <<< 8 ||| b3.toUInt32

def extend (w : List UInt32) (j : Nat) : Option (List UInt32) := do
  let w3 ← w[j - 3]?
  let w8 ← w[j - 8]?
  let w14 ← w[j - 14]?
  let w16 ← w[j - 16]?
  return w ++ [rotateLeft (w3 ^^^ w8 ^^^ w14 ^^^ w16) 1]

def schedule (buf : Bytes) (i : Nat) : Option (List UInt32) := do
  let w ← (List.range 16).mapM fun j => wordAt buf (i + j * 4)
  (List.range' 16 64).foldlM extend w

def mix (h : Digest) (j : Nat) : UInt32 × UInt32 :=
  if j < 20 then ((h.b &&& h.c) ||| (~~~h.b &&& h.d), 0x5A827999)
  else if j < 40 then (h.b ^^^ h.c ^^^ h.d, 0x6ED9EBA1)
  else if j < 60 then ((h.b &&& h.c) ||| (h.b &&& h.d) ||| (h.c &&& h.d), 0x8F1BBCDC)
  else (h.b ^^^ h.c ^^^ h.d, 0xCA62C1D6)

def round (w : List UInt32) (h : Digest) (j : Nat) : Option Digest := do
  let wj ← w[j]?
  let (f, k) := mix h j
  return ⟨rotateLeft h.a 5 + f + h.e + k + wj, h.a, rotateLeft h.b 30, h.c, h.d⟩

def compress (buf : Bytes) (h : Digest) (i : Nat) : Option Digest := do
  let w ← schedule buf i
  let r ← (List.range 80).foldlM (round w) h
  return ⟨h.a + r.a, h.b + r.b, h.c + r.c, h.d + r.d, h.e + r.e⟩

def Digest.bytes (h : Digest) : Bytes := [h.a, h.b, h.c, h.d, h.e].flatMap fun x => (toLe x.toNat 4).reverse

def sha1 (data : Bytes) : Option Bytes := do
  let (buf, tlen) ← padded data
  let h ← (List.range (tlen / 64)).foldlM (fun h k => compress buf h (64 * k)) Digest.start
  return h.bytes

def base64Alphabet : Bytes := ascii "ABCDEFGHIJKLMNOPQRSTUVWXYZabcdefghijklmnopqrstuvwxyz0123456789+/"

def sextet (x : UInt8) : Option UInt8 := base64Alphabet[x.toNat]?

def sextetIf (c : Prop) [Decidable c] (x : UInt8) : Option UInt8 := if c then sextet x else some 61

def base64Group (data : Bytes) (i : Nat) : Option Bytes := do
  let b0 ← data[i]?
  let b1 := (data[i + 1]?).getD 0
  let b2 := (data[i + 2]?).getD 0
  let c0 ← sextet (b0 >>> 2)
  let c1 ← sextet ((b0 &&& 3) <<< 4 ||| b1 >>> 4)
  let c2 ← sextetIf (i + 1 < data.length) ((b1 &&& 0xF) <<< 2 ||| b2 >>> 6)
  let c3 ← sextetIf (i + 2 < data.length) (b2 &&& 0x3F)
  return [c0, c1, c2, c3]

def base64Loop (data : Bytes) (room : Nat) : Nat → Nat → Bytes → Option Bytes
  | 0, _, out => some out
  | turns + 1, i, out =>
    if i < data.length ∧ out.length + 4 ≤ room then do
      base64Loop data room turns (i + 3) (out ++ (← base64Group data i))
    else some out

def base64Encode (data : Bytes) (room : Nat) : Option Bytes := base64Loop data room data.length 0 []

def wsGuid : Bytes := ascii "258EAFA5-E914-47DA-95CA-C5AB0DC85B11"

def computeAccept (key : Bytes) (room : Nat) : Option Bytes := do
  let klen := min key.length 60
  let concat ← overwrite (List.replicate 64 0) 0 (← slice key 0 klen)
  let glen := min wsGuid.length (64 - klen)
  let concat ← overwrite concat klen (← slice wsGuid 0 glen)
  let digest ← sha1 (← slice concat 0 (klen + glen))
  base64Encode digest room

def acceptParts (value : Bytes) : List Bytes :=
  [ascii "HTTP/1.1 101 Switching Protocols\r\n", ascii "Upgrade: websocket\r\n", ascii "Connection: Upgrade\r\n",
    ascii "Sec-WebSocket-Accept: ", value, ascii "\r\n\r\n"]

def wsAccept (key : Bytes) : Comp Line Bool := do
  let value ← orStop (computeAccept key 32)
  let n ← modifyGet (tcpWrite (clipped 256 (acceptParts value)))
  return decide (n > 0)

def opcodeText : UInt8 := 0x1
def opcodeClose : UInt8 := 0x8

def frameHeader (opcode : UInt8) (plen : Nat) : Bytes :=
  (0x80 ||| (opcode &&& 0x0F)) ::
    if plen ≤ 125 then [UInt8.ofNat plen]
    else if plen ≤ 65535 then [126, UInt8.ofNat (plen >>> 8), UInt8.ofNat plen]
    else [127, 0, 0, 0, 0, UInt8.ofNat (plen >>> 24), UInt8.ofNat (plen >>> 16), UInt8.ofNat (plen >>> 8), UInt8.ofNat plen]

def wsSendFrame (opcode : UInt8) (payload : Bytes) : Comp Line Unit := do
  let _ ← modifyGet (tcpWrite (frameHeader opcode payload.length))
  if payload ≠ [] then
    let _ ← modifyGet (tcpWrite payload)

def wsSendText (data : Bytes) : Comp Line Unit := wsSendFrame opcodeText data

def wsSendClose : Comp Line Unit := wsSendFrame opcodeClose []

def waitRead (n : Nat) : Comp Line (Option Bytes) := do
  if ← modifyGet tcpWaitReadable then return some (← modifyGet (tcpRead n)) else return none

def payloadLen (len7 : Nat) : Comp Line (Option Nat) := do
  if len7 ≤ 125 then return some len7
  else if len7 = 126 then
    match ← waitRead 2 with
    | none => return none
    | some bytes => if bytes.length < 2 then return none else return some (fromLe bytes.reverse)
  else
    match ← waitRead 8 with
    | none => return none
    | some bytes => return some (fromLe ((bytes ++ List.replicate (8 - bytes.length) 0).drop 4).reverse)

def readMask (masked : Bool) : Comp Line (Option Bytes) := do
  if masked then
    match ← waitRead 4 with
    | none => return none
    | some bytes => if bytes.length < 4 then return none else return some bytes
  else return some [0, 0, 0, 0]

def payloadLoop (room toRead : Nat) : Nat → Bytes → Comp Line Bytes
  | 0, got => return got
  | turns + 1, got => do
    if got.length < toRead then
      if !(← modifyGet tcpWaitReadable) then return got
      let n ← orStop (extent room got.length toRead)
      let bytes ← modifyGet (tcpRead n)
      if bytes = [] then return got
      payloadLoop room toRead turns (got ++ bytes)
    else return got

def unmask (mask got : Bytes) : Option Bytes := got.zipIdx.mapM fun p => (mask[p.2 % 4]?).map (p.1 ^^^ ·)

def wsRecvFrame (room : Nat) : Comp Line (Option (UInt8 × Bytes)) := do
  match ← waitRead 2 with
  | some [b0, b1] =>
    match ← payloadLen (b1 &&& 0x7F).toNat with
    | none => return none
    | some plen =>
      match ← readMask (decide (b1 &&& 0x80 ≠ 0)) with
      | none => return none
      | some mask =>
        let got ← payloadLoop room (min plen room) (min plen room) []
        if b1 &&& 0x80 ≠ 0 then return some (b0 &&& 0x0F, ← orStop (unmask mask got))
        else return some (b0 &&& 0x0F, got)
  | _ => return none

def isAsciiWhitespace (b : UInt8) : Bool := decide (b = 32 ∨ b = 9 ∨ b = 10 ∨ b = 12 ∨ b = 13)

def headerValue (rest : Bytes) : Option Bytes := do
  let val := (← sliceFrom rest 1).dropWhile isAsciiWhitespace
  if val.getLast? = some 13 then slice val 0 (val.length - 1) else return val

def headerLoop (raw name : Bytes) : Nat → Nat → Option (Option Bytes)
  | 0, _ => some none
  | turns + 1, i =>
    if i < raw.length then do
      let rest ← sliceFrom raw i
      let eol := ((rest.findIdx? (· = 10)).map (i + ·)).getD raw.length
      let line ← slice raw i eol
      if line.head? = some 13 ∨ line = [] then return none
      if line.length > name.length + 1 ∧ (line.take name.length).map toAsciiLowercase = name.map toAsciiLowercase ∧
          (line.drop name.length).head? = some 58 then
        return some (← headerValue (line.drop name.length))
      headerLoop raw name turns (eol + 1)
    else some none

def findHeaderValue (raw name : Bytes) : Option (Option Bytes) := headerLoop raw name (raw.length + 1) 0

end Aeglos.Ws
