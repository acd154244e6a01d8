import Aeglos.Kernel.Http
import Aeglos.Kernel.X509

/-!
# The TLS client

`net/tls.rs` over a connection. A running hash is the bytes it has been given. The outer `none` of
a function is a panic.
-/

namespace Aeglos.Tls

open Slices Net X509

section Crypto

/-- The crates `sha2`, `hmac`, `hkdf`, `x25519_dalek` and `aes_gcm`. -/
structure Crypto where
  sha256 : Bytes → Bytes
  hmac : Bytes → Bytes → Bytes
  /-- `Hkdf::extract` with salt and input -/
  extract : Bytes → Bytes → Bytes
  /-- `Hkdf::from_prk` with the key and then `expand`; nothing where one of them returns an error -/
  expand : Bytes → Bytes → Nat → Option Bytes
  publicKey : Bytes → Bytes
  diffieHellman : Bytes → Bytes → Bytes
  /-- key, nonce, plaintext and additional data -/
  encrypt : Bytes → Bytes → Bytes → Bytes → Option Bytes
  decrypt : Bytes → Bytes → Bytes → Bytes → Option Bytes
  length_extract : ∀ salt ikm, (extract salt ikm).length = 32
  /-- `from_prk` takes no key that is shorter than a hash. -/
  expand_short : ∀ prk info len, prk.length < 32 → expand prk info len = none
  expand_long : ∀ prk info len, 32 ≤ prk.length → len ≤ 255 * 32 → ∃ out, expand prk info len = some out ∧ out.length = len
  length_publicKey : ∀ secret, (publicKey secret).length = 32
  agree : ∀ a b, diffieHellman a (publicKey b) = diffieHellman b (publicKey a)
  /-- what is encrypted can be decrypted; the tag has 16 bytes -/
  decrypt_encrypt : ∀ key nonce pt aad ct, encrypt key nonce pt aad = some ct →
    ct.length = pt.length + 16 ∧ decrypt key nonce ct aad = some pt

variable (c : Crypto)

def u16Bytes (n : Nat) : Bytes := [UInt8.ofNat (n / 256), UInt8.ofNat n]

def hkdfExpandLabel (secret label context : Bytes) (len : Nat) : Option Bytes :=
  let fullLabel := ascii "tls13 " ++ label
  c.expand secret
    (u16Bytes len ++ [UInt8.ofNat fullLabel.length] ++ fullLabel ++ [UInt8.ofNat context.length] ++ context) len

def zeros32 : Bytes := List.replicate 32 0

structure Keys where
  serverKey : Bytes
  serverIv : Bytes
  clientKey : Bytes
  clientIv : Bytes
deriving DecidableEq

def Keys.zeroed : Keys := ⟨List.replicate 16 0, List.replicate 12 0, List.replicate 16 0, List.replicate 12 0⟩

def handshakeSecret (sharedSecret : Bytes) : Option Bytes := do
  let earlySecret := c.extract zeros32 zeros32
  let derived ← hkdfExpandLabel c earlySecret (ascii "derived") (c.sha256 []) 32
  return c.extract derived sharedSecret

def trafficKeys (serverTs clientTs : Bytes) : Option Keys := do
  let sKey ← slice (← hkdfExpandLabel c serverTs (ascii "key") [] 16) 0 16
  let sIv ← slice (← hkdfExpandLabel c serverTs (ascii "iv") [] 12) 0 12
  let cKey ← slice (← hkdfExpandLabel c clientTs (ascii "key") [] 16) 0 16
  let cIv ← slice (← hkdfExpandLabel c clientTs (ascii "iv") [] 12) 0 12
  return ⟨sKey, sIv, cKey, cIv⟩

def deriveHandshakeKeys (sharedSecret transcriptHash : Bytes) : Option Keys := do
  let hsSecret ← handshakeSecret c sharedSecret
  let sHsTs ← hkdfExpandLabel c hsSecret (ascii "s hs traffic") transcriptHash 32
  let cHsTs ← hkdfExpandLabel c hsSecret (ascii "c hs traffic") transcriptHash 32
  trafficKeys c sHsTs cHsTs

def deriveAppKeys (sharedSecret transcriptHash : Bytes) : Option Keys := do
  let hsSecret ← handshakeSecret c sharedSecret
  let hsDerived ← hkdfExpandLabel c hsSecret (ascii "derived") (c.sha256 []) 32
  let masterSecret := c.extract hsDerived zeros32
  let sAppTs ← hkdfExpandLabel c masterSecret (ascii "s ap traffic") transcriptHash 32
  let cAppTs ← hkdfExpandLabel c masterSecret (ascii "c ap traffic") transcriptHash 32
  trafficKeys c sAppTs cAppTs

def seqBytes (seq : Nat) : Bytes := (List.range 8).map fun i => UInt8.ofNat (seq / 256 ^ (7 - i))

def makeNonce (ivBase : Bytes) (seq : Nat) : Bytes :=
  ivBase.take 4 ++ List.zipWith (· ^^^ ·) (ivBase.drop 4) (seqBytes seq)

def aesGcmDecrypt (key ivBase : Bytes) (seq : Nat) (ciphertext aad : Bytes) : Option Bytes :=
  c.decrypt key (makeNonce ivBase seq) ciphertext aad

def aesGcmEncrypt (key ivBase : Bytes) (seq : Nat) (plaintext aad : Bytes) : Option Bytes :=
  c.encrypt key (makeNonce ivBase seq) plaintext aad

end Crypto

def tlsRecord (recordType : UInt8) (payload : Bytes) : Bytes :=
  [recordType, 0x03, 0x01] ++ u16Bytes payload.length ++ payload

def fill : Nat → Nat → Line → Bytes × Line
  | 0, _, l => ([], l)
  | turns + 1, need, l =>
    if need = 0 then ([], l)
    else
      let (ready, l) := tcpWaitReadable l
      if ready then
        let (bytes, l) := tcpRead need l
        if bytes = [] then ([], l)
        else
          let (rest, l) := fill turns (need - bytes.length) l
          (bytes ++ rest, l)
      else ([], l)

def payloadLen (hdr : Bytes) : Nat := (hdr.getD 3 0).toNat * 256 + (hdr.getD 4 0).toNat

def readRecord (size : Nat) (l : Line) : Bytes × Line :=
  let (hdr, l) := fill 5 5 l
  if hdr.length < 5 then ([], l)
  else if payloadLen hdr + 5 > size then ([], l)
  else
    let (body, l) := fill (payloadLen hdr) (payloadLen hdr) l
    (hdr ++ body, l)

def recordAad (len : Nat) : Bytes := [23, 0x03, 0x03] ++ u16Bytes len

def pushExt (extType : Nat) (data : Bytes) : Bytes := u16Bytes extType ++ u16Bytes data.length ++ data

def buildClientHello (host random x25519Pub : Bytes) : Bytes :=
  let extensions :=
    pushExt 0x0000 (u16Bytes (1 + 2 + host.length) ++ [0x00] ++ u16Bytes host.length ++ host) ++
    pushExt 0x000A (u16Bytes 4 ++ u16Bytes 0x001D ++ u16Bytes 0x0017) ++
    pushExt 0x000D (u16Bytes 10 ++ [0x0403, 0x0804, 0x0401, 0x0503, 0x0601].flatMap u16Bytes) ++
    pushExt 0x002B ([4] ++ u16Bytes 0x0304 ++ u16Bytes 0x0303) ++
    pushExt 0x0033
      (u16Bytes (4 + x25519Pub.length) ++ (u16Bytes 0x001D ++ u16Bytes x25519Pub.length ++ x25519Pub))
  let body := u16Bytes 0x0303 ++ random ++ [0] ++ u16Bytes 4 ++ u16Bytes 0x1301 ++ u16Bytes 0x1302 ++ [1, 0] ++
    u16Bytes extensions.length ++ extensions
  [1, UInt8.ofNat (body.length / 65536), UInt8.ofNat (body.length / 256), UInt8.ofNat body.length] ++ body

def be16 (p : Bytes) (i : Nat) : Option Nat := do
  let a ← p[i]?
  let b ← p[i + 1]?
  return a.toNat * 256 + b.toNat

def keyOfShare (kse : Bytes) : Option (Option Bytes) :=
  if kse.length ≥ 4 then do
    let group ← be16 kse 0
    let klen ← be16 kse 2
    if group = 0x001D ∧ klen = 32 ∧ kse.length ≥ 4 + klen then return some (← slice kse 4 36) else return none
  else some none

def findKeyShare : Nat → Bytes → Option (Option Bytes)
  | 0, _ => none
  | turns + 1, exts =>
    if 4 ≤ exts.length then do
      let etype ← be16 exts 0
      let elen ← be16 exts 2
      let rest := exts.drop 4
      if etype = 0x0033 ∧ elen ≤ rest.length then
        match ← keyOfShare (rest.take elen) with
        | some key => return some key
        | none => findKeyShare turns (rest.drop elen)
      else findKeyShare turns (rest.drop elen)
    else some none

def parseServerHello (data : Bytes) : Option (Option (Bytes × Bytes)) :=
  if data.length < 9 ∨ data[0]? ≠ some 22 ∨ data[5]? ≠ some 2 then some none
  else do
    let hsData ← sliceFrom data 5
    let body ← sliceFrom hsData 4
    if body.length < 38 then return none
    let sidLen := (← body[34]?).toNat
    let pos := 35 + sidLen
    if pos + 5 > body.length then return none
    let extLen ← be16 body (pos + 3)
    if pos + 5 + extLen > body.length then return none
    let exts ← slice body (pos + 5) (pos + 5 + extLen)
    match ← findKeyShare (exts.length + 1) exts with
    | some key => return some (key, hsData)
    | none => return none

/-- `received` are the handshake messages taken from encrypted records, which no part of the source
keeps. -/
structure TlsConn where
  transcript : Bytes
  hs : Keys
  app : Keys
  serverSeq : Nat
  clientSeq : Nat
  appServerSeq : Nat
  appClientSeq : Nat
  received : List Bytes

section Handshake

variable (c : Crypto) (now : Nat) (host : Bytes)

structure HsState where
  conn : TlsConn
  gotServerFinished : Bool
  appKeysDerived : Bool

def verifyMessage (msgBody : Bytes) : Option Bool :=
  if h : msgBody.length < 2 ^ 63 ∧ host.length < 2 ^ 63 then verifyCertChain now ⟨msgBody, h.1⟩ ⟨host, h.2⟩ else none

def HsState.hash (s : HsState) (hsMsg : Bytes) : HsState :=
  { s with conn := { s.conn with transcript := s.conn.transcript ++ hsMsg, received := s.conn.received ++ [hsMsg] } }

def HsState.ignore (s : HsState) (hsMsg : Bytes) : HsState :=
  { s with conn := { s.conn with received := s.conn.received ++ [hsMsg] } }

def onMessage (sharedSecret : Bytes) (hsMsg : Bytes) (s : HsState) : Option (Option HsState) := do
  let ht ← hsMsg[0]?
  if ht = 8 ∨ ht = 15 then return some (s.hash hsMsg)
  else if ht = 11 then
    if ← verifyMessage now host (hsMsg.drop 4) then return some (s.hash hsMsg) else return none
  else if ht = 20 then
    let s := { s.hash hsMsg with gotServerFinished := true }
    if s.appKeysDerived then return some s
    let keys ← deriveAppKeys c sharedSecret (c.sha256 s.conn.transcript)
    return some { s with conn := { s.conn with app := keys }, appKeysDerived := true }
  else return some (s.ignore hsMsg)

def messageLen (data : Bytes) : Nat :=
  (data.getD 1 0).toNat * 65536 + (data.getD 2 0).toNat * 256 + (data.getD 3 0).toNat

def messageLoop (sharedSecret : Bytes) : Nat → Bytes → HsState → Option (Option HsState)
  | 0, _, _ => none
  | turns + 1, data, s =>
    if 4 ≤ data.length ∧ 4 + messageLen data ≤ data.length then do
      match ← onMessage c now host sharedSecret (data.take (4 + messageLen data)) s with
      | none => return none
      | some s => messageLoop sharedSecret turns (data.drop (4 + messageLen data)) s
    else some (some s)

def payloadOf (raw : Bytes) : Bytes := (raw.drop 5).take (payloadLen raw)

inductive Turn where
  | next (s : HsState)
  | stop (s : HsState)
  | refuse

def onRecord (sharedSecret raw : Bytes) (s : HsState) : Option Turn :=
  let payload := payloadOf raw
  if raw.getD 0 0 = 20 then some (.next s)
  else if raw.getD 0 0 = 21 then some .refuse
  else if raw.getD 0 0 ≠ 23 then some (.next s)
  else
    match aesGcmDecrypt c s.conn.hs.serverKey s.conn.hs.serverIv s.conn.serverSeq payload (recordAad payload.length) with
    | none => some .refuse
    | some pt =>
      let s := { s with conn := { s.conn with serverSeq := s.conn.serverSeq + 1 } }
      match pt.getLast? with
      | none => some (.next s)
      | some innerType => do
        if innerType = 22 then
          match ← messageLoop c now host sharedSecret (pt.dropLast.length + 1) pt.dropLast s with
          | none => return .refuse
          | some s => if s.gotServerFinished then return .stop s else return .next s
        else if s.gotServerFinished then return .stop s else return .next s

def HsState.done (s : HsState) : Bool := s.gotServerFinished && s.appKeysDerived

def handshakeLoop (sharedSecret : Bytes) : Nat → HsState → Line → Option (Bool × TlsConn × Line)
  | 0, s, l => some (s.done, s.conn, l)
  | turns + 1, s, l =>
    let (raw, l) := readRecord 16384 l
    if raw.length < 5 then some (s.done, s.conn, l)
    else do
      match ← onRecord c now host sharedSecret raw s with
      | .next s => handshakeLoop sharedSecret turns s l
      | .stop s => return (s.done, s.conn, l)
      | .refuse => return (false, s.conn, l)

def readServerHandshake (sharedSecret : Bytes) (conn : TlsConn) (l : Line) : Option (Bool × TlsConn × Line) :=
  handshakeLoop c now host sharedSecret 20 ⟨conn, false, false⟩ l

def encryptedRecord (ct : Bytes) : Bytes := [23, 0x03, 0x03] ++ u16Bytes ct.length ++ ct

def sendClientFinished (conn : TlsConn) (l : Line) : Option (Bool × TlsConn × Line) := do
  let finishedKey ← hkdfExpandLabel c conn.hs.clientKey (ascii "finished") [] 32
  let verifyData := c.hmac finishedKey (c.sha256 conn.transcript)
  let hs := [20, 0, 0, 32] ++ verifyData
  let conn := { conn with transcript := conn.transcript ++ hs }
  let pt := hs ++ [22]
  match aesGcmEncrypt c conn.hs.clientKey conn.hs.clientIv conn.clientSeq pt (recordAad (pt.length + 16)) with
  | none => return (false, conn, l)
  | some ct =>
    let (n, l) := tcpWrite (encryptedRecord ct) l
    return (decide (n > 0), { conn with clientSeq := conn.clientSeq + 1 }, l)

def helloExchange (secret random : Bytes) (l : Line) : Option (Option (TlsConn × Bytes × Line)) := do
  let ch := buildClientHello host random (c.publicKey secret)
  let (n, l) := tcpWrite (tlsRecord 22 ch) l
  if n = 0 then return none
  let (raw, l) := readRecord 8192 l
  if raw = [] then return none
  match ← parseServerHello raw with
  | none => return none
  | some (serverPub, hsData) =>
    let shared := c.diffieHellman secret serverPub
    let transcript := ch ++ hsData
    let keys ← deriveHandshakeKeys c shared (c.sha256 transcript)
    return some (⟨transcript, keys, Keys.zeroed, 0, 0, 0, 0, []⟩, shared, l)

def tlsHandshake (secret random : Bytes) (o : Opening) : Option (Option (TlsConn × Line)) := do
  if ¬ o.resolved then return none
  if ¬ o.connected then return none
  if ¬ o.established then return none
  match ← helloExchange c host secret random o.line with
  | none => return none
  | some (conn, shared, l) =>
    let (accepted, conn, l) ← readServerHandshake c now host shared conn l
    if ¬ accepted then return none
    let (sent, conn, l) ← sendClientFinished c conn l
    if ¬ sent then return none
    return some (conn, l)

end Handshake

section Fetch

variable (c : Crypto) (now : Nat)

def sendAppData (conn : TlsConn) (data : Bytes) (l : Line) : Bool × TlsConn × Line :=
  let pt := data ++ [23]
  match aesGcmEncrypt c conn.app.clientKey conn.app.clientIv conn.appClientSeq pt (recordAad (pt.length + 16)) with
  | none => (false, conn, l)
  | some ct =>
    let (n, l) := tcpWrite (encryptedRecord ct) l
    (decide (n > 0), { conn with appClientSeq := conn.appClientSeq + 1 }, l)

def responseLoop : Nat → TlsConn → Bytes → Line → Bytes
  | 0, _, body, _ => body
  | turns + 1, conn, body, l =>
    let (avail, l) := tcpReadable l
    let (ready, l) := if avail = 0 then tcpWaitReadable l else (true, l)
    if ready then
      let (raw, l) := readRecord 8192 l
      if raw.length < 5 then body
      else if raw.getD 0 0 = 21 then body
      else if raw.getD 0 0 ≠ 23 then responseLoop turns conn body l
      else
        let payload := payloadOf raw
        match aesGcmDecrypt c conn.app.serverKey conn.app.serverIv conn.appServerSeq payload (recordAad payload.length) with
        | none => body
        | some pt =>
          let conn := { conn with appServerSeq := conn.appServerSeq + 1 }
          match pt.getLast? with
          | none => responseLoop turns conn body l
          | some innerType =>
            if innerType = 21 then body
            else
              let (st, l) := tcpState l
              if st ∈ [.closeWait, .closed, .free, .timeWait, .finWait2] then body ++ pt.dropLast
              else responseLoop turns conn (body ++ pt.dropLast) l
    else body

def parseHttpFromDecrypted (data : Bytes) (room : Nat) : HttpResult × Bytes :=
  match findBlank data 0 with
  | none => (.tcpError, [])
  | some i =>
    match statusCode (data.take (i + 4)) with
    | none => (.tcpError, [])
    | some status =>
      if ¬(200 ≤ status ∧ status < 300) then (.httpError status, [])
      else if (data.drop (i + 4)).length > room then (.bufferTooSmall, [])
      else (.ok (data.drop (i + 4)).length, data.drop (i + 4))

def readHttpResponse (conn : TlsConn) (room : Nat) (l : Line) : HttpResult × Bytes :=
  parseHttpFromDecrypted (responseLoop c 100 conn [] l) room

def tlsGet (secret random : Bytes) (o : Opening) (host path : Bytes) (room : Nat) : Option (HttpResult × Bytes) := do
  match ← tlsHandshake c now host secret random o with
  | none => return (.tcpError, [])
  | some (conn, l) =>
    let (sent, conn, l) := sendAppData c conn (buildRequest host path) l
    if ¬ sent then return (.tcpError, [])
    return readHttpResponse c conn room l

end Fetch

end Aeglos.Tls
