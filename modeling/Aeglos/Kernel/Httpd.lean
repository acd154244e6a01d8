import Aeglos.Kernel.Files
import Aeglos.Kernel.WebSocket

/-!
# The HTTP server

`net/httpd.rs`: one connection from its request to its end. A computation stops, and a function
returns `none`, at an access out of range.
-/

namespace Aeglos.Httpd

open Net Effects Slices

def recvBufSize : Nat := 4096
def bodyBufSize : Nat := 512
def respBufSize : Nat := 8192
def frameBufSize : Nat := 1024

structure Site where
  tid : Nat
  ip : Vector UInt8 4
  freePages : Nat
  totalPages : Nat
  taskCount : Nat
  idleTicks : Nat
  totalTicks : Nat
  bodyPtr : Nat
  framePtr : Nat
  memory : Nat → UInt8

/-- The connection, and what happens while it is served: whether the deadline for the body has passed
after a read, which calls of `send_message` succeed, and for each wait what the polls of the mailbox
return up to its deadline. `posted` are the messages that have been sent. -/
structure Server where
  line : Line
  late : List Bool
  sendable : List Bool
  waits : List (List (Option Message))
  posted : List (Nat × Message)

def onLine {α : Type} (x : Comp Line α) : Comp Server α := zoom Server.line (fun l s => { s with line := l }) x

def Server.isLate (s : Server) : Bool × Server := (s.late.headD false, { s with late := s.late.tail })

def sendMessage (tid : Nat) (msg : Message) (s : Server) : Bool × Server :=
  (s.sendable.headD false, { s with
    sendable := s.sendable.tail
    posted := if s.sendable.headD false then s.posted ++ [(tid, msg)] else s.posted })

def windowsPosition (raw needle : Bytes) : Option Nat :=
  (List.range (raw.length + 1 - needle.length)).find? fun i => (raw.drop i).take needle.length == needle

def findBodyStart (raw : Bytes) : Option Nat := (windowsPosition raw blankLine).map (· + 4)

def hasEndOfHeaders (raw : Bytes) : Bool := (windowsPosition raw blankLine).isSome

def splitn (sep : UInt8) : Nat → Bytes → List Bytes
  | 0, _ => []
  | 1, s => [s]
  | n + 2, s =>
    if sep ∈ s then s.takeWhile (· ≠ sep) :: splitn sep (n + 1) ((s.dropWhile (· ≠ sep)).drop 1) else [s]

def parseRequestLine (raw : Bytes) : Option (Option (Bytes × Bytes × Bytes)) :=
  match raw.findIdx? (· = 13) with
  | none => some none
  | some lineEnd => do
    let line ← slice raw 0 lineEnd
    match splitn 32 3 line with
    | method :: path :: rest => return some (method, path, rest.headD (ascii "HTTP/1.0"))
    | _ => return none

def contentLengthName : Bytes := ascii "Content-Length: "

def parseContentLength (raw : Bytes) : Option (Option Nat) :=
  match windowsPosition raw contentLengthName with
  | none => some none
  | some pos => do
    let rest ← sliceFrom raw (pos + contentLengthName.length)
    let num ← slice rest 0 ((rest.findIdx? (· = 13)).getD rest.length)
    return some (leadingNumber num)

def readHead : Nat → Bytes → Comp Server (Option Bytes)
  | 0, raw => return some raw
  | turns + 1, raw => do
    if !(← onLine (modifyGet tcpWaitReadable)) then return none
    let n ← orStop (extent recvBufSize raw.length recvBufSize)
    let bytes ← onLine (modifyGet (tcpRead n))
    if bytes = [] then return some raw
    let _ ← orStop (extent recvBufSize 0 (raw ++ bytes).length)
    if hasEndOfHeaders (raw ++ bytes) then return some (raw ++ bytes)
    if (raw ++ bytes).length ≥ recvBufSize then return some (raw ++ bytes)
    readHead turns (raw ++ bytes)

def bodyLoop (limit : Nat) : Nat → Bytes → Nat → Comp Server (Bytes × Nat)
  | 0, filled, got => return (filled, got)
  | turns + 1, filled, got => do
    if got < limit then
      if !(← onLine (modifyGet tcpWaitReadable)) then return (filled, got)
      let n ← orStop (extent bodyBufSize got limit)
      let bytes ← onLine (modifyGet (tcpRead n))
      if bytes = [] then return (filled, got)
      if ← modifyGet Server.isLate then return (filled ++ bytes, got + bytes.length)
      bodyLoop limit turns (filled ++ bytes) (got + bytes.length)
    else return (filled, got)

def already (raw : Bytes) : Nat :=
  let bodyStart := (findBodyStart raw).getD raw.length
  if bodyStart < raw.length then raw.length - bodyStart else 0

def readBody (raw : Bytes) (contentLength : Nat) : Comp Server Bytes := do
  let bodyStart := (findBodyStart raw).getD raw.length
  let n := already raw
  let need := min (contentLength - n) (wrap64 (2 ^ 64 + bodyBufSize - n))
  let copy ← if n > 0 then orStop (slice raw bodyStart (bodyStart + min n bodyBufSize)) else pure []
  let (filled, got) ← bodyLoop (n + need) need copy n
  orStop (slice (filled ++ List.replicate (bodyBufSize - filled.length) 0) 0 got)

def digits : Nat → Nat → Bytes → Option Bytes
  | 0, n, acc => if n = 0 then some acc else none
  | i + 1, n, acc => if n = 0 then some acc else digits i (n / 10) (UInt8.ofNat (48 + n % 10) :: acc)

def numToStr (n : Nat) : Option Bytes := if n = 0 then some [48] else digits 20 n []

def statusText : Nat → Bytes
  | 400 => ascii "400 Bad Request"
  | 404 => ascii "404 Not Found"
  | 413 => ascii "413 Payload Too Large"
  | 503 => ascii "503 Service Unavailable"
  | 504 => ascii "504 Gateway Timeout"
  | _ => ascii "200 OK"

def responseParts (status : Nat) (contentType length body : Bytes) : List Bytes :=
  [ascii "HTTP/1.1 ", statusText status, ascii "\r\n", ascii "Content-Type: ", contentType, ascii "\r\n",
    ascii "Content-Length: ", length, ascii "\r\nConnection: close\r\nServer: Aeglos/1.0\r\n",
    ascii "Access-Control-Allow-Origin: *\r\n\r\n", body]

def buildResponse (status : Nat) (contentType body : Bytes) : Option Bytes := do
  return clipped respBufSize (responseParts status contentType (← numToStr (wrap64 body.length)) body)

def page404 : Option Bytes := buildResponse 404 (ascii "text/plain") (ascii "Not Found")

def send400 : Comp Server Unit := do
  let resp ← orStop (buildResponse 400 (ascii "text/plain") (ascii "Bad Request"))
  let _ ← onLine (modifyGet (tcpWrite resp))

def megabytes (pages : Nat) : Nat := wrap64 (pages * pageSize) / 1048576

def pageIndex (site : Site) : Option Bytes := do
  let ip ← site.ip.toList.mapM fun b => numToStr b.toNat
  let free ← numToStr (megabytes site.freePages)
  let total ← numToStr (megabytes site.totalPages)
  let body := clipped 2048 [ascii "<html><head><title>Aeglos OS</title></head><body>",
    ascii "<h1>Aeglos OS ", [0xE2, 0x80, 0x94], ascii " AI-Native Kernel</h1><pre>", ascii "IP     : ",
    (ascii ".").intercalate ip, ascii "\nMemory : ", free, ascii " MB free / ", total, ascii " MB total",
    ascii "\nRoutes : GET /health  GET /stats  POST /infer  GET /mem?q=...", ascii "</pre></body></html>"]
  buildResponse 200 (ascii "text/html") body

def pageHealth : Option Bytes := buildResponse 200 (ascii "application/json") (ascii "\x7b\"status\":\"ok\"\x7d")

def cpuPercent (site : Site) : Nat :=
  if site.totalTicks > 0 then wrap64 (2 ^ 64 + 100 - wrap64 (site.idleTicks * 100) / site.totalTicks) else 0

def pageStats (site : Site) : Option Bytes := do
  let free ← numToStr (megabytes site.freePages)
  let total ← numToStr (megabytes site.totalPages)
  let cpu ← numToStr (cpuPercent site)
  let tasks ← numToStr (wrap64 site.taskCount)
  let body := clipped 256 [ascii "\x7b\"free_mb\":", free, ascii ",\"total_mb\":", total, ascii ",\"cpu_pct\":", cpu,
    ascii ",\"task_cnt\":", tasks, ascii "\x7d"]
  buildResponse 200 (ascii "application/json") body

def aiMessage (op arg1 arg2 : Nat) : Vector UInt8 32 := payload (toLe op 8 ++ toLe arg1 8 ++ toLe arg2 8)

def awaitFrom (tid : Nat) : List (Option Message) → Option Message
  | [] => none
  | some msg :: rest => if msg.sender = tid then some msg else awaitFrom tid rest
  | none :: rest => awaitFrom tid rest

def Server.nextWait (s : Server) : List (Option Message) × Server := (s.waits.headD [], { s with waits := s.waits.tail })

def Site.bytesAt (site : Site) (ptr len : Nat) : Bytes := (List.range len).map fun k => site.memory (ptr + k)

def pageInfer (site : Site) (prompt : Bytes) : Comp Server Bytes := do
  if prompt = [] then orStop (buildResponse 400 (ascii "text/plain") (ascii "Empty prompt"))
  else if prompt.length > bodyBufSize then orStop (buildResponse 413 (ascii "text/plain") (ascii "Prompt too large"))
  else if !(← modifyGet (sendMessage 1 ⟨site.tid, aiMessage 2 site.bodyPtr prompt.length⟩)) then
    orStop (buildResponse 503 (ascii "text/plain") (ascii "Numenor unavailable"))
  else
    match awaitFrom 1 (← modifyGet Server.nextWait) with
    | none => orStop (buildResponse 504 (ascii "text/plain") (ascii "Numenor timeout"))
    | some reply =>
      let response := if reply.word 1 = 0 ∨ reply.word 2 = 0 then []
        else site.bytesAt (reply.word 1) (min (reply.word 2) 4096)
      orStop (buildResponse 200 (ascii "text/plain") response)

def queryValue (kv : Bytes) : Option Bytes :=
  match splitn 61 2 kv with
  | [key, val] => if key = ascii "q" then some val else none
  | _ => none

def queryParameter (query : Bytes) : Bytes := ((query.splitOn 38).findSome? queryValue).getD []

def queryRequest (site : Site) (q : Bytes) : Message := ⟨site.tid, payload (104 :: 0 :: 0 :: 0 :: q.take 28)⟩

def memResult (reply : Message) : Option Bytes := do
  let resultLen := (reply.data.get 1).toNat
  let result ← slice reply.data.toList 4 (4 + min resultLen 28)
  let room ← extent 128 0 13
  let opening ← copied room (ascii "\x7b\"result\":\"")
  let copy := min result.length (128 - 11 - 4)
  let shown ← slice result 0 copy
  let body := opening ++ shown ++ ascii "\"\x7d"
  buildResponse 200 (ascii "application/json") body

def pageMem (site : Site) (query : Bytes) : Comp Server Bytes := do
  let q := queryParameter query
  if q = [] then
    orStop (buildResponse 400 (ascii "application/json") (ascii "\x7b\"error\":\"missing q= parameter\"\x7d"))
  else if !(← modifyGet (sendMessage 2 (queryRequest site q))) then
    orStop (buildResponse 503 (ascii "application/json") (ascii "\x7b\"error\":\"semantic service unavailable\"\x7d"))
  else
    match awaitFrom 2 (← modifyGet Server.nextWait) with
    | none => orStop (buildResponse 504 (ascii "application/json") (ascii "\x7b\"error\":\"semantic timeout\"\x7d"))
    | some reply => orStop (memResult reply)

def pathBase (path : Bytes) : Bytes := (splitn 63 2 path).headD path

def pathQuery (path : Bytes) : Bytes := (splitn 63 2 path).getD 1 []

def route (site : Site) (method path body : Bytes) : Comp Server Bytes :=
  if method = ascii "GET" ∧ pathBase path = ascii "/" then orStop (pageIndex site)
  else if method = ascii "GET" ∧ pathBase path = ascii "/health" then orStop pageHealth
  else if method = ascii "GET" ∧ pathBase path = ascii "/stats" then orStop (pageStats site)
  else if method = ascii "POST" ∧ pathBase path = ascii "/infer" then pageInfer site body
  else if method = ascii "GET" ∧ pathBase path = ascii "/mem" then pageMem site (pathQuery path)
  else orStop page404

def sendLoop (resp : Bytes) : Nat → Nat → Comp Server Unit
  | 0, _ => return ()
  | turns + 1, sent => do
    if sent < resp.length then
      let rest ← orStop (slice resp sent resp.length)
      let n ← onLine (modifyGet (tcpWrite rest))
      if n = 0 then return ()
      sendLoop resp turns (sent + n)
    else return ()

def skipToQuote (json : Bytes) (j : Nat) : Nat := j + ((json.drop j).takeWhile (· ≠ 34)).length

def stringAfter (json : Bytes) (after : Nat) : Option (Option (Nat × Bytes)) :=
  let j := skipToQuote json (after + 1)
  if j ≥ json.length then some none
  else do
    let val ← slice json (j + 1) (skipToQuote json (j + 1))
    return some (j + 1, val)

def keyAt (json key : Bytes) (i : Nat) : Option Bool := do
  let rest ← sliceFrom json i
  if key.isPrefixOf rest ∧ i + key.length + 2 < json.length then
    return decide ((← json[i + key.length]?) = 34)
  else return false

def extractLoop (json key : Bytes) : Nat → Nat → Option (Option (Nat × Bytes))
  | 0, _ => some none
  | turns + 1, i =>
    if i < json.length then do
      let c ← json[i]?
      if c = 34 then
        if ← keyAt json key (i + 1) then stringAfter json (i + 1 + key.length)
        else extractLoop json key turns (skipToQuote json (i + 1) + 1)
      else extractLoop json key turns (i + 1)
    else some none

def extractJsonString (json key : Bytes) : Option (Option (Nat × Bytes)) := extractLoop json key (json.length + 1) 0

def opInferStream : Nat := 10
def opToken : Nat := 11
def opStreamEnd : Nat := 12
def numenorTid : Nat := 1

def streamRequest (ptr len : Nat) : Message := ⟨0, aiMessage opInferStream ptr len⟩

def doneMarker : Bytes := ascii "\x7b\"done\":true\x7d"

def tokenLen (msg : Message) : Nat := min (msg.data.get 8).toNat 23

lemma tokenLen_le (msg : Message) : tokenLen msg ≤ 23 := Nat.min_le_right _ _

def forwardLoop : List (Option Message) → Comp Server Unit
  | [] => return ()
  | none :: rest => forwardLoop rest
  | some msg :: rest => do
    if msg.sender ≠ numenorTid then forwardLoop rest
    else if msg.word 0 = opToken then
      let tlen := tokenLen msg
      let piece ← orStop (slice msg.data.toList 9 (9 + tlen))
      onLine (Ws.wsSendText piece)
      forwardLoop rest
    else if msg.word 0 = opStreamEnd then onLine (Ws.wsSendText doneMarker)
    else forwardLoop rest

def servePrompt (site : Site) (text : Bytes) : Comp Server Unit := do
  let (off, prompt) := (← orStop (extractJsonString text (ascii "prompt"))).getD (0, text)
  let _ ← modifyGet (sendMessage numenorTid (streamRequest (wrap64 (site.framePtr + off)) prompt.length))
  forwardLoop (← modifyGet Server.nextWait)

/-- The first `turns` frames of a session. -/
def handleWsSession (site : Site) : Nat → Comp Server Unit
  | 0 => return ()
  | turns + 1 => do
    match ← onLine (Ws.wsRecvFrame frameBufSize) with
    | none => onLine Ws.wsSendClose
    | some (opcode, text) =>
      if opcode = Ws.opcodeClose then onLine Ws.wsSendClose
      else if opcode ≠ Ws.opcodeText then handleWsSession site turns
      else
        servePrompt site text
        handleWsSession site turns

def isWsUpgrade (raw : Bytes) : Option Bool := do
  let value ← Ws.findHeaderValue raw (ascii "Upgrade")
  return (value.map fun v => decide (v.map toAsciiLowercase = ascii "websocket")).getD false

def upgrade (site : Site) (turns : Nat) (raw path : Bytes) : Comp Server Unit := do
  let key ← orStop (Ws.findHeaderValue raw (ascii "Sec-WebSocket-Key"))
  if pathBase path = ascii "/ws" then
    if ← onLine (Ws.wsAccept (key.getD [])) then handleWsSession site turns
  else send400

def serveRequest (site : Site) (turns : Nat) (raw : Bytes) : Comp Server Unit := do
  match ← orStop (parseRequestLine raw) with
  | none => send400
  | some (method, path, _) =>
    let contentLength := (← orStop (parseContentLength raw)).getD 0
    let body ← readBody raw contentLength
    if ← orStop (isWsUpgrade raw) then upgrade site turns raw path
    else
      let resp ← route site method path body
      sendLoop resp resp.length 0

def handleConnection (site : Site) (turns : Nat) : Comp Server Unit := do
  match ← readHead recvBufSize [] with
  | none => return ()
  | some [] => return ()
  | some raw => serveRequest site turns raw

end Aeglos.Httpd
