import Aeglos.Library.Slices
import Aeglos.Kernel.Line

/-!
# The HTTP client

`net/http.rs`. The outer `none` of a function is a loop that has had all of its turns.
-/

namespace Aeglos.Net

open Tcp Slices

inductive HttpResult where
  | ok (n : Nat)
  | dnsError
  | tcpError
  | httpError (code : Nat)
  | timeout
  | bufferTooSmall
deriving DecidableEq

def clipped (room : Nat) (parts : List Bytes) : Bytes := parts.flatten.take room

def requestParts (host path : Bytes) : List Bytes :=
  [ascii "GET ", path, ascii " HTTP/1.1\r\nHost: ", host,
    ascii "\r\nConnection: close\r\nUser-Agent: Aeglos/1.0\r\n\r\n"]

def buildRequest (host path : Bytes) : Bytes := clipped 1024 (requestParts host path)

def blankLine : Bytes := [13, 10, 13, 10]

def findBlank (data : Bytes) (a : Nat) : Option Nat :=
  (List.range' a (data.length - 3 - a)).find? fun i => (data.drop i).take 4 == blankLine

def statusDigits (hdr : Bytes) : Nat → Nat → Nat → Option Nat
  | 0, _, code => some code
  | n + 1, i, code => do
    let b ← hdr[i]?
    if b < 48 ∨ b > 57 then none else statusDigits hdr n (i + 1) (code * 10 + (b.toNat - 48))

def statusCode (hdr : Bytes) : Option Nat :=
  if hdr.length < 12 then none
  else if hdr.take 5 ≠ ascii "HTTP/" then none
  else statusDigits hdr 3 (5 + ((hdr.drop 5).takeWhile (· ≠ 32)).length + 1) 0

def parseStatus (hdr : Bytes) : Nat := (statusCode hdr).getD 0

def leadingNumber (digits : Bytes) : Nat :=
  (digits.takeWhile fun b => decide (48 ≤ b ∧ b ≤ 57)).foldl (fun val b => (val * 10 + (b.toNat - 48)) % 2 ^ 64) 0

def contentLengthLoop : Nat → Bytes → Option Nat
  | 0, _ => none
  | turns + 1, hdr =>
    if hdr = [] then none
    else if (hdr.take 15).map toAsciiLowercase = ascii "content-length:" then
      some (leadingNumber ((hdr.drop 15).dropWhile fun b => decide (b = 32 ∨ b = 9)))
    else contentLengthLoop turns ((hdr.dropWhile (· ≠ 10)).drop 1)

def parseContentLength (hdr : Bytes) : Option Nat := contentLengthLoop (hdr.length + 1) hdr

inductive HeadEnd where
  | found (hdrEnd : Nat)
  | closed
  | failed (r : HttpResult)

def headLoop : Nat → Bytes → Line → Option (HeadEnd × Bytes × Line)
  | 0, _, _ => none
  | turns + 1, hdr, l =>
    let (ready, l) := tcpWaitReadable l
    if ready then
      let (bytes, l) := tcpRead (2048 - hdr.length) l
      if bytes = [] then headLoop turns hdr l
      else
        match findBlank (hdr ++ bytes) (hdr.length - 3) with
        | some i => some (.found (i + 4), hdr ++ bytes, l)
        | none =>
          if (hdr ++ bytes).length ≥ 2048 then some (.failed (.httpError 0), hdr ++ bytes, l)
          else headLoop turns (hdr ++ bytes) l
    else
      let (st, l) := tcpState l
      if st ∈ [.closeWait, .closed, .free, .timeWait] then some (.closed, hdr, l) else some (.failed .timeout, hdr, l)

def complete (contentLength : Option Nat) (written : Nat) : Bool := (contentLength.map fun n => decide (n ≤ written)).getD false

def bodyLoop (room : Nat) (contentLength : Option Nat) : Nat → Bytes → Line → Option (HttpResult × Bytes × Line)
  | 0, _, _ => none
  | turns + 1, out, l =>
    let (avail, l) := tcpReadable l
    if avail > 0 then
      if out.length ≥ room then some (.bufferTooSmall, out, l)
      else
        let (bytes, l) := tcpRead (room - out.length) l
        if complete contentLength (out ++ bytes).length then some (.ok (out ++ bytes).length, out ++ bytes, l)
        else bodyLoop room contentLength turns (out ++ bytes) l
    else
      let (st, l) := tcpState l
      if st ∈ [.closed, .free, .timeWait, .closeWait, .finWait2] then some (.ok out.length, out, l)
      else
        let (ready, l) := tcpWaitReadable l
        if ready then bodyLoop room contentLength turns out l else some (.ok out.length, out, l)

def readResponse (turns room : Nat) (l : Line) : Option (HttpResult × Bytes × Line) := do
  match ← headLoop turns [] l with
  | (.failed r, _, l) => return (r, [], l)
  | (.closed, _, l) => return (.tcpError, [], l)
  | (.found hdrEnd, hdr, l) =>
    let status := parseStatus (hdr.take hdrEnd)
    if status = 0 then return (.tcpError, [], l)
    if ¬(200 ≤ status ∧ status < 300) then return (.httpError status, [], l)
    let contentLength := parseContentLength (hdr.take hdrEnd)
    let pre := hdr.drop hdrEnd
    if pre ≠ [] then
      if pre.length > room then return (.bufferTooSmall, [], l)
      if complete contentLength pre.length then return (.ok pre.length, pre, l)
    bodyLoop room contentLength turns pre l

def httpGet (turns : Nat) (o : Opening) (host path : Bytes) (room : Nat) : Option (HttpResult × Bytes) := do
  if ¬ o.resolved then return (.dnsError, [])
  if ¬ o.connected then return (.tcpError, [])
  if ¬ o.established then return (.tcpError, [])
  let (n, l) := tcpWrite (buildRequest host path) o.line
  if n = 0 then return (.tcpError, [])
  let (r, out, _) ← readResponse turns room l
  return (r, out)

end Aeglos.Net
