import Aeglos.Kernel.Httpd
import Aeglos.Proofs.WebSocketTotality

/-!
# Requests that stop the HTTP server

A connection is served to its end, with two exceptions.
-/

namespace Aeglos.Httpd

open Net Effects Slices List Option

section Parsing

variable {raw needle : Bytes}

lemma windowsPosition_le {i : Nat} (h : windowsPosition raw needle = some i) : i + needle.length ≤ raw.length := by
  have hi := mem_range.mp (mem_of_find?_eq_some h)
  omega

lemma findIdx?_lt {p : UInt8 → Bool} {i : Nat} (h : raw.findIdx? p = some i) : i < raw.length :=
  (List.findIdx?_eq_some_iff_getElem.mp h).1

lemma parseRequestLine_eq_some (raw : Bytes) : ∃ v, parseRequestLine raw = some v := by
  unfold parseRequestLine
  split
  · exact ⟨none, rfl⟩
  · rename_i lineEnd hfind
    rw [slice_eq_some (Nat.zero_le _) (findIdx?_lt hfind).le]
    simp only [bind_eq_bind, bind_some]
    split
    · exact ⟨_, rfl⟩
    · exact ⟨_, rfl⟩

lemma parseContentLength_eq_some (raw : Bytes) : ∃ v, parseContentLength raw = some v := by
  unfold parseContentLength
  split
  · exact ⟨none, rfl⟩
  · rename_i pos hpos
    rw [sliceFrom_eq_some (windowsPosition_le hpos)]
    simp only [bind_eq_bind, bind_some]
    rw [slice_eq_some (Nat.zero_le _)]
    · exact ⟨_, rfl⟩
    · cases hfind : (raw.drop (pos + contentLengthName.length)).findIdx? (· = 13) with
      | none => exact le_rfl
      | some k => exact (findIdx?_lt hfind).le

lemma isWsUpgrade_eq_some (raw : Bytes) : ∃ v, isWsUpgrade raw = some v := by
  obtain ⟨value, hvalue⟩ := Ws.findHeaderValue_eq_some raw (ascii "Upgrade")
  unfold isWsUpgrade
  rw [hvalue]
  exact ⟨_, rfl⟩

lemma already_add_le (raw : Bytes) : (findBodyStart raw).getD raw.length + already raw ≤ raw.length := by
  unfold already
  dsimp only
  split_ifs with h
  · omega
  · cases hfind : findBodyStart raw with
    | none => exact le_rfl
    | some start =>
      obtain ⟨i, hi, rfl⟩ := map_eq_some_iff.mp hfind
      have hle := windowsPosition_le hi
      exact hle

end Parsing

lemma digits_eq_some {i n : Nat} (h : n < 10 ^ i) (acc : Bytes) : ∃ out, digits i n acc = some out := by
  induction i generalizing n acc with
  | zero =>
    obtain rfl : n = 0 := by omega
    exact ⟨acc, rfl⟩
  | succ i ih =>
    unfold digits
    split_ifs
    · exact ⟨acc, rfl⟩
    · refine ih ?_ _
      rw [Nat.pow_succ] at h
      omega

lemma numToStr_eq_some {n : Nat} (h : n < 2 ^ 64) : ∃ out, numToStr n = some out := by
  unfold numToStr
  split_ifs
  · exact ⟨_, rfl⟩
  · exact digits_eq_some (by omega) []

lemma wrap64_lt (n : Nat) : wrap64 n < 2 ^ 64 := Nat.mod_lt _ (by decide)

lemma buildResponse_eq_some (status : Nat) (contentType body : Bytes) :
    ∃ resp, buildResponse status contentType body = some resp := by
  obtain ⟨length, hlength⟩ := numToStr_eq_some (wrap64_lt body.length)
  unfold buildResponse
  rw [hlength]
  exact ⟨_, rfl⟩

lemma megabytes_lt (pages : Nat) : megabytes pages < 2 ^ 64 := (Nat.div_le_self _ _).trans_lt (wrap64_lt _)

lemma pageIndex_eq_some (site : Site) : ∃ resp, pageIndex site = some resp := by
  have hip : ∀ b ∈ site.ip.toList, ∃ out, numToStr b.toNat = some out := by
    intro b _
    have hlt := b.toNat_lt
    exact numToStr_eq_some (by omega)
  obtain ⟨ip, hip, -⟩ := mapM_eq_some hip
  obtain ⟨free, hfree⟩ := numToStr_eq_some (megabytes_lt site.freePages)
  obtain ⟨total, htotal⟩ := numToStr_eq_some (megabytes_lt site.totalPages)
  unfold pageIndex
  simp only [bind_eq_bind, bind_some, hip, hfree, htotal]
  exact buildResponse_eq_some _ _ _

lemma cpuPercent_lt (site : Site) : cpuPercent site < 2 ^ 64 := by
  unfold cpuPercent
  split_ifs
  · exact wrap64_lt _
  · decide

lemma pageStats_eq_some (site : Site) : ∃ resp, pageStats site = some resp := by
  obtain ⟨free, hfree⟩ := numToStr_eq_some (megabytes_lt site.freePages)
  obtain ⟨total, htotal⟩ := numToStr_eq_some (megabytes_lt site.totalPages)
  obtain ⟨cpu, hcpu⟩ := numToStr_eq_some (cpuPercent_lt site)
  obtain ⟨tasks, htasks⟩ := numToStr_eq_some (wrap64_lt site.taskCount)
  unfold pageStats
  simp only [bind_eq_bind, bind_some, hfree, htotal, hcpu, htasks]
  exact buildResponse_eq_some _ _ _

lemma memResult_eq_none (reply : Message) : memResult reply = none := by
  have hcopied : copied 13 (ascii "\x7b\"result\":\"") = none := by decide
  unfold memResult
  rw [extent_eq_some (Nat.zero_le 13) (by decide)]
  simp only [bind_eq_bind, bind_some, Nat.sub_zero, hcopied, bind_none]
  cases slice reply.data.toList 4 (4 + min (reply.data.get 1).toNat 28) with
  | none => rfl
  | some result => rfl

section Sessions

lemma le_skipToQuote (json : Bytes) (j : Nat) : j ≤ skipToQuote json j := Nat.le_add_right _ _

lemma skipToQuote_le {json : Bytes} {j : Nat} (h : j ≤ json.length) : skipToQuote json j ≤ json.length := by
  have hle := ((json.drop j).takeWhile_sublist fun b => decide (b ≠ 34)).length_le
  rw [length_drop] at hle
  unfold skipToQuote
  omega

lemma stringAfter_eq_some (json : Bytes) (after : Nat) : ∃ v, stringAfter json after = some v := by
  unfold stringAfter
  dsimp only
  split_ifs with h
  · exact ⟨none, rfl⟩
  · rw [slice_eq_some (le_skipToQuote json _) (skipToQuote_le (by omega))]
    exact ⟨_, rfl⟩

lemma keyAt_eq_some {json : Bytes} {i : Nat} (key : Bytes) (h : i ≤ json.length) : ∃ v, keyAt json key i = some v := by
  unfold keyAt
  rw [sliceFrom_eq_some h]
  simp only [bind_eq_bind, bind_some]
  split_ifs with hkey
  · rw [getElem?_eq_getElem (by omega : i + key.length < json.length)]
    exact ⟨_, rfl⟩
  · exact ⟨false, rfl⟩

lemma extractLoop_eq_some (json key : Bytes) (turns i : Nat) : ∃ v, extractLoop json key turns i = some v := by
  induction turns generalizing i with
  | zero => exact ⟨none, rfl⟩
  | succ turns ih =>
    unfold extractLoop
    split_ifs with hi
    · rw [getElem?_eq_getElem hi]
      simp only [bind_eq_bind, bind_some]
      split_ifs
      · obtain ⟨found, hfound⟩ := keyAt_eq_some key (Nat.succ_le_of_lt hi)
        rw [hfound]
        simp only [bind_some]
        split_ifs
        · exact stringAfter_eq_some json _
        · exact ih _
      · exact ih _
    · exact ⟨none, rfl⟩

variable {s : Server}

lemma onLine_returns {α : Type} {x : Comp Line α} (hx : ∀ l, Returns x l) (s : Server) : Returns (onLine x) s :=
  outcome_zoom.mpr (hx s.line)

lemma forwardLoop_returns (polls : List (Option Message)) (s : Server) : Returns (forwardLoop polls) s := by
  induction polls generalizing s with
  | nil => trivial
  | cons poll polls ih =>
    cases poll with
    | none => exact ih s
    | some msg =>
      unfold Returns forwardLoop
      split_ifs
      · exact ih s
      · have hlength : msg.data.toList.length = 32 := msg.data.length_toList
        have htoken := tokenLen_le msg
        rw [outcome_bind, outcome_slice (by omega) (by omega), outcome_bind]
        exact (onLine_returns (Ws.wsSendFrame_returns _ _) s).mono (fun _ s' _ => ih s') fun _ h => h
      · exact onLine_returns (Ws.wsSendFrame_returns _ _) s
      · exact ih s

lemma servePrompt_returns (site : Site) (text : Bytes) (s : Server) : Returns (servePrompt site text) s := by
  obtain ⟨prompt, hprompt⟩ := extractLoop_eq_some text (ascii "prompt") (text.length + 1) 0
  unfold Returns servePrompt extractJsonString
  rw [hprompt]
  simp only [outcome_bind, outcome_orStop_some, outcome_modifyGet]
  exact forwardLoop_returns _ _

lemma handleWsSession_returns (site : Site) (turns : Nat) (s : Server) : Returns (handleWsSession site turns) s := by
  induction turns generalizing s with
  | zero => trivial
  | succ turns ih =>
    unfold Returns handleWsSession
    rw [outcome_bind]
    refine (onLine_returns (Ws.wsRecvFrame_returns _) s).mono ?_ fun _ h => h
    intro frame s' _
    cases frame with
    | none => exact onLine_returns (Ws.wsSendFrame_returns _ _) s'
    | some frame =>
      dsimp only
      split_ifs
      · exact onLine_returns (Ws.wsSendFrame_returns _ _) s'
      · exact ih s'
      · rw [outcome_bind]
        exact (servePrompt_returns site _ s').mono (fun _ s'' _ => ih s'') fun _ h => h

lemma send400_returns (s : Server) : Returns send400 s := by
  obtain ⟨resp, hresp⟩ := buildResponse_eq_some 400 (ascii "text/plain") (ascii "Bad Request")
  unfold Returns send400
  rw [hresp, outcome_bind, outcome_orStop_some, outcome_bind]
  exact trivial

lemma upgrade_returns (site : Site) (turns : Nat) (raw path : Bytes) (s : Server) :
    Returns (upgrade site turns raw path) s := by
  obtain ⟨key, hkey⟩ := Ws.findHeaderValue_eq_some raw (ascii "Sec-WebSocket-Key")
  unfold Returns upgrade
  rw [hkey, outcome_bind, outcome_orStop_some]
  split_ifs
  · rw [outcome_bind]
    refine (onLine_returns (Ws.wsAccept_returns _) s).mono ?_ fun _ h => h
    intro accepted s' _
    split_ifs
    · exact handleWsSession_returns site turns s'
    · trivial
  · exact send400_returns s

end Sessions

section Reading

variable {raw : Bytes}

def SameServices (s s' : Server) : Prop := s'.sendable = s.sendable ∧ s'.waits = s.waits

lemma SameServices.trans {s s' s'' : Server} (h : SameServices s s') (h' : SameServices s' s'') : SameServices s s'' :=
  ⟨h'.1.trans h.1, h'.2.trans h.2⟩

lemma length_tcpRead_le (n : Nat) (l : Line) : (tcpRead n l).1.length ≤ n := length_take_le _ _

lemma outcome_onLine_modifyGet {α : Type} {f : Line → α × Line} {s : Server} {Q : α → Server → Prop}
    {E : Server → Prop} :
    Outcome (onLine (modifyGet f)) s Q E ↔ Q (f s.line).1 { s with line := (f s.line).2 } := outcome_zoom

lemma readHead_returns (turns : Nat) (h : raw.length ≤ recvBufSize) (s : Server) :
    Outcome (readHead turns raw) s (fun _ s' => SameServices s s') fun _ => False := by
  induction turns generalizing raw s with
  | zero => exact ⟨rfl, rfl⟩
  | succ turns ih =>
    unfold readHead
    rw [outcome_bind, outcome_onLine_modifyGet]
    refine outcome_ite.mpr ⟨fun _ => ⟨rfl, rfl⟩, fun _ => ?_⟩
    rw [extent_eq_some h le_rfl, outcome_bind, outcome_orStop_some, outcome_bind, outcome_onLine_modifyGet]
    dsimp only
    have hread := length_tcpRead_le (recvBufSize - raw.length) (tcpWaitReadable s.line).2
    have hlength : (raw ++ (tcpRead (recvBufSize - raw.length) (tcpWaitReadable s.line).2).1).length ≤ recvBufSize := by
      rw [length_append]
      omega
    refine outcome_ite.mpr ⟨fun _ => ⟨rfl, rfl⟩, fun _ => ?_⟩
    rw [outcome_bind, extent_eq_some (Nat.zero_le _) hlength, outcome_orStop_some]
    refine outcome_ite.mpr ⟨fun _ => ⟨rfl, rfl⟩, fun _ => ?_⟩
    refine outcome_ite.mpr ⟨fun _ => ⟨rfl, rfl⟩, fun _ => ?_⟩
    exact (ih hlength _).mono (fun _ s' hs' => SameServices.trans ⟨rfl, rfl⟩ hs') fun _ h => h

lemma bodyLoop_returns {limit : Nat} (hlimit : limit ≤ bodyBufSize) (turns : Nat) {filled : Bytes}
    (h : filled.length ≤ limit) (s : Server) :
    Outcome (bodyLoop limit turns filled filled.length) s
      (fun r s' => r.2 = r.1.length ∧ r.2 ≤ limit ∧ SameServices s s') fun _ => False := by
  induction turns generalizing filled s with
  | zero => exact ⟨rfl, h, rfl, rfl⟩
  | succ turns ih =>
    unfold bodyLoop
    split_ifs with hlt
    · rw [outcome_bind, outcome_onLine_modifyGet]
      split_ifs
      · exact ⟨rfl, h, rfl, rfl⟩
      · rw [extent_eq_some hlt.le hlimit, outcome_bind, outcome_orStop_some, outcome_bind, outcome_onLine_modifyGet]
        have hread := length_tcpRead_le (limit - filled.length) (tcpWaitReadable s.line).2
        have hlength : (filled ++ (tcpRead (limit - filled.length) (tcpWaitReadable s.line).2).1).length ≤ limit := by
          rw [length_append]
          omega
        rw [← length_append]
        split_ifs
        · exact ⟨rfl, h, rfl, rfl⟩
        · rw [outcome_bind, outcome_modifyGet]
          split_ifs
          · exact ⟨rfl, hlength, rfl, rfl⟩
          · refine (ih hlength _).mono ?_ fun _ h => h
            rintro r s' ⟨hr, hle, hs'⟩
            exact ⟨hr, hle, SameServices.trans ⟨rfl, rfl⟩ hs'⟩
    · exact ⟨rfl, h, rfl, rfl⟩

lemma bodyLoop_overlong {limit got : Nat} (h : bodyBufSize < got) (turns : Nat) (filled : Bytes) (s : Server) :
    Outcome (bodyLoop limit turns filled got) s (fun r _ => r = (filled, got)) fun _ => True := by
  cases turns with
  | zero => rfl
  | succ turns =>
    unfold bodyLoop
    split_ifs with hlt
    · rw [outcome_bind, outcome_onLine_modifyGet]
      split_ifs
      · rfl
      · have hnone : extent bodyBufSize got limit = none := if_neg (by omega)
        rw [hnone, outcome_bind, outcome_orStop_none]
        trivial
    · rfl

def carried (raw : Bytes) : Bytes :=
  if already raw > 0 then (raw.drop ((findBodyStart raw).getD raw.length)).take (min (already raw) bodyBufSize) else []

def needed (raw : Bytes) (contentLength : Nat) : Nat :=
  min (contentLength - already raw) (wrap64 (2 ^ 64 + bodyBufSize - already raw))

lemma length_carried (raw : Bytes) : (carried raw).length = min (already raw) bodyBufSize := by
  have hend := already_add_le raw
  unfold carried
  split_ifs with h
  · rw [length_take, length_drop]
    omega
  · rw [length_nil]
    omega

lemma outcome_readBody {contentLength : Nat} {s : Server} {Q : Bytes → Server → Prop} {E : Server → Prop} :
    Outcome (readBody raw contentLength) s Q E ↔
      Outcome (bodyLoop (already raw + needed raw contentLength) (needed raw contentLength) (carried raw) (already raw)) s
        (fun r s' => Outcome (orStop (slice (r.1 ++ List.replicate (bodyBufSize - r.1.length) 0) 0 r.2)) s' Q E) E := by
  have hend := already_add_le raw
  unfold readBody carried needed
  dsimp only
  split_ifs with h
  · rw [outcome_bind, outcome_slice (Nat.le_add_right _ _) (by omega), Nat.add_sub_cancel_left, outcome_bind]
  · rw [outcome_bind, outcome_pure, outcome_bind]

lemma readBody_returns (h : already raw ≤ bodyBufSize) (contentLength : Nat) (s : Server) :
    Outcome (readBody raw contentLength) s (fun _ s' => SameServices s s') fun _ => False := by
  have hcarried : (carried raw).length = already raw := by
    rw [length_carried]
    exact min_eq_left h
  have hroom : wrap64 (2 ^ 64 + bodyBufSize - already raw) = bodyBufSize - already raw := by
    rw [Nat.add_sub_assoc h, wrap64, Nat.add_mod_left]
    exact Nat.mod_eq_of_lt (by rw [bodyBufSize]; omega)
  have hlimit : already raw + needed raw contentLength ≤ bodyBufSize := by
    rw [needed, hroom]
    omega
  rw [outcome_readBody]
  have hfits : (carried raw).length ≤ already raw + needed raw contentLength := by
    rw [hcarried]
    exact Nat.le_add_right _ _
  have hloop := bodyLoop_returns hlimit (needed raw contentLength) hfits s
  rw [hcarried] at hloop
  refine hloop.mono ?_ fun _ h => h
  rintro r s' ⟨hr, -, hs'⟩
  rw [hr, outcome_slice (Nat.zero_le _) (by rw [length_append]; exact Nat.le_add_right _ _)]
  exact hs'

lemma readBody_overlong (h : bodyBufSize < already raw) (contentLength : Nat) (s : Server) :
    Outcome (readBody raw contentLength) s (fun _ _ => False) fun _ => True := by
  rw [outcome_readBody]
  refine (bodyLoop_overlong h _ _ s).mono ?_ fun _ _ => trivial
  rintro _ s' rfl
  have hlength := length_carried raw
  have hnone : slice (carried raw ++ List.replicate (bodyBufSize - (carried raw).length) 0) 0 (already raw) = none := by
    rw [slice_eq_none_iff, length_append, length_replicate]
    omega
  rw [hnone, outcome_orStop_none]
  trivial

end Reading

section Connections

variable {site : Site}

def Answered (s : Server) : Prop := s.sendable.headD false = true ∧ (awaitFrom 2 (s.waits.headD [])).isSome

lemma outcome_buildResponse (status : Nat) (contentType body : Bytes) (s : Server) :
    Returns (orStop (buildResponse status contentType body)) s := by
  obtain ⟨resp, hresp⟩ := buildResponse_eq_some status contentType body
  rw [hresp]
  trivial

lemma pageInfer_returns (prompt : Bytes) (s : Server) : Returns (pageInfer site prompt) s := by
  unfold Returns pageInfer
  refine outcome_ite.mpr ⟨fun _ => outcome_buildResponse _ _ _ s, fun _ => ?_⟩
  refine outcome_ite.mpr ⟨fun _ => outcome_buildResponse _ _ _ s, fun _ => ?_⟩
  rw [outcome_bind, outcome_modifyGet]
  refine outcome_ite.mpr ⟨fun _ => outcome_buildResponse _ _ _ _, fun _ => ?_⟩
  rw [outcome_bind, outcome_modifyGet]
  split
  · exact outcome_buildResponse _ _ _ _
  · exact outcome_buildResponse _ _ _ _

lemma pageMem_returns_iff (query : Bytes) (s : Server) :
    Returns (pageMem site query) s ↔ ¬(queryParameter query ≠ [] ∧ Answered s) := by
  unfold Returns pageMem Answered
  by_cases hq : queryParameter query = []
  · rw [if_pos hq]
    exact ⟨fun _ h => h.1 hq, fun _ => outcome_buildResponse _ _ _ s⟩
  · rw [if_neg hq, outcome_bind, outcome_modifyGet]
    by_cases hsent : s.sendable.headD false = true
    · have hok : (sendMessage 2 (queryRequest site (queryParameter query)) s).1 = true := hsent
      rw [hok]
      simp only [Bool.not_true, Bool.false_eq_true, if_false, outcome_bind, outcome_modifyGet]
      have hwait : (Server.nextWait (sendMessage 2 (queryRequest site (queryParameter query)) s).2).1 =
          s.waits.headD [] := rfl
      rw [hwait]
      cases hreply : awaitFrom 2 (s.waits.headD []) with
      | none => exact ⟨fun _ h => Bool.false_ne_true h.2.2, fun _ => outcome_buildResponse _ _ _ _⟩
      | some reply =>
        dsimp only
        rw [memResult_eq_none, outcome_orStop_none]
        exact ⟨False.elim, fun h => h ⟨hq, hsent, rfl⟩⟩
    · have hfailed : (sendMessage 2 (queryRequest site (queryParameter query)) s).1 = false :=
        Bool.eq_false_iff.mpr hsent
      rw [hfailed]
      simp only [Bool.not_false, if_true]
      exact ⟨fun _ h => hsent h.2.1, fun _ => outcome_buildResponse _ _ _ _⟩

lemma sendLoop_returns (resp : Bytes) (turns sent : Nat) (s : Server) : Returns (sendLoop resp turns sent) s := by
  induction turns generalizing sent s with
  | zero => trivial
  | succ turns ih =>
    unfold Returns sendLoop
    refine outcome_ite.mpr ⟨fun hlt => ?_, fun _ => trivial⟩
    rw [outcome_bind, outcome_slice hlt.le le_rfl, outcome_bind, outcome_onLine_modifyGet]
    exact outcome_ite.mpr ⟨fun _ => trivial, fun _ => ih _ _⟩

def AsksMemory (method path : Bytes) : Prop :=
  method = ascii "GET" ∧ pathBase path = ascii "/mem" ∧ queryParameter (pathQuery path) ≠ []

lemma outcome_orStop_eq_some {α : Type} {o : Option α} (h : ∃ a, o = some a) (s : Server) : Returns (orStop o) s := by
  obtain ⟨a, rfl⟩ := h
  trivial

lemma route_returns_iff (method path body : Bytes) (s : Server) :
    Returns (route site method path body) s ↔ ¬(AsksMemory method path ∧ Answered s) := by
  have hother : ∀ base : Bytes, base ≠ ascii "/mem" → pathBase path = base → ¬(AsksMemory method path ∧ Answered s) := by
    rintro base hne hbase ⟨⟨-, hmem, -⟩, -⟩
    exact hne (hbase.symm.trans hmem)
  unfold route
  split_ifs with hindex hhealth hstats hinfer hmem
  · exact iff_of_true (outcome_orStop_eq_some (pageIndex_eq_some site) s) (hother _ (by decide) hindex.2)
  · exact iff_of_true (outcome_buildResponse _ _ _ s) (hother _ (by decide) hhealth.2)
  · exact iff_of_true (outcome_orStop_eq_some (pageStats_eq_some site) s) (hother _ (by decide) hstats.2)
  · exact iff_of_true (pageInfer_returns body s) (hother _ (by decide) hinfer.2)
  · rw [pageMem_returns_iff]
    exact not_congr ⟨fun h => ⟨⟨hmem.1, hmem.2, h.1⟩, h.2⟩, fun h => ⟨h.1.2.2, h.2⟩⟩
  · exact iff_of_true (outcome_buildResponse _ _ _ s) fun h => hmem ⟨h.1.1, h.1.2.1⟩

def Served (raw : Bytes) (s : Server) : Prop :=
  ∀ method path version, parseRequestLine raw = some (some (method, path, version)) →
    already raw ≤ bodyBufSize ∧ ¬(isWsUpgrade raw = some false ∧ AsksMemory method path ∧ Answered s)

lemma serveRequest_returns_iff (turns : Nat) (raw : Bytes) (s : Server) :
    Returns (serveRequest site turns raw) s ↔ Served raw s := by
  obtain ⟨line, hline⟩ := parseRequestLine_eq_some raw
  obtain ⟨length, hcontent⟩ := parseContentLength_eq_some raw
  obtain ⟨ws, hws⟩ := isWsUpgrade_eq_some raw
  unfold Returns serveRequest Served
  rw [hline, outcome_bind, outcome_orStop_some]
  cases line with
  | none => exact iff_of_true (send400_returns s) nofun
  | some line =>
    obtain ⟨method, path, version⟩ := line
    dsimp only
    rw [hcontent, outcome_bind, outcome_orStop_some, outcome_bind]
    rcases Nat.lt_or_ge bodyBufSize (already raw) with hlong | hfits
    · refine iff_of_false ?_ fun h => absurd (h method path version rfl).1 (Nat.not_le.mpr hlong)
      exact fun h => h.clash (readBody_overlong hlong _ s) fun _ _ _ h => h
    · obtain ⟨body, s', hbody, hsend, hwaits⟩ := (readBody_returns hfits (length.getD 0) s).exists_ok
      have hanswered : Answered s' ↔ Answered s := by
        unfold Answered
        rw [hsend, hwaits]
      rw [outcome_of_ok hbody, hws, outcome_bind, outcome_orStop_some]
      cases ws with
      | true => exact iff_of_true (upgrade_returns site turns raw path s') fun _ _ _ _ => ⟨hfits, nofun⟩
      | false =>
        have hroute := (returns_bind_iff (x := route site method path body) (s := s')
          fun resp s'' => sendLoop_returns resp resp.length 0 s'').trans (route_returns_iff method path body s')
        rw [hanswered] at hroute
        refine hroute.trans ⟨?_, fun h hmem => (h method path version rfl).2 ⟨rfl, hmem⟩⟩
        rintro hmem _ _ _ heq
        obtain ⟨rfl, rfl, rfl⟩ := Prod.mk.inj (some.inj (some.inj heq)) |>.imp id Prod.mk.inj
        exact ⟨hfits, fun h => hmem h.2⟩

/-- A connection is served to its end unless more than 512 bytes of the body come together with the
headers, or the semantic service answers a query. -/
theorem connection_served_iff (site : Site) (turns : Nat) (s : Server) :
    Returns (handleConnection site turns) s ↔
      ∀ raw s', readHead recvBufSize [] s = .ok (some raw, s') → Served raw s := by
  have hnil : ([] : Bytes).length ≤ recvBufSize := Nat.zero_le _
  obtain ⟨head, s', hhead, hsend, hwaits⟩ := (readHead_returns recvBufSize hnil s).exists_ok
  have hserved : ∀ raw, Served raw s' ↔ Served raw s := by
    intro raw
    unfold Served Answered
    rw [hsend, hwaits]
  unfold Returns handleConnection
  rw [outcome_bind, outcome_of_ok hhead, hhead]
  cases head with
  | none => exact iff_of_true trivial nofun
  | some raw =>
    have honly : (∀ raw' s'', Except.ok (some raw, s') = (Except.ok (some raw', s'') : Except Server _) →
        Served raw' s) ↔ Served raw s := by
      refine ⟨fun h => h raw s' rfl, ?_⟩
      intro h raw' s'' heq
      obtain rfl := some.inj (Prod.mk.inj (Except.ok.inj heq)).1
      exact h
    rw [honly]
    cases raw with
    | nil => exact iff_of_true trivial nofun
    | cons b raw => exact (serveRequest_returns_iff turns (b :: raw) s').trans (hserved _)

def segment (data : Bytes) : Server where
  line := ⟨some [], .established, [⟨data, none, false, false⟩], [], []⟩
  late := []
  sendable := []
  waits := []
  posted := []

def quietSite : Site := ⟨5, Vector.replicate 4 0, 0, 0, 0, 0, 0, 0, 0, fun _ => 0⟩

/-- One segment stops the server: a request with 513 bytes after the blank line. -/
theorem long_body_stops :
    ¬Returns (handleConnection quietSite 0) (segment (ascii "GET / HTTP/1.1\r\n\r\n" ++ List.replicate 513 65)) := by
  decide +kernel

end Connections

end Aeglos.Httpd
