import Aeglos.Proofs.TlsHandshake

/-!
# Fetched bodies

A response of a server and the bytes that `http_get` and `tls_get` return for it.
-/

namespace Aeglos.Net

open Tcp Slices List Option

section Response

variable {data : Bytes}

structure HeaderField where
  name : Bytes
  value : Bytes
  name_chars : ∀ b ∈ name, b ≠ 13 ∧ b ≠ 10 ∧ b ≠ 58
  value_chars : ∀ b ∈ value, b ≠ 13 ∧ b ≠ 10

def HeaderField.line (f : HeaderField) : Bytes := f.name ++ 58 :: f.value

def decimal (n : Nat) : Bytes := ((Nat.digits 10 n).reverse.map fun d => UInt8.ofNat (48 + d))

structure HeaderField.IsContentLength (f : HeaderField) (n : Nat) : Prop where
  name : f.name.map toAsciiLowercase = ascii "content-length"
  value : ∃ before after : Bytes, f.value = before ++ (if n = 0 then [48] else decimal n) ++ after ∧
    ∀ b ∈ before ++ after, b = 32 ∨ b = 9

structure Response where
  tens : UInt8
  ones : UInt8
  reason : Bytes
  fields : List HeaderField
  body : Bytes
  tens_digit : 48 ≤ tens ∧ tens ≤ 57
  ones_digit : 48 ≤ ones ∧ ones ≤ 57
  reason_chars : ∀ b ∈ reason, b ≠ 13 ∧ b ≠ 10
  contentLength : ∃ f ∈ fields, f.IsContentLength body.length
  oneLength : ∀ f ∈ fields, f.name.map toAsciiLowercase = ascii "content-length" → f.IsContentLength body.length

def crlf : Bytes := [13, 10]

def Response.statusLine (r : Response) : Bytes :=
  72 :: 84 :: 84 :: 80 :: 47 :: 49 :: 46 :: 49 :: 32 :: 50 :: r.tens :: r.ones :: 32 :: r.reason

def Response.lines (r : Response) : List Bytes := r.statusLine :: r.fields.map HeaderField.line

def headOf (lines : List Bytes) : Bytes := lines.flatMap (· ++ crlf) ++ crlf

def Response.head (r : Response) : Bytes := headOf r.lines

def Response.bytes (r : Response) : Bytes := r.head ++ r.body

structure PlainLine (line : Bytes) : Prop where
  line_ne : line ≠ []
  chars : ∀ b ∈ line, b ≠ 13 ∧ b ≠ 10

lemma forall_mem_of_all {P : UInt8 → Prop} [DecidablePred P]
    (h : (data.all fun b => decide (P b)) = true) : ∀ b ∈ data, P b := by
  intro b hb
  exact of_decide_eq_true (all_eq_true.mp h b hb)

lemma ne_of_digit {b : UInt8} (h : 48 ≤ b) : b ≠ 13 ∧ b ≠ 10 := by
  constructor
  · rintro rfl
    exact absurd h (by decide)
  · rintro rfl
    exact absurd h (by decide)

lemma Response.plain_lines (r : Response) : ∀ line ∈ r.lines, PlainLine line := by
  intro line hline
  rcases mem_cons.mp hline with rfl | hline
  · have htens := r.tens_digit
    have hones := r.ones_digit
    refine ⟨by simp [Response.statusLine], ?_⟩
    intro b hb
    have hsplit : r.statusLine = [72, 84, 84, 80, 47, 49, 46, 49, 32, 50] ++ (r.tens :: r.ones :: 32 :: r.reason) := rfl
    rw [hsplit] at hb
    rcases mem_append.mp hb with hb | hb
    · have hfixed : ∀ b ∈ ([72, 84, 84, 80, 47, 49, 46, 49, 32, 50] : Bytes), b ≠ 13 ∧ b ≠ 10 :=
        forall_mem_of_all (by decide)
      exact hfixed b hb
    · simp only [mem_cons] at hb
      rcases hb with rfl | rfl | rfl | hb
      · exact ne_of_digit htens.1
      · exact ne_of_digit hones.1
      · decide
      · exact r.reason_chars b hb
  · obtain ⟨f, -, rfl⟩ := mem_map.mp hline
    refine ⟨by simp [HeaderField.line], ?_⟩
    intro b hb
    rcases mem_append.mp hb with hb | hb
    · obtain ⟨h13, h10, -⟩ := f.name_chars b hb
      exact ⟨h13, h10⟩
    · rcases mem_cons.mp hb with rfl | hb
      · decide
      · exact f.value_chars b hb

abbrev BlankAt (data : Bytes) (i : Nat) : Prop := (data.drop i).take 4 = blankLine

lemma BlankAt.bound {i : Nat} (h : BlankAt data i) : i + 4 ≤ data.length := by
  have hlength := congrArg List.length h
  rw [length_take, length_drop] at hlength
  have hblank : blankLine.length = 4 := rfl
  omega

lemma blankAt_append {data tail : Bytes} {i : Nat} (h : i + 4 ≤ data.length) :
    BlankAt (data ++ tail) i ↔ BlankAt data i := by
  have htake : ((data ++ tail).drop i).take 4 = (data.drop i).take 4 := by
    rw [drop_append_of_le_length (by omega), take_append_of_le_length]
    rw [length_drop]
    omega
  rw [BlankAt, BlankAt, htake]

lemma findBlank_eq_some {a i : Nat} (h : findBlank data a = some i) :
    BlankAt data i ∧ ∀ j, a ≤ j → j < i → ¬ BlankAt data j := by
  obtain ⟨hblank, -, hfirst⟩ := find?_range'_eq_some.mp h
  refine ⟨beq_iff_eq.mp hblank, ?_⟩
  intro j ha hj hblank'
  have hnot := hfirst j ha hj
  rw [beq_iff_eq.mpr hblank'] at hnot
  exact absurd hnot (by decide)

lemma findBlank_eq_none {a j : Nat} (h : findBlank data a = none) (ha : a ≤ j) : ¬ BlankAt data j := by
  intro hblank
  have hbound := hblank.bound
  have hmem : j ∈ List.range' a (data.length - 3 - a) := mem_range'_1.mpr ⟨ha, by omega⟩
  exact find?_eq_none.mp h j hmem (beq_iff_eq.mpr hblank)

lemma blank_headOf {lines : List Bytes} (hlines : ∀ line ∈ lines, PlainLine line) {i : Nat}
    (h : BlankAt (headOf lines) i) : i + 4 = (headOf lines).length := by
  have hbyte : ∀ k < 4, (headOf lines)[i + k]? = blankLine[k]? := by
    intro k hk
    rw [← h, getElem?_take_of_lt hk, getElem?_drop]
  induction lines generalizing i with
  | nil =>
    have hbound := h.bound
    have hhead : (headOf []).length = 2 := rfl
    omega
  | cons line lines ih =>
    have hline := hlines line mem_cons_self
    have hhead : headOf (line :: lines) = line ++ (crlf ++ headOf lines) := by simp [headOf]
    have hlength : (headOf (line :: lines)).length = line.length + 2 + (headOf lines).length := by
      rw [hhead, length_append, length_append]
      simp only [crlf, length_cons, length_nil]
      omega
    have h0 : (headOf (line :: lines))[i]? = some 13 := hbyte 0 (by decide)
    rcases Nat.lt_trichotomy i line.length with hlt | rfl | hgt
    · -- within the line there is no end of a line
      rw [hhead, getElem?_append_left hlt] at h0
      exact absurd rfl (hline.chars 13 (mem_of_getElem? h0)).1
    · -- right after the line the blank line follows only if this is the last one
      have h2 : (headOf (line :: lines))[line.length + 2]? = some 13 := hbyte 2 (by decide)
      rw [hhead, getElem?_append_right (by omega), Nat.add_sub_cancel_left,
        getElem?_append_right (by decide)] at h2
      cases lines with
      | nil => rw [hlength]; rfl
      | cons next lines =>
        have hnext := hlines next (mem_cons_of_mem line mem_cons_self)
        obtain ⟨b, rest, rfl⟩ := exists_cons_of_ne_nil hnext.line_ne
        have hb : b = 13 := some.inj h2
        exact absurd hb (hnext.chars b mem_cons_self).1
    · rcases Nat.lt_or_ge i (line.length + 2) with hnear | hfar
      · obtain rfl : i = line.length + 1 := by omega
        rw [hhead, getElem?_append_right (by omega), Nat.add_sub_cancel_left] at h0
        exact absurd (some.inj h0) (by decide)
      · obtain ⟨j, rfl⟩ : ∃ j, i = line.length + 2 + j := ⟨i - (line.length + 2), by omega⟩
        have hdrop : (headOf (line :: lines)).drop (line.length + 2 + j) = (headOf lines).drop j := by
          rw [hhead, ← drop_drop, ← drop_drop, drop_left]
          rfl
        rw [BlankAt, hdrop] at h
        have hrest := ih (fun l hl => hlines l (mem_cons_of_mem line hl)) h fun k hk => by
          rw [← h, getElem?_take_of_lt hk, getElem?_drop]
        omega

lemma Response.blank_head (r : Response) : ∃ j, j + 4 = r.head.length ∧ BlankAt r.head j := by
  obtain ⟨lines, last, hlines⟩ : ∃ lines last, r.lines = lines ++ [last] :=
    ⟨r.lines.dropLast, r.lines.getLast (cons_ne_nil _ _), (dropLast_append_getLast _).symm⟩
  have hhead : r.head = (lines.flatMap (· ++ crlf) ++ last) ++ blankLine := by
    rw [Response.head, headOf, hlines, flatMap_append]
    simp [crlf, blankLine]
  refine ⟨(lines.flatMap (· ++ crlf) ++ last).length, ?_, ?_⟩
  · have hblank : blankLine.length = 4 := rfl
    rw [hhead, ← hblank, ← length_append]
  · rw [BlankAt, hhead, drop_left]
    rfl

lemma Response.head_end (r : Response) {hdr rest : Bytes} {i : Nat} (hbytes : r.bytes = hdr ++ rest)
    (hblank : BlankAt hdr i) (hfirst : ∀ j < i, ¬ BlankAt hdr j) : i + 4 = r.head.length := by
  obtain ⟨j, hj, hend⟩ := r.blank_head
  have hbound := hblank.bound
  have hwhole : BlankAt (r.head ++ r.body) j := (blankAt_append (by omega)).mpr hend
  rw [← Response.bytes, hbytes] at hwhole
  have hle : i ≤ j := by
    by_contra hlt
    exact hfirst j (by omega) ((blankAt_append (by omega)).mp hwhole)
  have hhead : BlankAt (r.head ++ r.body) i := by
    rw [← Response.bytes, hbytes]
    exact (blankAt_append hbound).mpr hblank
  have hinside : BlankAt r.head i := (blankAt_append (by omega)).mp hhead
  exact blank_headOf r.plain_lines hinside

end Response

section Network

def Pending (l : Line) (rest : Bytes) : Prop := l.rx = none ∨ l.readable ++ (l.arrivals.map Arrival.data).flatten = rest

variable {l : Line} {rest : Bytes}

lemma Pending.take {a : Arrival} {as : List Arrival} (h : Pending l rest) (ha : l.arrivals = a :: as) :
    Pending (l.take a as) rest := by
  rw [Pending, Line.take]
  by_cases hreset : a.reset = true
  · exact Or.inl (if_pos hreset)
  · rcases h with hnone | hbytes
    · exact Or.inl (by simp [hreset, hnone])
    · cases hrx : l.rx with
      | none => exact Or.inl (by simp [hreset])
      | some rx =>
        refine Or.inr ?_
        rw [Line.readable, hrx, ha] at hbytes
        simpa [Line.readable, hreset] using hbytes

lemma Pending.arrive (h : Pending l rest) : Pending l.arrive rest := by
  rw [Line.arrive]
  cases ha : l.arrivals with
  | nil => exact h
  | cons a as => exact h.take ha

lemma Pending.waitLoop {arrivals : List Arrival} (h : Pending l rest) (ha : l.arrivals = arrivals) :
    Pending (Net.waitLoop arrivals l).2 rest := by
  induction arrivals generalizing l with
  | nil => exact h
  | cons a as ih =>
    have htake := h.take ha
    rw [Net.waitLoop]
    split_ifs
    · exact htake
    · exact htake
    · exact ih htake rfl

lemma Pending.read {n : Nat} (h : Pending l rest) :
    ∃ rest', rest = (tcpRead n l).1 ++ rest' ∧ Pending (tcpRead n l).2 rest' := by
  have harrive := h.arrive
  rw [tcpRead]
  dsimp only
  cases hrx : l.arrive.rx with
  | none => exact ⟨rest, by simp [Line.readable, hrx], Or.inl rfl⟩
  | some rx =>
    rcases harrive with hnone | hbytes
    · exact absurd hnone (by simp [hrx])
    · refine ⟨rx.drop n ++ (l.arrive.arrivals.map Arrival.data).flatten, ?_, Or.inr rfl⟩
      rw [← hbytes, Line.readable, hrx, getD_some, ← append_assoc, take_append_drop]

end Network

lemma headLoop_found {turns k : Nat} {hdr hdr' rest : Bytes} {l l' : Line}
    (h : headLoop turns hdr l = some (.found k, hdr', l')) (hpending : Pending l rest) (hlength : hdr.length ≤ 2048)
    (hnone : ∀ j, ¬ BlankAt hdr j) :
    ∃ i rest', k = i + 4 ∧ hdr ++ rest = hdr' ++ rest' ∧ Pending l' rest' ∧ hdr'.length ≤ 2048 ∧
      BlankAt hdr' i ∧ ∀ j < i, ¬ BlankAt hdr' j := by
  induction turns generalizing hdr l rest with
  | zero => exact absurd h (by simp [headLoop])
  | succ turns ih =>
    have hwait : Pending (tcpWaitReadable l).2 rest := hpending.waitLoop rfl
    rw [headLoop] at h
    rcases hready : tcpWaitReadable l with ⟨ready, l₁⟩
    rw [hready] at h hwait
    dsimp only at h
    split at h
    · obtain ⟨rest₁, hrest, hread⟩ : ∃ rest₁, rest = (tcpRead (2048 - hdr.length) l₁).1 ++ rest₁ ∧
          Pending (tcpRead (2048 - hdr.length) l₁).2 rest₁ := hwait.read
      have hshort : (tcpRead (2048 - hdr.length) l₁).1.length ≤ 2048 - hdr.length := length_take_le _ _
      rcases hbytes : tcpRead (2048 - hdr.length) l₁ with ⟨bytes, l₂⟩
      rw [hbytes] at h hrest hread hshort
      dsimp only at h hrest hshort
      have hroom : (hdr ++ bytes).length ≤ 2048 := by
        rw [length_append]
        omega
      -- the search begins where the blank line could not be complete before
      have hbefore : ∀ j < hdr.length - 3, ¬ BlankAt (hdr ++ bytes) j := by
        intro j hj hblank
        exact hnone j ((blankAt_append (by omega)).mp hblank)
      split at h
      · next hnil =>
        rw [hnil, nil_append] at hrest
        rw [hrest]
        exact ih h hread hlength hnone
      · split at h
        · next i hfind =>
          obtain ⟨hblank, hfirst⟩ := findBlank_eq_some hfind
          obtain ⟨hk, hhdr, hl⟩ : HeadEnd.found (i + 4) = .found k ∧ hdr ++ bytes = hdr' ∧ l₂ = l' := by
            simpa using h
          obtain rfl : i + 4 = k := HeadEnd.found.inj hk
          subst hhdr hl
          refine ⟨i, rest₁, rfl, by rw [hrest, append_assoc], hread, hroom, hblank, ?_⟩
          intro j hj
          rcases Nat.lt_or_ge j (hdr.length - 3) with hlt | hge
          · exact hbefore j hlt
          · exact hfirst j hge hj
        · next hfind =>
          split at h
          · exact absurd h (by simp)
          · rw [hrest, ← append_assoc]
            refine ih h hread hroom ?_
            intro j
            rcases Nat.lt_or_ge j (hdr.length - 3) with hlt | hge
            · exact hbefore j hlt
            · exact findBlank_eq_none hfind hge
    · split at h
      · exact absurd h (by simp)
      · exact absurd h (by simp)

lemma headLoop_failed {turns : Nat} {e : HttpResult} {hdr hdr' : Bytes} {l l' : Line}
    (h : headLoop turns hdr l = some (.failed e, hdr', l')) (n : Nat) : e ≠ .ok n := by
  induction turns generalizing hdr l with
  | zero => exact absurd h (by simp [headLoop])
  | succ turns ih =>
    rw [headLoop] at h
    dsimp only at h
    split at h
    · split at h
      · exact ih h
      · split at h
        · exact absurd h (by simp)
        · split at h
          · obtain ⟨rfl, -⟩ : HttpResult.httpError 0 = e ∧ _ := by simpa using h
            exact HttpResult.noConfusion
          · exact ih h
    · split at h
      · exact absurd h (by simp)
      · obtain ⟨rfl, -⟩ : HttpResult.timeout = e ∧ _ := by simpa using h
        exact HttpResult.noConfusion

lemma bodyLoop_ok {room turns n : Nat} {contentLength : Option Nat} {out out' rest : Bytes} {l l' : Line}
    (h : bodyLoop room contentLength turns out l = some (.ok n, out', l')) (hpending : Pending l rest) :
    n = out'.length ∧ ∃ rest', out ++ rest = out' ++ rest' := by
  induction turns generalizing out l rest with
  | zero => exact absurd h (by simp [bodyLoop])
  | succ turns ih =>
    have hstop : ∀ {out₁ rest₁ : Bytes} {l₁ : Line}, out ++ rest = out₁ ++ rest₁ →
        some (HttpResult.ok out₁.length, out₁, l₁) = some (.ok n, out', l') →
        n = out'.length ∧ ∃ rest', out ++ rest = out' ++ rest' := by
      intro out₁ rest₁ l₁ hsplit hresult
      obtain ⟨hn, hout, -⟩ : out₁.length = n ∧ out₁ = out' ∧ l₁ = l' := by simpa using hresult
      subst hout
      exact ⟨hn.symm, rest₁, hsplit⟩
    have harrive : Pending (tcpReadable l).2 rest := hpending.arrive
    rw [bodyLoop] at h
    rcases hreadable : tcpReadable l with ⟨avail, l₁⟩
    rw [hreadable] at h harrive
    dsimp only at h
    split at h
    · split at h
      · exact absurd h (by simp)
      · obtain ⟨rest₁, hrest, hread⟩ : ∃ rest₁, rest = (tcpRead (room - out.length) l₁).1 ++ rest₁ ∧
            Pending (tcpRead (room - out.length) l₁).2 rest₁ := harrive.read
        rcases hbytes : tcpRead (room - out.length) l₁ with ⟨bytes, l₂⟩
        rw [hbytes] at h hrest hread
        dsimp only at h hrest
        have hsplit : out ++ rest = (out ++ bytes) ++ rest₁ := by rw [hrest, append_assoc]
        split at h
        · exact hstop hsplit h
        · rw [hsplit]
          exact ih h hread
    · have hstate : Pending (tcpState l₁).2 rest := harrive.arrive
      rcases hst : tcpState l₁ with ⟨st, l₂⟩
      rw [hst] at h hstate
      dsimp only at h
      split at h
      · exact hstop rfl h
      · have hwait : Pending (tcpWaitReadable l₂).2 rest := hstate.waitLoop rfl
        rcases hready : tcpWaitReadable l₂ with ⟨ready, l₃⟩
        rw [hready] at h hwait
        dsimp only at h
        split at h
        · exact ih h hwait
        · exact hstop rfl h

def Line.Serves (l : Line) (data : Bytes) : Prop :=
  l.rx.isSome ∧ l.readable ++ (l.arrivals.map Arrival.data).flatten = data

lemma httpGet_ok {r : Response} {turns room n : Nat} {o : Opening} {host path out : Bytes}
    (hserves : o.line.Serves r.bytes) (h : httpGet turns o host path room = some (.ok n, out)) :
    r.head.length ≤ 2048 ∧ n = out.length ∧ ∃ rest, r.body = out ++ rest := by
  have hpending : Pending (tcpWrite (buildRequest host path) o.line).2 r.bytes := Or.inr hserves.2
  rw [httpGet] at h
  split at h
  · exact absurd h (by simp)
  split at h
  · exact absurd h (by simp)
  split at h
  · exact absurd h (by simp)
  rcases hwrite : tcpWrite (buildRequest host path) o.line with ⟨sent, l⟩
  rw [hwrite] at h hpending
  dsimp only at h
  split at h
  · exact absurd h (by simp)
  obtain ⟨⟨result, out', l'⟩, hresponse, hresult⟩ := bind_eq_some_iff.mp h
  obtain ⟨rfl, rfl⟩ : result = .ok n ∧ out' = out := by simpa using hresult
  rw [readResponse] at hresponse
  obtain ⟨⟨e, hdr, l₁⟩, hhead, hrest⟩ := bind_eq_some_iff.mp hresponse
  have hempty : ∀ j, ¬ BlankAt [] j := by
    intro j hblank
    exact absurd hblank.bound (by simp)
  cases e with
  | failed e =>
    obtain ⟨he, -⟩ : e = .ok n ∧ _ := by simpa using hrest
    exact absurd he (headLoop_failed hhead n)
  | closed => exact absurd hrest (by simp)
  | found k =>
    obtain ⟨i, rest, rfl, hbytes, hpending₁, hlength, hblank, hfirst⟩ := headLoop_found hhead hpending (by simp) hempty
    rw [nil_append] at hbytes
    have hend := r.head_end hbytes hblank hfirst
    have hbound := hblank.bound
    -- what follows the head in the buffer is the beginning of the body
    have hbody : r.body = hdr.drop (i + 4) ++ rest := by
      have hdrop := congrArg (List.drop r.head.length) hbytes
      rw [Response.bytes, drop_left, ← hend, drop_append_of_le_length hbound] at hdrop
      exact hdrop
    refine ⟨by omega, ?_⟩
    rw [hbody]
    dsimp only at hrest
    split at hrest
    · exact absurd hrest (by simp)
    split at hrest
    · exact absurd hrest (by simp)
    split at hrest
    · split at hrest
      · exact absurd hrest (by simp)
      split at hrest
      · obtain ⟨hn, hout, -⟩ : (hdr.drop (i + 4)).length = n ∧ hdr.drop (i + 4) = out' ∧ l₁ = l' := by simpa using hrest
        subst hout
        exact ⟨hn.symm, rest, rfl⟩
      · exact bodyLoop_ok hrest hpending₁
    · exact bodyLoop_ok hrest hpending₁

section Pause

def arriving (data : Bytes) : Arrival := ⟨data, none, false, false⟩

def pause : Arrival := ⟨[], none, false, true⟩

def openLine (rx : Bytes) (arrivals : List Arrival) (writes : List Nat) (sent : List Bytes) : Line :=
  ⟨some rx, .established, arrivals, writes, sent⟩

def Response.paused (r : Response) : Opening :=
  ⟨true, true, true, openLine [] [arriving r.head, arriving [], arriving [], arriving [], pause, arriving r.body] [1] []⟩

lemma Response.paused_serves (r : Response) : r.paused.line.Serves r.bytes := by
  refine ⟨rfl, ?_⟩
  simp [Response.paused, openLine, Line.readable, arriving, pause, Response.bytes]

lemma Response.parseStatus_head (r : Response) : 200 ≤ parseStatus r.head ∧ parseStatus r.head < 300 := by
  obtain ⟨rest, hhead⟩ : ∃ rest, r.head =
      72 :: 84 :: 84 :: 80 :: 47 :: 49 :: 46 :: 49 :: 32 :: 50 :: r.tens :: r.ones :: rest :=
    ⟨32 :: r.reason ++ crlf ++ headOf (r.fields.map HeaderField.line), by
      simp [Response.head, Response.lines, headOf, Response.statusLine]⟩
  have hversion : ascii "HTTP/" = [72, 84, 84, 80, 47] := by decide
  obtain ⟨htens, htens'⟩ := r.tens_digit
  obtain ⟨hones, hones'⟩ := r.ones_digit
  have hstatus : statusCode r.head = some ((2 * 10 + (r.tens.toNat - 48)) * 10 + (r.ones.toNat - 48)) := by
    rw [statusCode, hhead, hversion]
    simp [statusDigits, htens, htens', hones, hones']
  have htens_le : r.tens.toNat ≤ 57 := UInt8.le_iff_toNat_le.mp htens'
  have hones_le : r.ones.toNat ≤ 57 := UInt8.le_iff_toNat_le.mp hones'
  rw [parseStatus, hstatus, getD_some]
  omega

lemma Response.findBlank_head (r : Response) : findBlank r.head 0 = some (r.head.length - 4) := by
  cases hfind : findBlank r.head 0 with
  | none =>
    obtain ⟨j, -, hblank⟩ := r.blank_head
    exact absurd hblank (findBlank_eq_none hfind (Nat.zero_le j))
  | some i =>
    have hend := blank_headOf r.plain_lines (findBlank_eq_some hfind).1
    rw [← Response.head] at hend
    rw [← hend, Nat.add_sub_cancel]

variable {writes : List Nat} {sent : List Bytes}

lemma Response.headLoop_paused (r : Response) (hhead : r.head.length ≤ 2048) (turns : Nat) (arrivals : List Arrival) :
    headLoop (turns + 1) [] (openLine [] (arriving r.head :: arriving [] :: arrivals) writes sent) =
      some (.found r.head.length, r.head, openLine [] arrivals writes sent) := by
  obtain ⟨j, hj, -⟩ := r.blank_head
  have hne : r.head ≠ [] := by
    intro hnil
    rw [hnil] at hj
    exact absurd hj (by simp)
  have hend : r.head.length - 4 + 4 = r.head.length := by omega
  have hwait : tcpWaitReadable (openLine [] (arriving r.head :: arriving [] :: arrivals) writes sent) =
      (true, openLine r.head (arriving [] :: arrivals) writes sent) := by
    rw [tcpWaitReadable, openLine, waitLoop]
    exact if_pos hne
  have hread : tcpRead 2048 (openLine r.head (arriving [] :: arrivals) writes sent) =
      (r.head, openLine [] arrivals writes sent) := by
    rw [tcpRead, Line.arrive, openLine]
    simp [Line.take, Line.readable, arriving, openLine, take_of_length_le hhead, drop_of_length_le hhead]
  rw [headLoop, hwait]
  simp [hread, hne, r.findBlank_head, hend]

lemma bodyLoop_pause {room : Nat} {contentLength : Option Nat} (turns : Nat) (out : Bytes) (arrivals : List Arrival) :
    bodyLoop room contentLength (turns + 1) out
        (openLine [] (arriving [] :: arriving [] :: pause :: arrivals) writes sent) =
      some (.ok out.length, out, openLine [] arrivals writes sent) := rfl

lemma Response.httpGet_paused (r : Response) (hhead : r.head.length ≤ 2048) (host path : Bytes) (room : Nat) :
    httpGet 1 r.paused host path room = some (.ok 0, []) := by
  obtain ⟨hstatus, hstatus'⟩ := r.parseStatus_head
  have hwrite : tcpWrite (buildRequest host path) r.paused.line =
      (1, openLine [] (arriving r.head :: arriving [] :: [arriving [], arriving [], pause, arriving r.body]) []
        [buildRequest host path]) := rfl
  have hresponse : readResponse 1 room
      (openLine [] (arriving r.head :: arriving [] :: [arriving [], arriving [], pause, arriving r.body]) []
        [buildRequest host path]) =
      some (.ok 0, [], openLine [] [arriving r.body] [] [buildRequest host path]) := by
    rw [readResponse, r.headLoop_paused hhead]
    simp [bodyLoop_pause, hstatus, hstatus', Nat.ne_of_gt (Nat.lt_of_lt_of_le (by decide : 0 < 200) hstatus)]
  rw [httpGet, hwrite]
  simp [hresponse, Response.paused]

end Pause

def Response.Exact (r : Response) : HttpResult × Bytes → Prop
  | (.ok n, out) => n = r.body.length ∧ out.take n = r.body
  | _ => True

structure Response.FetchedExactly (r : Response) : Prop where
  http : ∀ turns o host path room result, o.line.Serves r.bytes →
    httpGet turns o host path room = some result → r.Exact result
  tls : ∀ c now secret random o host path room result,
    Tls.tlsGet c now secret random o host path room = some result → r.Exact result

lemma tlsGet_ne_ok {c : Tls.Crypto} {now : Nat} {secret random host path out : Bytes} {o : Opening} {room n : Nat} :
    Tls.tlsGet c now secret random o host path room ≠ some (.ok n, out) := by
  intro h
  rw [Tls.tlsGet] at h
  obtain ⟨conn, hconn, hrest⟩ := bind_eq_some_iff.mp h
  cases conn with
  | none => exact absurd hrest (by simp)
  | some conn => exact Tls.tlsHandshake_ne_connection secret random o conn.1 conn.2 hconn

/-- A response is fetched exactly, whatever the network does, if and only if its body is empty or its head is
too long to be accepted. -/
theorem exact_fetch_iff (r : Response) : r.FetchedExactly ↔ r.body = [] ∨ 2048 < r.head.length := by
  constructor
  · intro hexact
    by_contra hnot
    obtain ⟨hbody, hhead⟩ := not_or.mp hnot
    have hcut := hexact.http 1 r.paused [] [] 0 _ r.paused_serves (r.httpGet_paused (Nat.le_of_not_lt hhead) [] [] 0)
    exact hbody (length_eq_zero_iff.mp hcut.1.symm)
  · intro hcond
    refine ⟨?_, ?_⟩
    · rintro turns o host path room ⟨result, out⟩ hserves h
      cases result with
      | ok n =>
        obtain ⟨hhead, rfl, rest, hrest⟩ := httpGet_ok hserves h
        have hbody : r.body = [] := hcond.resolve_right (Nat.not_lt.mpr hhead)
        obtain ⟨rfl, -⟩ := append_eq_nil_iff.mp (hrest.symm.trans hbody)
        rw [Response.Exact, hbody]
        exact ⟨rfl, rfl⟩
      | _ => trivial
    · rintro c now secret random o host path room ⟨result, out⟩ h
      cases result with
      | ok n => exact absurd h tlsGet_ne_ok
      | _ => trivial

def oneByte : Response where
  tens := 48
  ones := 48
  reason := ascii "OK"
  fields := [⟨ascii "Content-Length", ascii " 1", forall_mem_of_all (by decide), forall_mem_of_all (by decide)⟩]
  body := [65]
  tens_digit := by decide
  ones_digit := by decide
  reason_chars := forall_mem_of_all (by decide)
  contentLength := ⟨_, List.mem_singleton.mpr rfl, by decide, ascii " ", [], by decide, forall_mem_of_all (by decide)⟩
  oneLength := by
    intro f hf _
    rw [List.mem_singleton.mp hf]
    exact ⟨by decide, ascii " ", [], by decide, forall_mem_of_all (by decide)⟩

/-- The server pauses between the head and the body, and the client reports an empty body. -/
theorem oneByte_cut : oneByte.paused.line.Serves oneByte.bytes ∧
    httpGet 1 oneByte.paused (ascii "host") (ascii "/") 4096 = some (.ok 0, []) ∧ oneByte.body = [65] :=
  ⟨oneByte.paused_serves, oneByte.httpGet_paused (by decide) _ _ _, rfl⟩

/-- Whatever the network does, a success of `http_get` gives a first part of the body and its length. -/
theorem fetched_body_initial {r : Response} {turns room n : Nat} {o : Opening} {host path out : Bytes}
    (hserves : o.line.Serves r.bytes) (h : httpGet turns o host path room = some (.ok n, out)) :
    n = out.length ∧ ∃ rest, r.body = out ++ rest := (httpGet_ok hserves h).2

theorem fetched_body_initial_oneByte : ∃ rest, oneByte.body = [] ++ rest :=
  (fetched_body_initial oneByte.paused_serves (oneByte.httpGet_paused (by decide) [] [] 1)).2

end Aeglos.Net
