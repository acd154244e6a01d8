import Aeglos.Kernel.Dns
import Aeglos.Proofs.NetPanics

/-!
# Where the addresses of the resolver come from

The response handler compares only the transaction number.
-/

namespace Aeglos.Net

open TransitionSystem Effects Slices List Option Function

def wireName (labels : List Bytes) : Bytes := labels.flatMap (fun l => UInt8.ofNat l.length :: l) ++ [0]

structure Encodes (name question : Bytes) : Prop where
  labels : ∀ l ∈ name.splitOn 46, 1 ≤ l.length ∧ l.length ≤ 63
  question_eq : question = wireName (name.splitOn 46) ++ [0, 1, 0, 1]

structure Faithful (name : Bytes) : Prop where
  labels : ∀ l ∈ name.splitOn 46, 1 ≤ l.length ∧ l.length ≤ 63
  short : name.length < 467

lemma sum_splitOn (dot : UInt8) (name : Bytes) : ((name.splitOn dot).map fun l => l.length + 1).sum = name.length + 1 := by
  induction name with
  | nil => rfl
  | cons b name ih =>
    rw [List.splitOn] at ih ⊢
    rw [splitOnP_cons_eq_if_modifyHead]
    split_ifs with hb
    · rw [map_cons, sum_cons, ih, length_nil, length_cons]
      omega
    · obtain ⟨l, rest, hsplit⟩ := exists_cons_of_ne_nil (splitOnP_ne_nil (· == dot) name)
      rw [hsplit, map_cons, sum_cons] at ih
      rw [hsplit, modifyHead_cons, map_cons, sum_cons, length_cons, length_cons]
      omega

lemma queryLabels_eq {labels : List Bytes} {off : Nat} (hlabels : ∀ l ∈ labels, 1 ≤ l.length ∧ l.length ≤ 63)
    (hfit : off + (labels.map fun l => l.length + 1).sum < 480) :
    queryLabels off labels = labels.flatMap fun l => UInt8.ofNat l.length :: l := by
  induction labels generalizing off with
  | nil => rfl
  | cons l rest ih =>
    have hl : l.take 63 = l := take_of_length_le (hlabels l mem_cons_self).2
    rw [map_cons, sum_cons] at hfit
    rw [queryLabels, hl, if_neg (by omega), flatMap_cons,
      ih (fun l' hl' => hlabels l' (mem_cons_of_mem l hl')) (by omega)]

lemma encodes_query {name : Bytes} (h : Faithful name) (txn : Nat) : Encodes name ((buildDnsQuery name txn 1).drop 12) := by
  refine ⟨h.labels, ?_⟩
  have hshort := h.short
  have hfit : 12 + ((name.splitOn 46).map fun l => l.length + 1).sum < 480 := by
    rw [sum_splitOn]
    omega
  have hheader : (toBe txn 2 ++ [0x01, 0x00, 0x00, 0x01, 0x00, 0x00, 0x00, 0x00, 0x00, 0x00]).length = 12 := by
    rw [length_append, toBe, length_reverse, length_toLe]
    rfl
  rw [buildDnsQuery, queryLabels_eq h.labels hfit, append_assoc, append_assoc, append_assoc,
    drop_left' hheader, wireName, append_assoc]
  rfl

section Answers

variable {data : Bytes}

def recordAt (data : Bytes) (off : Nat) : Option (Nat × Bytes × Nat) :=
  match skipAnswerName data off with
  | some (some off) =>
    if off + 10 ≤ data.length ∧ off + 10 + Tcp.be16 data (off + 8) ≤ data.length then
      some (Tcp.be16 data off, (data.drop (off + 10)).take (Tcp.be16 data (off + 8)), off + 10 + Tcp.be16 data (off + 8))
    else none
  | _ => none

def recordAddr (rtype : Nat) (rdata : Bytes) : Option Tcp.IpAddr :=
  if rtype = 1 ∧ rdata.length = 4 then (array4 rdata).map Ip4.addr
  else if rtype = 28 ∧ rdata.length = 16 then (array16 rdata).map Ip6.addr
  else none

def recordAddrs (data : Bytes) : Nat → Nat → List Tcp.IpAddr
  | 0, _ => []
  | ancount + 1, off =>
    match recordAt data off with
    | some (rtype, rdata, next) => (recordAddr rtype rdata).toList ++ recordAddrs data ancount next
    | none => []

lemma answers_carried {ancount off : Nat} {found result : Option Tcp.IpAddr}
    (h : answers data ancount off found = some result) :
    result = found ∨ ∃ addr, result = some addr ∧ addr ∈ recordAddrs data ancount off := by
  induction ancount generalizing off found with
  | zero => exact Or.inl (some.inj h).symm
  | succ ancount ih =>
    have hname : (skipAnswerName data off).isSome := skipAnswerName_isSome off
    obtain ⟨next, hnext⟩ := isSome_iff_exists.mp hname
    rw [answers, hnext] at h
    cases next with
    | none => exact Or.inl (some.inj h).symm
    | some next =>
      simp only [bind_eq_bind, bind_some] at h
      split_ifs at h with hheader
      · exact Or.inl (some.inj h).symm
      rw [be16_eq (by omega), be16_eq (by omega)] at h
      simp only [bind_some] at h
      by_cases hrecord : next + 10 + Tcp.be16 data (next + 8) > data.length
      · rw [if_pos hrecord] at h
        exact Or.inl (some.inj h).symm
      have hdata : ((data.drop (next + 10)).take (Tcp.be16 data (next + 8))).length = Tcp.be16 data (next + 8) := by
        rw [length_take, length_drop]
        omega
      have hat : recordAt data off = some (Tcp.be16 data next,
          (data.drop (next + 10)).take (Tcp.be16 data (next + 8)), next + 10 + Tcp.be16 data (next + 8)) := by
        simp only [recordAt, hnext]
        rw [if_pos ⟨by omega, by omega⟩]
      rw [if_neg hrecord, slice_eq_some (by omega) (by omega), bind_some, Nat.add_sub_cancel_left] at h
      simp only [recordAddrs, hat]
      by_cases ha : Tcp.be16 data next = 1 ∧ Tcp.be16 data (next + 8) = 4
      · rw [if_pos ha, array4, arrayOf_eq (by omega), bind_some] at h
        refine Or.inr ⟨_, (some.inj h).symm, mem_append_left _ ?_⟩
        rw [recordAddr, hdata, if_pos ha, array4, arrayOf_eq (by omega)]
        exact mem_singleton_self _
      rw [if_neg ha] at h
      by_cases haaaa : Tcp.be16 data next = 28 ∧ Tcp.be16 data (next + 8) = 16 ∧ found = none
      · rw [if_pos haaaa, array16, arrayOf_eq (by omega), bind_some] at h
        rcases ih h with hfound | ⟨addr, haddr, hmem⟩
        · refine Or.inr ⟨_, hfound, mem_append_left _ ?_⟩
          rw [recordAddr, hdata, if_neg ha, if_pos ⟨haaaa.1, haaaa.2.1⟩, array16, arrayOf_eq (by omega)]
          exact mem_singleton_self _
        · exact Or.inr ⟨addr, haddr, mem_append_right _ hmem⟩
      rw [if_neg haaaa] at h
      rcases ih h with hfound | ⟨addr, haddr, hmem⟩
      · exact Or.inl hfound
      · exact Or.inr ⟨addr, haddr, mem_append_right _ hmem⟩

def question (data : Bytes) : Option Bytes :=
  match skipQuestions data (Tcp.be16 data 4) 12 with
  | some (some off) => some ((data.take off).drop 12)
  | _ => none

def carried (data : Bytes) : List Tcp.IpAddr :=
  match skipQuestions data (Tcp.be16 data 4) 12 with
  | some (some off) => recordAddrs data (Tcp.be16 data 6) off
  | _ => []

lemma after_handleDnsResponse (data : Bytes) (s : Stack) :
    after (handleDnsResponse data) s = s ∨
    ∃ addr ∈ carried data, after (handleDnsResponse data) s = { s with pendingAddr := some addr } := by
  refine outcome_iff_after (P := fun s' => s' = s ∨ ∃ addr ∈ carried data, s' = { s with pendingAddr := some addr }) |>.mp ?_
  refine outcome_handleDnsResponse (Or.inl rfl) fun off found hquestions hanswers => ?_
  rcases answers_carried hanswers with hkept | ⟨addr, haddr, hmem⟩
  · exact Or.inl (by rw [hkept])
  · refine Or.inr ⟨addr, ?_, by rw [haddr]⟩
    simp only [carried, hquestions]
    exact hmem

end Answers

def Emptied (cache cache' : DnsCache) : Prop := ∀ i, (cache' i).ttlEnd ≠ 0 → cache' i = cache i

lemma Emptied.trans {c₁ c₂ c₃ : DnsCache} (h₁ : Emptied c₁ c₂) (h₂ : Emptied c₂ c₃) : Emptied c₁ c₃ := by
  intro i hi
  have hsame := h₂ i hi
  rw [hsame] at hi ⊢
  exact h₁ i hi

lemma emptied_update (cache : DnsCache) (i : Fin cacheSize) :
    Emptied cache (Function.update cache i { cache i with ttlEnd := 0 }) := by
  intro j hj
  rcases eq_or_ne j i with rfl | hne
  · rw [update_self] at hj
    exact absurd rfl hj
  · exact update_of_ne hne _ _

lemma lookupFrom_emptied (name : Bytes) (now : Nat) (slots : List (Fin cacheSize)) (cache : DnsCache) :
    Emptied cache (lookupFrom name now slots cache).2 := by
  induction slots generalizing cache with
  | nil => exact fun _ _ => rfl
  | cons i rest ih =>
    rw [lookupFrom]
    split_ifs with hempty hold hname
    · exact ih cache
    · exact (emptied_update cache i).trans (ih _)
    · exact fun _ _ => rfl
    · exact ih cache

lemma lookupFrom_hit {name : Bytes} {now : Nat} {slots : List (Fin cacheSize)} {cache : DnsCache} {addr : Tcp.IpAddr}
    (h : (lookupFrom name now slots cache).1 = some addr) :
    ∃ i, (cache i).ttlEnd ≠ 0 ∧ (cache i).name = name ∧ (cache i).addr = addr := by
  induction slots generalizing cache with
  | nil => cases h
  | cons i rest ih =>
    rw [lookupFrom] at h
    split_ifs at h with hempty hold hname
    · exact ih h
    · obtain ⟨j, hused, hj, haddr⟩ := ih h
      have hsame := emptied_update cache i j hused
      rw [hsame] at hused hj haddr
      exact ⟨j, hused, hj, haddr⟩
    · exact ⟨i, hempty, hname, some.inj h⟩
    · exact ih h

namespace Resolver

variable {name : Bytes} {addr : Tcp.IpAddr}

/-- The address was carried in an answer of a response to the question of a query for this name. -/
def Belongs (r : Resolver) (name : Bytes) (addr : Tcp.IpAddr) : Prop :=
  ∃ data ∈ r.received, addr ∈ carried data ∧ ∃ pkt, (name, pkt) ∈ r.queries ∧ question data = some (pkt.drop 12)

/-- A name that is cut neither by the encoding nor in the cache is asked for while no call for another name
waits, and an address is only found in a response to the question of the last query. -/
def Proper (r : Resolver) : DnsAction → Prop
  | .call _ name _ _ => (parseDottedIp name).isSome ∨ (Faithful name ∧
      (∀ tid other, r.waiting tid = some other → other = name) ∧ ∀ q ∈ r.queries, q.1.take 63 = name → q.1 = name)
  | .arrive data => (∃ tid, (r.waiting tid).isSome) → (r.arrive data).stack.pendingAddr = r.stack.pendingAddr ∨
      ∃ q, r.queries.head? = some q ∧ question data = some (q.2.drop 12)
  | .poll _ _ => True
  | .expire _ => True

structure Answered (r : Resolver) : Prop where
  results : ∀ p ∈ r.results, parseDottedIp p.1 = none → r.Belongs p.1 p.2
  queries : ∀ q ∈ r.queries, Encodes q.1 (q.2.drop 12)

structure Sound (r : Resolver) : Prop extends Answered r where
  cached : ∀ i, (r.cache i).ttlEnd ≠ 0 → ∃ name, (r.cache i).name = name.take 63 ∧ r.Belongs name (r.cache i).addr
  current : ∀ tid name, r.waiting tid = some name → ∃ pkt, r.queries.head? = some (name, pkt)
  pending : ∀ tid name, r.waiting tid = some name → ∀ addr, r.stack.pendingAddr = some addr → r.Belongs name addr

lemma Belongs.mono {r r' : Resolver} (h : r.Belongs name addr)
    (hreceived : r.received ⊆ r'.received) (hqueries : r.queries ⊆ r'.queries) : r'.Belongs name addr := by
  obtain ⟨data, hdata, haddr, pkt, hpkt, hquestion⟩ := h
  exact ⟨data, hreceived hdata, haddr, pkt, hqueries hpkt, hquestion⟩

lemma sound_start (stack : Stack) : (start stack).Sound where
  results := nofun
  queries := nofun
  cached := fun _ h => absurd rfl h
  current := nofun
  pending := nofun

variable {r : Resolver}

lemma Sound.answer (h : r.Sound)
    (hbelongs : parseDottedIp name = none → r.Belongs name addr) : (r.answer name addr).Sound where
  results := by
    intro p hp hliteral
    rcases mem_cons.mp hp with rfl | hp
    · exact hbelongs hliteral
    · exact h.results p hp hliteral
  queries := h.queries
  cached := h.cached
  current := h.current
  pending := h.pending

lemma Sound.emptied (h : r.Sound) {cache : DnsCache} (hcache : Emptied r.cache cache) :
    ({ r with cache := cache } : Resolver).Sound where
  results := h.results
  queries := h.queries
  cached := by
    intro i hi
    have hsame : cache i = r.cache i := hcache i hi
    dsimp only at hi ⊢
    rw [hsame] at hi ⊢
    exact h.cached i hi
  current := h.current
  pending := h.pending

lemma leave_waiting (r : Resolver) (tid : Nat) : (r.leave tid).waiting = Function.update r.waiting tid none := rfl

lemma wait_waiting (r : Resolver) (tid : Nat) (name : Bytes) :
    (r.wait tid name).waiting = Function.update r.waiting tid (some name) := rfl

lemma Sound.leave (h : r.Sound) (tid : Nat) : (r.leave tid).Sound := by
  have hwaiting : ∀ other name, (r.leave tid).waiting other = some name → r.waiting other = some name := by
    intro other name hother
    rcases eq_or_ne other tid with rfl | hne
    · rw [leave_waiting, update_self] at hother
      cases hother
    · rwa [leave_waiting, update_of_ne hne] at hother
  exact { results := h.results, queries := h.queries, cached := h.cached,
          current := fun other name hother => h.current other name (hwaiting other name hother),
          pending := fun other name hother => h.pending other name (hwaiting other name hother) }

lemma Sound.cacheInsert (h : r.Sound) (hbelongs : r.Belongs name addr)
    (ttlSecs now : Nat) : (r.cacheInsert name addr ttlSecs now).Sound where
  results := h.results
  queries := h.queries
  cached := by
    intro i hi
    rw [Resolver.cacheInsert] at hi ⊢
    dsimp only at hi ⊢
    by_cases hslot : i = ⟨r.cursor % cacheSize, Nat.mod_lt _ (by decide)⟩
    · rw [hslot, update_self]
      exact ⟨name, rfl, hbelongs⟩
    · rw [update_of_ne hslot] at hi ⊢
      exact h.cached i hi
  current := h.current
  pending := h.pending

lemma Sound.takeAddr (h : r.Sound) : r.takeAddr.Sound where
  results := h.results
  queries := h.queries
  cached := h.cached
  current := h.current
  pending := fun _ _ _ _ haddr => nomatch haddr

lemma Sound.sendQuery (h : r.Sound) (hfaithful : Faithful name)
    (hwaiting : ∀ tid other, r.waiting tid = some other → other = name) (count : Nat) :
    (r.sendQuery name count).Sound where
  results := fun p hp hliteral => (h.results p hp hliteral).mono (List.Subset.refl _) (subset_cons_self _ _)
  queries := by
    intro q hq
    rcases mem_cons.mp hq with rfl | hq
    · exact encodes_query hfaithful _
    · exact h.queries q hq
  cached := by
    intro i hi
    obtain ⟨asked, hname, hbelongs⟩ := h.cached i hi
    exact ⟨asked, hname, hbelongs.mono (List.Subset.refl _) (subset_cons_self _ _)⟩
  current := by
    intro tid other hother
    rw [hwaiting tid other hother]
    exact ⟨_, rfl⟩
  pending := fun _ _ _ _ haddr => nomatch haddr

lemma Sound.wait (h : r.Sound) (tid : Nat) {name pkt : Bytes} (hquery : r.queries.head? = some (name, pkt))
    (hpending : r.stack.pendingAddr = none) : (r.wait tid name).Sound where
  results := h.results
  queries := h.queries
  cached := h.cached
  current := by
    intro other asked hasked
    rcases eq_or_ne other tid with rfl | hne
    · rw [wait_waiting, update_self] at hasked
      rw [← some.inj hasked]
      exact ⟨pkt, hquery⟩
    · rw [wait_waiting, update_of_ne hne] at hasked
      exact h.current other asked hasked
  pending := by
    intro other asked _ addr haddr
    have hnone : (r.wait tid name).stack.pendingAddr = none := hpending
    rw [hnone] at haddr
    cases haddr

lemma Sound.belongs_of_hit (h : r.Sound) {now : Nat}
    (hit : (cacheLookup name now r.cache).1 = some addr) (hcut : ∀ q ∈ r.queries, q.1.take 63 = name → q.1 = name) :
    r.Belongs name addr := by
  obtain ⟨i, hused, hname, rfl⟩ := lookupFrom_hit hit
  obtain ⟨asked, hasked, hbelongs⟩ := h.cached i hused
  have hbelongs' := hbelongs
  obtain ⟨_, _, _, pkt, hpkt, _⟩ := hbelongs'
  have hsame : asked = name := hcut (asked, pkt) hpkt (hasked.symm.trans hname)
  rwa [hsame] at hbelongs

lemma Sound.call (h : r.Sound) (tid : Nat) (now count : Nat)
    (hproper : r.Proper (.call tid name now count)) : (r.call tid name now count).Sound := by
  rw [Resolver.call]
  cases hliteral : parseDottedIp name with
  | some ip =>
    refine h.answer fun hnone => ?_
    rw [hliteral] at hnone
    cases hnone
  | none =>
    rw [Resolver.Proper, hliteral] at hproper
    obtain ⟨hfaithful, hwaiting, hcut⟩ := hproper.resolve_left Bool.false_ne_true
    have hemptied : Emptied r.cache (cacheLookup name (now % 2 ^ 32) r.cache).2 :=
      lookupFrom_emptied name _ _ _
    have hhit : ∀ addr, (cacheLookup name (now % 2 ^ 32) r.cache).1 = some addr → r.Belongs name addr :=
      fun addr hit => h.belongs_of_hit hit hcut
    rcases hlookup : cacheLookup name (now % 2 ^ 32) r.cache with ⟨found, cache⟩
    rw [hlookup] at hemptied hhit
    have hsound := h.emptied hemptied
    cases found with
    | none => exact (hsound.sendQuery hfaithful hwaiting count).wait tid rfl rfl
    | some addr => exact hsound.answer fun _ => hhit addr rfl

lemma Sound.arrive (h : r.Sound) {data : Bytes} (hproper : r.Proper (.arrive data)) : (r.arrive data).Sound where
  results := fun p hp hliteral => (h.results p hp hliteral).mono (subset_cons_self _ _) (List.Subset.refl _)
  queries := h.queries
  cached := by
    intro i hi
    obtain ⟨asked, hname, hbelongs⟩ := h.cached i hi
    exact ⟨asked, hname, hbelongs.mono (subset_cons_self _ _) (List.Subset.refl _)⟩
  current := h.current
  pending := by
    intro tid name hwaiting addr haddr
    have hbefore : r.stack.pendingAddr = some addr → (r.arrive data).Belongs name addr := fun haddr =>
      (h.pending tid name hwaiting addr haddr).mono (subset_cons_self _ _) (List.Subset.refl _)
    obtain ⟨pkt, hpkt⟩ := h.current tid name hwaiting
    rcases hproper ⟨tid, isSome_iff_exists.mpr ⟨name, hwaiting⟩⟩ with hsame | ⟨q, hq, hquestion⟩
    · exact hbefore (hsame.symm.trans haddr)
    · rw [hpkt] at hq
      obtain rfl := some.inj hq
      rcases after_handleDnsResponse data r.stack with hstack | ⟨found, hfound, hstack⟩
      · rw [Resolver.arrive, hstack] at haddr
        exact hbefore haddr
      · rw [Resolver.arrive, hstack] at haddr
        obtain rfl := some.inj haddr
        exact ⟨data, mem_cons_self, hfound, pkt, mem_of_head? hpkt, hquestion⟩

lemma Sound.poll (h : r.Sound) {tid : Nat} (hwaiting : r.waiting tid = some name) (now : Nat) :
    (r.poll tid name now).Sound := by
  rw [Resolver.poll]
  cases haddr : r.stack.pendingAddr with
  | none => exact h
  | some addr =>
    have hbelongs : r.Belongs name addr := h.pending tid name hwaiting addr haddr
    exact ((h.takeAddr.cacheInsert hbelongs 300 (now % 2 ^ 32)).answer fun _ => hbelongs).leave tid

lemma Sound.step (h : r.Sound) (a : DnsAction) (hproper : r.Proper a) : (r.step a).Sound := by
  cases a with
  | call tid name now count =>
    rw [Resolver.step]
    split_ifs
    · exact h
    · exact h.call tid now count hproper
  | arrive data => exact h.arrive hproper
  | poll tid now =>
    rw [Resolver.step]
    cases hwaiting : r.waiting tid with
    | none => exact h
    | some name => exact h.poll hwaiting now
  | expire tid => exact h.leave tid

end Resolver

/-- In every proper history, an address that a call has returned was carried in a response to the question for
its name, and every query asks for the name that was requested. -/
theorem answers_belong (stack : Stack) (actions : List DnsAction)
    (h : Guarded Resolver.step Resolver.Proper (Resolver.start stack) actions) :
    (run Resolver.step (Resolver.start stack) actions).Answered :=
  (run_invariant (P := Resolver.Sound) (fun _ a hsound hproper => hsound.step a hproper) (Resolver.sound_start stack)
    h).toAnswered

def response (letter : UInt8) : Bytes :=
  [0, 7, 0x80, 0, 0, 1, 0, 1, 0, 0, 0, 0] ++ [1, letter, 0, 0, 1, 0, 1] ++
    [0xC0, 12, 0, 1, 0, 1, 0, 0, 0, 60, 0, 4, 1, 2, 3, 4]

def responseAddr : Tcp.IpAddr := .v4 0x01020304#32

def resolving (letter : UInt8) : List DnsAction := [.call 3 (ascii "a") 0 7, .arrive (response letter), .poll 3 0]

theorem resolving_answered :
    (ascii "a", responseAddr) ∈ (run Resolver.step (Resolver.start Stack.zeroed) (resolving 97)).results ∧
    (run Resolver.step (Resolver.start Stack.zeroed) (resolving 97)).Answered := by
  refine ⟨by decide, answers_belong Stack.zeroed (resolving 97) ⟨?_, ?_, trivial, trivial⟩⟩
  · refine Or.inr ⟨⟨by decide, by decide⟩, nofun, nofun⟩
  · exact fun _ => Or.inr ⟨_, rfl, by decide⟩

theorem answer_to_another_question :
    (run Resolver.step (Resolver.start Stack.zeroed) (resolving 98)).results = [(ascii "a", responseAddr)] ∧
    parseDottedIp (ascii "a") = none ∧ question (response 98) = some [1, 98, 0, 0, 1, 0, 1] ∧
    ¬(run Resolver.step (Resolver.start Stack.zeroed) (resolving 98)).Answered := by
  have hresults : (run Resolver.step (Resolver.start Stack.zeroed) (resolving 98)).results =
      [(ascii "a", responseAddr)] := by decide
  have hreceived : (run Resolver.step (Resolver.start Stack.zeroed) (resolving 98)).received = [response 98] := by decide
  have hqueries : (run Resolver.step (Resolver.start Stack.zeroed) (resolving 98)).queries =
      [(ascii "a", buildDnsQuery (ascii "a") 7 1)] := by decide
  have hliteral : parseDottedIp (ascii "a") = none := by decide
  refine ⟨hresults, hliteral, by decide, fun hanswered => ?_⟩
  have hmem : (ascii "a", responseAddr) ∈ (run Resolver.step (Resolver.start Stack.zeroed) (resolving 98)).results := by
    rw [hresults]
    exact mem_singleton_self _
  obtain ⟨data, hdata, _, pkt, hpkt, hquestion⟩ := hanswered.results _ hmem hliteral
  rw [hreceived, mem_singleton] at hdata
  rw [hqueries, mem_singleton] at hpkt
  rw [hdata, (Prod.mk.inj hpkt).2] at hquestion
  exact absurd hquestion (by decide)

end Aeglos.Net
