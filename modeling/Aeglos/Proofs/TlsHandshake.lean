import Aeglos.Kernel.Tls

/-!
# Completed handshakes

The keys of the handshake have 16 bytes and stay what they are while the server's messages are
read.
-/

namespace Aeglos.Tls

open Slices Net X509 List Option

variable {c : Crypto} {now : Nat} {host shared : Bytes}

lemma hkdfExpandLabel_short {secret label context : Bytes} {len : Nat} (h : secret.length < 32) :
    hkdfExpandLabel c secret label context len = none := c.expand_short _ _ _ h

lemma length_clientKey_trafficKeys {serverTs clientTs : Bytes} {keys : Keys}
    (h : trafficKeys c serverTs clientTs = some keys) : keys.clientKey.length = 16 := by
  simp only [trafficKeys, bind_eq_bind, bind_eq_some_iff] at h
  obtain ⟨_, -, sKey, -, _, -, sIv, -, _, -, cKey, hcKey, _, -, cIv, -, hkeys⟩ := h
  obtain rfl := some.inj hkeys
  exact length_slice hcKey

lemma length_clientKey_handshake {transcriptHash : Bytes} {keys : Keys}
    (h : deriveHandshakeKeys c shared transcriptHash = some keys) : keys.clientKey.length = 16 := by
  simp only [deriveHandshakeKeys, bind_eq_bind, bind_eq_some_iff] at h
  obtain ⟨_, -, _, -, _, -, hkeys⟩ := h
  exact length_clientKey_trafficKeys hkeys

structure Whole (m : Bytes) : Prop where
  header : 4 ≤ m.length
  length : m.length = 4 + messageLen m

inductive MessageStep (c : Crypto) (shared m : Bytes) (s : HsState) : HsState → Prop
  | hashed (kind : m[0]? = some 8 ∨ m[0]? = some 15 ∨ m[0]? = some 11) : MessageStep c shared m s (s.hash m)
  | finished (kind : m[0]? = some 20) (fresh : s.appKeysDerived = false) {keys : Keys}
      (derived : deriveAppKeys c shared (c.sha256 (s.conn.transcript ++ m)) = some keys) :
      MessageStep c shared m s ⟨{ (s.hash m).conn with app := keys }, true, true⟩
  | again (kind : m[0]? = some 20) (old : s.appKeysDerived = true) :
      MessageStep c shared m s ⟨(s.hash m).conn, true, true⟩
  | ignored (kind : ∀ t, m[0]? = some t → t ∉ [8, 15, 11, 20]) : MessageStep c shared m s (s.ignore m)

lemma onMessage_step {m : Bytes} {s s' : HsState} (h : onMessage c now host shared m s = some (some s')) :
    MessageStep c shared m s s' := by
  rw [onMessage] at h
  cases hhead : m[0]? with
  | none => simp [hhead] at h
  | some t =>
    rw [hhead] at h
    simp only [bind_eq_bind, bind_some] at h
    split_ifs at h with hplain hcert hfin hderived
    · obtain rfl := some.inj (some.inj h)
      rcases hplain with rfl | rfl
      · exact .hashed (Or.inl hhead)
      · exact .hashed (Or.inr (Or.inl hhead))
    · subst hcert
      obtain ⟨ok, -, hok⟩ := bind_eq_some_iff.mp h
      cases ok with
      | false => exact absurd (some.inj hok) (by simp)
      | true =>
        obtain rfl := some.inj (some.inj hok)
        exact .hashed (Or.inr (Or.inr hhead))
    · subst hfin
      obtain rfl := some.inj (some.inj h)
      have hold : s.appKeysDerived = true := hderived
      have hstate : ({ s.hash m with gotServerFinished := true } : HsState) = ⟨(s.hash m).conn, true, true⟩ := by
        rw [← hold]
        rfl
      rw [hstate]
      exact .again hhead hold
    · subst hfin
      obtain ⟨keys, hkeys, hs'⟩ := bind_eq_some_iff.mp h
      obtain rfl := some.inj (some.inj hs')
      exact MessageStep.finished (s := s) hhead (Bool.eq_false_iff.mpr hderived) hkeys
    · obtain rfl := some.inj (some.inj h)
      refine .ignored fun t' ht' => ?_
      obtain rfl := some.inj (hhead.symm.trans ht')
      simp only [mem_cons, not_mem_nil, or_false]
      tauto

inductive MessageSteps (c : Crypto) (shared : Bytes) : List Bytes → HsState → HsState → Prop
  | nil {s : HsState} : MessageSteps c shared [] s s
  | cons {m : Bytes} {ms : List Bytes} {s s' s'' : HsState} (step : MessageStep c shared m s s')
      (rest : MessageSteps c shared ms s' s'') : MessageSteps c shared (m :: ms) s s''

lemma messageLen_take {data : Bytes} {k : Nat} (hk : 4 ≤ k) : messageLen (data.take k) = messageLen data := by
  have hbyte : ∀ i < 4, (data.take k).getD i 0 = data.getD i 0 := by
    intro i hi
    rw [getD_eq_getElem?_getD, getD_eq_getElem?_getD, getElem?_take_of_lt (by omega)]
  rw [messageLen, messageLen, hbyte 1 (by decide), hbyte 2 (by decide), hbyte 3 (by decide)]

lemma messageLoop_steps {turns : Nat} {data : Bytes} {s s' : HsState}
    (h : messageLoop c now host shared turns data s = some (some s')) :
    ∃ ms tail, data = ms.flatten ++ tail ∧ (∀ m ∈ ms, Whole m) ∧ MessageSteps c shared ms s s' := by
  induction turns generalizing data s with
  | zero => exact absurd h (by simp [messageLoop])
  | succ turns ih =>
    rw [messageLoop] at h
    split_ifs at h with hin
    · obtain ⟨r, hr, hrest⟩ := bind_eq_some_iff.mp h
      cases r with
      | none => exact absurd (some.inj hrest) (by simp)
      | some s₁ =>
        obtain ⟨ms, tail, hdata, hwhole, hsteps⟩ := ih hrest
        have hlen : (data.take (4 + messageLen data)).length = 4 + messageLen data := by
          rw [length_take, Nat.min_eq_left hin.2]
        have hfirst : Whole (data.take (4 + messageLen data)) := by
          refine ⟨by omega, ?_⟩
          rw [hlen, messageLen_take (by omega)]
        refine ⟨data.take (4 + messageLen data) :: ms, tail, ?_, ?_, .cons (onMessage_step hr) hsteps⟩
        · rw [flatten_cons, append_assoc, ← hdata, take_append_drop]
        · rintro m (_ | ⟨_, hm⟩)
          · exact hfirst
          · exact hwhole m hm
    · obtain rfl := some.inj (some.inj h)
      exact ⟨[], data, rfl, fun _ hm => absurd hm not_mem_nil, .nil⟩

section Frame

variable {s s' : HsState}

lemma MessageStep.hs {m : Bytes} (h : MessageStep c shared m s s') : s'.conn.hs = s.conn.hs := by
  cases h <;> rfl

lemma MessageSteps.hs {ms : List Bytes} (h : MessageSteps c shared ms s s') : s'.conn.hs = s.conn.hs := by
  induction h with
  | nil => rfl
  | cons step _ ih => exact ih.trans step.hs

def Turn.state : Turn → Option HsState
  | .next s => some s
  | .stop s => some s
  | .refuse => none

lemma hs_onRecord {raw : Bytes} {t : Turn} (h : onRecord c now host shared raw s = some t)
    (ht : t.state = some s') : s'.conn.hs = s.conn.hs := by
  have hself : t = .next s → s'.conn.hs = s.conn.hs := by
    rintro rfl
    obtain rfl := some.inj ht
    rfl
  have hrefuse : t ≠ .refuse := by
    rintro rfl
    exact absurd ht (by simp [Turn.state])
  rw [onRecord] at h
  dsimp only at h
  split at h
  · exact hself (some.inj h).symm
  split at h
  · exact absurd (some.inj h).symm hrefuse
  split at h
  · exact hself (some.inj h).symm
  split at h
  · exact absurd (some.inj h).symm hrefuse
  split at h
  · obtain rfl := some.inj h
    obtain rfl := some.inj ht
    rfl
  split at h
  · obtain ⟨r, hr, hrest⟩ := bind_eq_some_iff.mp h
    cases r with
    | none => exact absurd (some.inj hrest).symm hrefuse
    | some s₁ =>
      obtain ⟨ms, tail, -, -, hsteps⟩ := messageLoop_steps hr
      dsimp only at hrest
      split at hrest
      · obtain rfl := some.inj hrest
        obtain rfl := some.inj ht
        exact hsteps.hs
      · obtain rfl := some.inj hrest
        obtain rfl := some.inj ht
        exact hsteps.hs
  split at h
  · obtain rfl := some.inj h
    obtain rfl := some.inj ht
    rfl
  · obtain rfl := some.inj h
    obtain rfl := some.inj ht
    rfl

lemma hs_handshakeLoop {turns : Nat} {s : HsState} {l l' : Line} {ok : Bool} {conn : TlsConn}
    (h : handshakeLoop c now host shared turns s l = some (ok, conn, l')) : conn.hs = s.conn.hs := by
  induction turns generalizing s l with
  | zero =>
    obtain rfl := (Prod.mk.inj (Prod.mk.inj (some.inj h)).2).1
    rfl
  | succ turns ih =>
    rcases hraw : readRecord 16384 l with ⟨raw, l₁⟩
    rw [handshakeLoop, hraw] at h
    dsimp only at h
    split_ifs at h with hshort
    · obtain rfl := (Prod.mk.inj (Prod.mk.inj (some.inj h)).2).1
      rfl
    · obtain ⟨t, ht, hrest⟩ := bind_eq_some_iff.mp h
      cases t with
      | next s₁ => exact (ih hrest).trans (hs_onRecord ht rfl)
      | stop s₁ =>
        obtain rfl := (Prod.mk.inj (Prod.mk.inj (some.inj hrest)).2).1
        exact hs_onRecord ht rfl
      | refuse =>
        obtain rfl := (Prod.mk.inj (Prod.mk.inj (some.inj hrest)).2).1
        rfl

end Frame

lemma sendClientFinished_short {conn : TlsConn} {l : Line} (h : conn.hs.clientKey.length < 32) :
    sendClientFinished c conn l = none := by
  rw [sendClientFinished, hkdfExpandLabel_short h]
  rfl

lemma length_clientKey_helloExchange {secret random : Bytes} {l l' : Line} {conn : TlsConn}
    (h : helloExchange c host secret random l = some (some (conn, shared, l'))) : conn.hs.clientKey.length = 16 := by
  rw [helloExchange] at h
  dsimp only at h
  split_ifs at h with hwritten hraw
  · exact absurd (some.inj h) (by simp)
  · exact absurd (some.inj h) (by simp)
  · obtain ⟨r, -, hrest⟩ := bind_eq_some_iff.mp h
    rcases r with - | ⟨serverPub, hsData⟩
    · exact absurd (some.inj hrest) (by simp)
    · obtain ⟨keys, hkeys, hconn⟩ := bind_eq_some_iff.mp hrest
      obtain rfl := (Prod.mk.inj (some.inj (some.inj hconn))).1
      exact length_clientKey_handshake hkeys

lemma tlsHandshake_ne_connection (secret random : Bytes) (o : Opening) (conn : TlsConn) (l : Line) :
    tlsHandshake c now host secret random o ≠ some (some (conn, l)) := by
  intro h
  rw [tlsHandshake] at h
  split at h
  · exact absurd (some.inj h) (by simp)
  split at h
  · exact absurd (some.inj h) (by simp)
  split at h
  · exact absurd (some.inj h) (by simp)
  · obtain ⟨r, hhello, hrest⟩ := bind_eq_some_iff.mp h
    rcases r with - | ⟨conn₀, shared, l₀⟩
    · exact absurd (some.inj hrest) (by simp)
    · obtain ⟨⟨accepted, conn₁, l₁⟩, hserver, hrest⟩ := bind_eq_some_iff.mp hrest
      have hkey : conn₁.hs.clientKey.length = 16 := by
        rw [hs_handshakeLoop hserver]
        exact length_clientKey_helloExchange hhello
      dsimp only at hrest
      split at hrest
      · exact absurd (some.inj hrest) (by simp)
      · rw [sendClientFinished_short (by omega)] at hrest
        exact absurd hrest (by simp)

def serverFinishedKey (c : Crypto) (shared helloHash : Bytes) : Option Bytes := do
  let secret ← handshakeSecret c shared
  let serverTs ← hkdfExpandLabel c secret (ascii "s hs traffic") helloHash 32
  hkdfExpandLabel c serverTs (ascii "finished") [] 32

/-- There are an accepted Certificate and after it a Finished message over all messages before it. `hello` is
the transcript of the two hello messages. -/
structure Authenticated (c : Crypto) (now : Nat) (host shared hello : Bytes) (received : List Bytes) : Prop where
  messages : ∃ earlier certificate between finished later,
    received = earlier ++ certificate :: (between ++ finished :: later) ∧
      certificate[0]? = some 11 ∧ verifyMessage now host (certificate.drop 4) = some true ∧
      ∃ key, serverFinishedKey c shared (c.sha256 hello) = some key ∧
        finished = [20, 0, 0, 32] ++
          c.hmac key (c.sha256 (hello ++ (earlier ++ certificate :: between).flatten))

def HandshakeAuthenticated (c : Crypto) (now : Nat) (host secret random : Bytes) (o : Opening) :
    Option (Option (TlsConn × Line)) → Prop
  | some (some (conn, _)) => ∃ conn₀ shared l₀, helloExchange c host secret random o.line = some (some (conn₀, shared, l₀)) ∧
      Authenticated c now host shared conn₀.transcript conn.received
  | _ => True

/-- A connection is returned only after an authenticated handshake, since none is returned at all: the
handshakes stop at the client's Finished message. -/
theorem tls_handshake_authenticated (c : Crypto) (now : Nat) (host secret random : Bytes) (o : Opening) :
    HandshakeAuthenticated c now host secret random o (tlsHandshake c now host secret random o) := by
  rcases h : tlsHandshake c now host secret random o with - | - | ⟨conn, l⟩
  · trivial
  · trivial
  · exact absurd h (tlsHandshake_ne_connection secret random o conn l)

lemma hkdfExpandLabel_isSome (label context : Bytes) {secret : Bytes} {len : Nat} (hsecret : 32 ≤ secret.length)
    (hlen : len ≤ 32) :
    ∃ out, hkdfExpandLabel c secret label context len = some out ∧ out.length = len :=
  c.expand_long secret _ len hsecret (by omega)

lemma trafficKeys_isSome {serverTs clientTs : Bytes} (hserver : 32 ≤ serverTs.length) (hclient : 32 ≤ clientTs.length) :
    ∃ keys, trafficKeys c serverTs clientTs = some keys := by
  have hpart : ∀ (label : String) {secret : Bytes} {len : Nat}, 32 ≤ secret.length → len ≤ 32 →
      ∃ out cut, hkdfExpandLabel c secret (ascii label) [] len = some out ∧ slice out 0 len = some cut := by
    intro label secret len hsecret hlen
    obtain ⟨out, hout, hlength⟩ := hkdfExpandLabel_isSome (c := c) (ascii label) [] hsecret hlen
    exact ⟨out, _, hout, slice_eq_some (Nat.zero_le _) hlength.ge⟩
  obtain ⟨_, _, hsKey, hsKey'⟩ := hpart "key" hserver (by decide : 16 ≤ 32)
  obtain ⟨_, _, hsIv, hsIv'⟩ := hpart "iv" hserver (by decide : 12 ≤ 32)
  obtain ⟨_, _, hcKey, hcKey'⟩ := hpart "key" hclient (by decide : 16 ≤ 32)
  obtain ⟨_, _, hcIv, hcIv'⟩ := hpart "iv" hclient (by decide : 12 ≤ 32)
  simp only [trafficKeys, hsKey, hsKey', hsIv, hsIv', hcKey, hcKey', hcIv, hcIv', bind_eq_bind, bind_some]
  exact ⟨_, rfl⟩

lemma deriveHandshakeKeys_isSome (shared helloHash : Bytes) : ∃ keys, deriveHandshakeKeys c shared helloHash = some keys := by
  obtain ⟨derived, hderived, -⟩ :=
    hkdfExpandLabel_isSome (c := c) (ascii "derived") (c.sha256 []) (c.length_extract zeros32 zeros32).ge le_rfl
  have hsecret : 32 ≤ (c.extract derived shared).length := (c.length_extract _ _).ge
  obtain ⟨serverTs, hserver, hserverLen⟩ :=
    hkdfExpandLabel_isSome (c := c) (ascii "s hs traffic") helloHash hsecret le_rfl
  obtain ⟨clientTs, hclient, hclientLen⟩ :=
    hkdfExpandLabel_isSome (c := c) (ascii "c hs traffic") helloHash hsecret le_rfl
  obtain ⟨keys, hkeys⟩ := trafficKeys_isSome (c := c) hserverLen.ge hclientLen.ge
  refine ⟨keys, ?_⟩
  simp only [deriveHandshakeKeys, handshakeSecret, hderived, Option.bind_eq_bind, Option.bind_some, Option.pure_def, hserver,
    hclient, hkeys]

def clientFinishedKey (c : Crypto) (shared helloHash : Bytes) : Option Bytes := do
  let secret ← handshakeSecret c shared
  let clientTs ← hkdfExpandLabel c secret (ascii "c hs traffic") helloHash 32
  hkdfExpandLabel c clientTs (ascii "finished") [] 32

def FinishedCorrect (c : Crypto) (shared helloHash : Bytes) (conn : TlsConn) (l : Line) : Prop :=
  ∃ key, clientFinishedKey c shared helloHash = some key ∧ ∃ sent conn' l',
    sendClientFinished c conn l = some (sent, conn', l') ∧
      conn'.transcript = conn.transcript ++ ([20, 0, 0, 32] ++ c.hmac key (c.sha256 conn.transcript))

/-- The keys of a handshake are always derived, and with them the client's Finished message is
never sent, whatever the transcript is. -/
theorem client_finished_incorrect (c : Crypto) (shared helloHash : Bytes) :
    ∃ keys, deriveHandshakeKeys c shared helloHash = some keys ∧
      ∀ (conn : TlsConn) (l : Line), ¬FinishedCorrect c shared helloHash { conn with hs := keys } l := by
  obtain ⟨keys, hkeys⟩ := deriveHandshakeKeys_isSome (c := c) shared helloHash
  refine ⟨keys, hkeys, ?_⟩
  rintro conn l ⟨-, -, sent, conn', l', hsent, -⟩
  have hlength : keys.clientKey.length = 16 := length_clientKey_handshake hkeys
  rw [sendClientFinished_short (by simp [hlength])] at hsent
  exact absurd hsent (by simp)

def zeroCrypto : Crypto where
  sha256 _ := zeros32
  hmac _ _ := zeros32
  extract _ _ := zeros32
  expand prk _ len := if prk.length < 32 then none else some (List.replicate len 0)
  publicKey _ := zeros32
  diffieHellman _ _ := zeros32
  encrypt _ _ pt _ := some (pt ++ List.replicate 16 0)
  decrypt _ _ ct _ := some (ct.take (ct.length - 16))
  length_extract _ _ := rfl
  expand_short _ _ _ h := if_pos h
  expand_long _ _ _ h _ := ⟨_, if_neg (by omega), List.length_replicate⟩
  length_publicKey _ := rfl
  agree _ _ := rfl
  decrypt_encrypt _ _ pt _ ct h := by
    obtain rfl := Option.some.inj h
    simp

/-- With an empty transcript, a shared secret of zeros and the keys derived from it, sending the
Finished message panics. -/
theorem client_finished_panics : ∃ keys, deriveHandshakeKeys zeroCrypto zeros32 zeros32 = some keys ∧
    sendClientFinished zeroCrypto ⟨[], keys, .zeroed, 0, 0, 0, 0, []⟩ ⟨some [], .established, [], [], []⟩ = none :=
  ⟨.zeroed, by decide, rfl⟩

end Aeglos.Tls
