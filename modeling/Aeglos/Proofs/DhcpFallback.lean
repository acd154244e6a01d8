import Aeglos.Library.Runs
import Aeglos.Kernel.NetReceive

/-!
# The DHCP client without a server

Each call that would count a retry sends a new DISCOVER, which sets the count to zero again.
-/

namespace Aeglos.Net

open Effects TransitionSystem

def SameClient (s s' : Stack) : Prop := s'.dhcp = s.dhcp

lemma sameClient_netSendFrame (frame : Bytes) : Within SameClient (netSendFrame frame) :=
  within_ite within_stop_bind (within_modify fun _ => rfl)

lemma sameClient_resolveMac (dst : Ip4) : Within SameClient (resolveMacNonblocking dst) := by
  refine within_ite (within_pure _) (within_bind within_get fun s => ?_)
  dsimp only
  split
  · exact within_pure _
  · refine within_bind (within_bind within_get fun _ => sameClient_netSendFrame _) fun _ => within_pure _

lemma sameClient_udpSend (dst : Ip4) (dstPort srcPort : Nat) (data : Bytes) :
    Within SameClient (udpSend dst dstPort srcPort data) := by
  refine within_bind within_get fun s => within_ite (within_pure _) (within_ite (within_pure _) ?_)
  exact within_bind (sameClient_resolveMac dst) fun _ => within_bind (sameClient_netSendFrame _) fun _ => within_pure _

def Undecided (s : Stack) : Prop := s.dhcp.state = .discovering ∧ s.dhcp.retryCount = 0

lemma after_dhcp {α : Type} {x : NetM α} (h : Within SameClient x) (s : Stack) : (after x s).dhcp = s.dhcp := by
  have hsteps := h s
  generalize after x s = s' at hsteps ⊢
  induction hsteps with
  | refl => rfl
  | tail _ hstep ih => exact hstep.trans ih

lemma undecided_sendDiscover (env : Env) (s : Stack) : Undecided (after (sendDiscover env) s) := by
  refine outcome_iff_after.mp ?_
  rw [sendDiscover, outcome_bind, outcome_modify, outcome_bind, outcome_get, outcome_discard, outcome_iff_after,
    Undecided, after_dhcp (sameClient_udpSend _ _ _ _)]
  exact ⟨rfl, rfl⟩

lemma undecided_dhcpInit (env : Env) (s : Stack) : Undecided (after (dhcpInit env) s) := by
  have hsend := fun s => outcome_iff_after.mpr (undecided_sendDiscover env s)
  refine outcome_iff_after.mp ?_
  rw [dhcpInit, outcome_bind, outcome_discard, udpRegister, outcome_bind, outcome_get]
  split
  · exact hsend _
  · split
    · exact hsend _
    · exact hsend _

lemma undecided_dhcpTick (env : Env) {s : Stack} (h : Undecided s) : Undecided (after (dhcpTick env) s) := by
  refine outcome_iff_after.mp ?_
  rw [dhcpTick, outcome_bind, outcome_get, outcome_ite]
  refine ⟨fun _ => h, fun _ => ?_⟩
  have hfew : ¬s.dhcp.retryCount ≥ maxRetries := by
    rw [h.2]
    decide
  rw [h.1]
  dsimp only
  rw [if_neg hfew, outcome_bind, retryLater, outcome_modify, outcome_iff_after]
  exact undecided_sendDiscover env _

def ticked (s : Stack) (start : Env) (calls : List Env) : Stack :=
  run (fun s env => after (dhcpTick env) s) (after (dhcpInit start) s) calls

def OnFallback (s : Stack) : Prop :=
  s.dhcp.state = .bound ∧ s.ip = fallbackIp ∧ s.mask = fallbackMask ∧ s.gw = fallbackGw

def FallsBack (s : Stack) (start : Env) (calls : List Env) : Prop :=
  ∃ early, early <+: calls ∧ (∀ env ∈ early, env.ticks.toNat ≤ start.ticks.toNat + 1000) ∧
    OnFallback (ticked s start early)

/-- The calls come in order, at least once every 100 ticks, for 1000 ticks and long before the timer wraps. -/
structure Timely (start : Env) (calls : List Env) : Prop where
  paced : (start :: calls).IsChain fun e e' => e.ticks.toNat ≤ e'.ticks.toNat ∧ e'.ticks.toNat ≤ e.ticks.toNat + 100
  bounded : ∀ env ∈ calls, env.ticks.toNat < 2 ^ 32 - 10 ^ 6
  lasting : ∃ env ∈ calls, start.ticks.toNat + 1000 ≤ env.ticks.toNat

lemma undecided_ticked (s : Stack) (start : Env) (calls : List Env) : Undecided (ticked s start calls) :=
  run_preserves (fun _ env h => undecided_dhcpTick env h) (undecided_dhcpInit start s) calls

lemma not_fallsBack (s : Stack) (start : Env) (calls : List Env) : ¬FallsBack s start calls := by
  rintro ⟨early, -, -, hbound, -⟩
  rw [(undecided_ticked s start early).1] at hbound
  cases hbound

/-- Whenever it is called, the client never falls back: it asks for a server for ever. -/
theorem dhcp_never_falls_back (s : Stack) (start : Env) (calls : List Env) :
    (∀ early, early <+: calls → (ticked s start early).dhcp.state = .discovering) ∧ ¬FallsBack s start calls :=
  ⟨fun early _ => (undecided_ticked s start early).1, not_fallsBack s start calls⟩

def everySecond : List Env := (List.range 11).map fun k => ⟨BitVec.ofNat 32 (100 * k), 0, ⟨0, []⟩⟩

theorem silent_network_no_fallback :
    Timely ⟨0, 0, ⟨0, []⟩⟩ everySecond ∧ ¬FallsBack Stack.zeroed ⟨0, 0, ⟨0, []⟩⟩ everySecond :=
  ⟨⟨by decide, by decide, by decide⟩, not_fallsBack _ _ _⟩

end Aeglos.Net
