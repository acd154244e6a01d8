import Aeglos.Kernel.NetReceive
import Aeglos.Library.Runs
import Aeglos.Library.SlotTable

/-!
# The neighbour caches

The valid entries of the two caches as tables of bindings. Lookups change nothing, so a history is
the list of the learned pairs.
-/

namespace Aeglos.Net

open SlotTable TransitionSystem List Option Function

def ArpEntry.binding (e : ArpEntry) : Option (Ip4 × Mac) := if e.valid then some (e.ip, e.mac) else none

def ArpCache.bindings (c : ArpCache) : Fin 16 → Option (Ip4 × Mac) := ArpEntry.binding ∘ c.table

def NdpEntry.binding (e : NdpEntry) : Option (Ip6 × Mac) := if e.valid then some (e.ip, e.mac) else none

def NdpCache.bindings (c : NdpCache) : Fin 16 → Option (Ip6 × Mac) := NdpEntry.binding ∘ c

def ArpCache.step (c : ArpCache) (p : Ip4 × Mac) : ArpCache := c.learn p.1 p.2

def NdpCache.step (c : NdpCache) (p : Ip6 × Mac) : NdpCache := c.learn p.1 p.2

/-- The number of learned pairs whose address was not present at the time. -/
def insertions : ArpCache → List (Ip4 × Mac) → Nat
  | _, [] => 0
  | c, p :: ps => (if c.find p.1 = none then 1 else 0) + insertions (c.step p) ps

lemma ArpCache.of_find {c : ArpCache} {ip : Ip4} {i : Fin 16} (h : c.find ip = some i) :
    (c.table i).valid = true ∧ (c.table i).ip = ip := by simpa using find?_some h

lemma NdpCache.of_find {c : NdpCache} {ip : Ip6} {i : Fin 16} (h : c.find ip = some i) :
    (c i).valid = true ∧ (c i).ip = ip := by simpa using find?_some h

lemma ArpCache.find_eq (c : ArpCache) (ip : Ip4) : c.find ip = SlotTable.find (fun b => decide (b.1 = ip)) c.bindings := by
  unfold ArpCache.find SlotTable.find ArpCache.bindings ArpEntry.binding
  congr 1
  funext i
  cases hvalid : (c.table i).valid <;> simp [hvalid]

lemma NdpCache.find_eq (c : NdpCache) (ip : Ip6) : c.find ip = SlotTable.find (fun b => decide (b.1 = ip)) c.bindings := by
  unfold NdpCache.find SlotTable.find NdpCache.bindings NdpEntry.binding
  congr 1
  funext i
  cases hvalid : (c i).valid <;> simp [hvalid]

lemma ArpCache.learn_bindings (c : ArpCache) (ip : Ip4) (mac : Mac) :
    (c.learn ip mac).bindings = SlotTable.bind c.bindings (cacheSlot c.cursor) ip mac := by
  rw [SlotTable.bind, ← ArpCache.find_eq, ArpCache.learn]
  cases hfind : c.find ip with
  | none => exact comp_update ..
  | some i =>
    obtain ⟨hvalid, rfl⟩ := ArpCache.of_find hfind
    exact (comp_update ..).trans (congrArg _ (if_pos hvalid))

lemma ArpCache.cursor_inserted {c : ArpCache} {ip : Ip4} (mac : Mac) (h : c.find ip = none) :
    (c.learn ip mac).cursor = c.cursor + 1 := by rw [ArpCache.learn, h]

lemma NdpCache.learn_bindings (c : NdpCache) {ip : Ip6} (hip : ip ≠ unsetIp6) (mac : Mac) :
    ∃ fallback, (c.learn ip mac).bindings = SlotTable.bind c.bindings fallback ip mac := by
  refine ⟨((List.finRange 16).find? fun i => !(c i).valid).getD (cacheSlot 0), ?_⟩
  rw [SlotTable.bind, ← NdpCache.find_eq, NdpCache.learn, if_neg hip]
  cases hfind : c.find ip with
  | none => exact comp_update ..
  | some i =>
    obtain ⟨hvalid, rfl⟩ := NdpCache.of_find hfind
    exact (comp_update ..).trans (congrArg _ (if_pos hvalid))

lemma ArpCache.of_lookup {c : ArpCache} {ip : Ip4} {mac : Mac} (h : c.lookup ip = some mac) : ∃ i, c.bindings i = some (ip, mac) := by
  obtain ⟨i, hi, rfl⟩ := map_eq_some_iff.mp h
  obtain ⟨hvalid, rfl⟩ := ArpCache.of_find hi
  exact ⟨i, if_pos hvalid⟩

lemma NdpCache.of_lookup {c : NdpCache} {ip : Ip6} {mac : Mac} (h : c.lookup ip = some mac) : ∃ i, c.bindings i = some (ip, mac) := by
  obtain ⟨i, hi, rfl⟩ := map_eq_some_iff.mp h
  obtain ⟨hvalid, rfl⟩ := NdpCache.of_find hi
  exact ⟨i, if_pos hvalid⟩

section Histories

variable {c : ArpCache} {d : NdpCache}

lemma arp_bindsLatest {log : List (Ip4 × Mac)} (h : BindsLatest c.bindings log) (ps : List (Ip4 × Mac)) :
    BindsLatest (run ArpCache.step c ps).bindings (ps.reverse ++ log) := by
  induction ps generalizing c log with
  | nil => exact h
  | cons p ps ih =>
    have hnext : BindsLatest (c.step p).bindings (p :: log) := by
      rw [ArpCache.step, ArpCache.learn_bindings]
      exact h.bind _ p.1 p.2
    simpa using ih hnext

lemma ndp_bindsLatest {log ps : List (Ip6 × Mac)} (h : BindsLatest d.bindings log) (hps : ∀ p ∈ ps, p.1 ≠ unsetIp6) :
    BindsLatest (run NdpCache.step d ps).bindings (ps.reverse ++ log) := by
  induction ps generalizing d log with
  | nil => exact h
  | cons p ps ih =>
    have hnext : BindsLatest (d.step p).bindings (p :: log) := by
      obtain ⟨fallback, hlearn⟩ := d.learn_bindings (hps p mem_cons_self) p.2
      rw [NdpCache.step, hlearn]
      exact h.bind fallback p.1 p.2
    simpa using ih hnext fun q hq => hps q (mem_cons_of_mem p hq)

lemma arp_keeps {ip : Ip4} {mac : Mac} {i : Fin 16} {ps : List (Ip4 × Mac)} (h : c.bindings i = some (ip, mac))
    (hfew : ∀ m < insertions c ps, cacheSlot (c.cursor + m) ≠ i) : ∃ mac, (run ArpCache.step c ps).bindings i = some (ip, mac) := by
  induction ps generalizing c mac with
  | nil => exact ⟨mac, h⟩
  | cons p ps ih =>
    have hslot : SlotTable.find (fun b => decide (b.1 = p.1)) c.bindings = none → cacheSlot c.cursor ≠ i := by
      intro hfind
      rw [← ArpCache.find_eq] at hfind
      exact hfew 0 (by simp [insertions, hfind])
    obtain ⟨mac', hnext⟩ := bind_keeps p.2 h hslot
    rw [← ArpCache.learn_bindings] at hnext
    refine ih hnext fun m hm => ?_
    rw [insertions] at hfew
    cases hfind : c.find p.1 with
    | none =>
      rw [if_pos hfind] at hfew
      have hlater := hfew (1 + m) (Nat.add_lt_add_left hm 1)
      rwa [← Nat.add_assoc, ← ArpCache.cursor_inserted p.2 hfind] at hlater
    | some j =>
      rw [hfind, if_neg (some_ne_none j), Nat.zero_add] at hfew
      rw [show (c.step p).cursor = c.cursor by rw [ArpCache.step, ArpCache.learn, hfind]]
      exact hfew m hm

/-- An insertion is found until sixteen further ones have come. -/
lemma arp_found {ip : Ip4} {later : List (Ip4 × Mac)} (mac : Mac) (habsent : c.find ip = none)
    (hfew : insertions (c.learn ip mac) later < 16) : (run ArpCache.step (c.learn ip mac) later).lookup ip ≠ none := by
  have hslot : (c.learn ip mac).bindings (cacheSlot c.cursor) = some (ip, mac) := by
    rw [ArpCache.learn_bindings, SlotTable.bind, ← ArpCache.find_eq, habsent]
    exact update_self ..
  have hother : ∀ m < insertions (c.learn ip mac) later, cacheSlot ((c.learn ip mac).cursor + m) ≠ cacheSlot c.cursor := by
    intro m hm heq
    rw [ArpCache.cursor_inserted mac habsent] at heq
    have hmod : (c.cursor + 1 + m) % 16 = c.cursor % 16 := congrArg Fin.val heq
    omega
  obtain ⟨mac', hkept⟩ := arp_keeps hslot hother
  intro hnone
  have hfind := map_eq_none_iff.mp hnone
  rw [ArpCache.find_eq] at hfind
  exact absurd (find_none hfind hkept) (by simp)

end Histories

end Aeglos.Net
