import Aeglos.Kernel.WebSocket

/-!
# The WebSocket functions stay within their buffers

No index is out of range, whatever the client sends.
-/

namespace Aeglos.Ws

open Net Effects Slices List Option

lemma padded_eq_some (data : Bytes) : ∃ buf tlen, padded data = some (buf, tlen) ∧ buf.length = 256 ∧ tlen ≤ 256 := by
  have hcopy : slice data 0 (min data.length 256) = some (data.take (min data.length 256)) := by
    rw [slice_eq_some (Nat.zero_le _) (min_le_left _ _), drop_zero, Nat.sub_zero]
  have hroom : 0 + (data.take (min data.length 256)).length ≤ (List.replicate 256 (0 : UInt8)).length := by
    rw [length_take, length_replicate]
    omega
  obtain ⟨buf, hbuf, hlength⟩ := overwrite_eq_some hroom
  rw [length_replicate] at hlength
  have hmark : data.length < 256 → data.length + [(0x80 : UInt8)].length ≤ buf.length := by
    intro h
    rw [hlength]
    exact h
  obtain ⟨buf', hbuf', hlength'⟩ := overwriteIf_eq_some hmark
  have htail : min (data.length + padLen data.length) 256 ≥ 8 →
      min (data.length + padLen data.length) 256 - 8 + (toLe (data.length * 8) 8).reverse.length ≤ buf'.length := by
    intro h
    rw [length_reverse, length_toLe, hlength', hlength]
    omega
  obtain ⟨buf'', hbuf'', hlength''⟩ := overwriteIf_eq_some htail
  refine ⟨buf'', min (data.length + padLen data.length) 256, ?_, ?_, min_le_right _ _⟩
  · unfold padded
    simp only [hcopy, hbuf, hbuf', hbuf'', bind_eq_bind, bind_some]
    rfl
  · rw [hlength'', hlength', hlength]

lemma wordAt_eq_some {buf : Bytes} {k : Nat} (h : k + 3 < buf.length) : ∃ x, wordAt buf k = some x := by
  unfold wordAt
  rw [getElem?_eq_getElem h, getElem?_eq_getElem (by omega : k + 2 < buf.length),
    getElem?_eq_getElem (by omega : k + 1 < buf.length), getElem?_eq_getElem (by omega : k < buf.length)]
  exact ⟨_, rfl⟩

lemma extend_eq_some {w : List UInt32} (h : 16 ≤ w.length) :
    ∃ w', extend w w.length = some w' ∧ w'.length = w.length + 1 := by
  unfold extend
  rw [getElem?_eq_getElem (by omega : w.length - 3 < w.length),
    getElem?_eq_getElem (by omega : w.length - 8 < w.length),
    getElem?_eq_getElem (by omega : w.length - 14 < w.length),
    getElem?_eq_getElem (by omega : w.length - 16 < w.length)]
  exact ⟨_, rfl, length_append⟩

def Pending (js : List Nat) (w : List UInt32) : Prop :=
  ∃ n, js = List.range' w.length n ∧ 16 ≤ w.length ∧ w.length + n = 80

def Below (n : Nat) (js : List Nat) (_ : Digest) : Prop := ∀ j ∈ js, j < n

lemma below_range (n : Nat) (d : Digest) : Below n (List.range n) d := fun _ hj => mem_range.mp hj

lemma schedule_eq_some {buf : Bytes} {i : Nat} (h : i + 64 ≤ buf.length) :
    ∃ w, schedule buf i = some w ∧ w.length = 80 := by
  have hwords : ∀ j ∈ List.range 16, ∃ x, wordAt buf (i + j * 4) = some x := by
    intro j hj
    have hlt := mem_range.mp hj
    exact wordAt_eq_some (by omega)
  obtain ⟨first, hfirst, hlength⟩ := mapM_eq_some hwords
  rw [length_range] at hlength
  have hextend : ∀ j js (w : List UInt32), Pending (j :: js) w → ∃ w', extend w j = some w' ∧ Pending js w' := by
    rintro j js w ⟨n, hjs, hge, hsum⟩
    cases n with
    | zero => cases hjs
    | succ n =>
      rw [List.range'_succ] at hjs
      obtain ⟨rfl, rfl⟩ := List.cons.inj hjs
      obtain ⟨w', hw', hlength'⟩ := extend_eq_some hge
      exact ⟨w', hw', n, by rw [hlength'], by omega, by omega⟩
  have hpending : Pending (List.range' 16 64) first := ⟨64, by rw [hlength], by omega, by omega⟩
  obtain ⟨w, hw, n, hn, -, hsum⟩ := foldlM_eq_some hextend hpending
  refine ⟨w, ?_, ?_⟩
  · unfold schedule
    rw [hfirst]
    exact hw
  · cases n with
    | zero => exact hsum
    | succ n => cases hn

lemma round_eq_some {w : List UInt32} {j : Nat} (h : j < w.length) (d : Digest) : ∃ d', round w d j = some d' := by
  unfold round
  rw [getElem?_eq_getElem h]
  exact ⟨_, rfl⟩

lemma compress_eq_some {buf : Bytes} {i : Nat} (h : i + 64 ≤ buf.length) (d : Digest) :
    ∃ d', compress buf d i = some d' := by
  obtain ⟨w, hw, hlength⟩ := schedule_eq_some h
  have hround : ∀ j js (d : Digest), Below 80 (j :: js) d → ∃ d', round w d j = some d' ∧ Below 80 js d' := by
    intro j js d hjs
    have hj := hjs j mem_cons_self
    obtain ⟨d', hd'⟩ := round_eq_some (hlength.symm ▸ hj) d
    exact ⟨d', hd', fun k hk => hjs k (mem_cons_of_mem j hk)⟩
  obtain ⟨r, hr, -⟩ := foldlM_eq_some hround (below_range 80 d)
  unfold compress
  rw [hw]
  simp only [bind_eq_bind, bind_some, hr]
  exact ⟨_, rfl⟩

lemma sha1_eq_some (data : Bytes) : ∃ digest, sha1 data = some digest := by
  obtain ⟨buf, tlen, hpadded, hlength, htlen⟩ := padded_eq_some data
  have hblock : ∀ k ks (d : Digest), Below (tlen / 64) (k :: ks) d →
      ∃ d', compress buf d (64 * k) = some d' ∧ Below (tlen / 64) ks d' := by
    intro k ks d hks
    have hk := hks k mem_cons_self
    have hend : 64 * k + 64 ≤ buf.length := by omega
    obtain ⟨d', hd'⟩ := compress_eq_some hend d
    exact ⟨d', hd', fun k' hk' => hks k' (mem_cons_of_mem k hk')⟩
  obtain ⟨d, hd, -⟩ := foldlM_eq_some hblock (below_range (tlen / 64) Digest.start)
  unfold sha1
  rw [hpadded]
  simp only [bind_eq_bind, bind_some, hd]
  exact ⟨_, rfl⟩

lemma sextet_eq_some {x : UInt8} (h : x.toNat < 64) : ∃ c, sextet x = some c := by
  have hlength : base64Alphabet.length = 64 := by decide
  exact ⟨_, getElem?_eq_getElem (hlength.symm ▸ h)⟩

lemma sextetIf_eq_some {c : Prop} [Decidable c] {x : UInt8} (h : x.toNat < 64) : ∃ y, sextetIf c x = some y := by
  unfold sextetIf
  split_ifs
  · exact sextet_eq_some h
  · exact ⟨61, rfl⟩

lemma or_lt_64 {x y : UInt8} (hx : x.toNat < 64) (hy : y.toNat < 64) : (x ||| y).toNat < 64 := by
  rw [UInt8.toNat_or]
  exact Nat.or_lt_two_pow (n := 6) hx hy

lemma shiftRight_lt_64 (b : UInt8) : (b >>> 2).toNat < 64 ∧ (b >>> 4).toNat < 64 ∧ (b >>> 6).toNat < 64 := by
  have hlt := b.toNat_lt
  simp only [UInt8.toNat_shiftRight, Nat.shiftRight_eq_div_pow]
  refine ⟨?_, ?_, ?_⟩
  · change b.toNat / 4 < 64
    omega
  · change b.toNat / 16 < 64
    omega
  · change b.toNat / 64 < 64
    omega

lemma masked_lt_64 (b : UInt8) :
    ((b &&& 3) <<< 4).toNat < 64 ∧ ((b &&& 0xF) <<< 2).toNat < 64 ∧ (b &&& 0x3F).toNat < 64 := by
  simp only [UInt8.toNat_shiftLeft, UInt8.toNat_and, Nat.shiftLeft_eq]
  have h3 : b.toNat &&& 3 ≤ 3 := Nat.and_le_right
  have h15 : b.toNat &&& 15 ≤ 15 := Nat.and_le_right
  have h63 : b.toNat &&& 63 ≤ 63 := Nat.and_le_right
  refine ⟨?_, ?_, ?_⟩
  · change (b.toNat &&& 3) * 16 % 256 < 64
    omega
  · change (b.toNat &&& 15) * 4 % 256 < 64
    omega
  · change b.toNat &&& 63 < 64
    omega

lemma base64Group_eq_some {data : Bytes} {i : Nat} (h : i < data.length) : ∃ out, base64Group data i = some out := by
  obtain ⟨c0, h0⟩ := sextet_eq_some (shiftRight_lt_64 data[i]).1
  obtain ⟨c1, h1⟩ := sextet_eq_some
    (or_lt_64 (masked_lt_64 data[i]).1 (shiftRight_lt_64 ((data[i + 1]?).getD 0)).2.1)
  obtain ⟨c2, h2⟩ := sextetIf_eq_some (c := i + 1 < data.length)
    (or_lt_64 (masked_lt_64 ((data[i + 1]?).getD 0)).2.1 (shiftRight_lt_64 ((data[i + 2]?).getD 0)).2.2)
  obtain ⟨c3, h3⟩ := sextetIf_eq_some (c := i + 2 < data.length) (masked_lt_64 ((data[i + 2]?).getD 0)).2.2
  unfold base64Group
  rw [getElem?_eq_getElem h]
  simp only [bind_eq_bind, bind_some, h0, h1, h2, h3]
  exact ⟨_, rfl⟩

lemma base64Loop_eq_some (data : Bytes) (room turns i : Nat) (out : Bytes) :
    ∃ out', base64Loop data room turns i out = some out' := by
  induction turns generalizing i out with
  | zero => exact ⟨out, rfl⟩
  | succ turns ih =>
    unfold base64Loop
    split_ifs with h
    · obtain ⟨group, hgroup⟩ := base64Group_eq_some h.1
      rw [hgroup]
      exact ih (i + 3) (out ++ group)
    · exact ⟨out, rfl⟩

lemma computeAccept_eq_some (key : Bytes) (room : Nat) : ∃ value, computeAccept key room = some value := by
  have hguid : wsGuid.length = 36 := by decide
  have hkey := slice_eq_some (p := key) (Nat.zero_le (min key.length 60)) (min_le_left _ _)
  have hroom : 0 + ((key.drop 0).take (min key.length 60 - 0)).length ≤ (List.replicate 64 (0 : UInt8)).length := by
    rw [length_take, length_replicate]
    omega
  obtain ⟨concat, hconcat, hlength⟩ := overwrite_eq_some hroom
  rw [length_replicate] at hlength
  have hsuffix := slice_eq_some (p := wsGuid) (Nat.zero_le (min wsGuid.length (64 - min key.length 60))) (min_le_left _ _)
  have hroom' : min key.length 60 + ((wsGuid.drop 0).take (min wsGuid.length (64 - min key.length 60) - 0)).length ≤
      concat.length := by
    rw [length_take, hlength]
    omega
  obtain ⟨concat', hconcat', hlength'⟩ := overwrite_eq_some hroom'
  have hmessage := slice_eq_some (p := concat') (b := min key.length 60 + min wsGuid.length (64 - min key.length 60))
    (Nat.zero_le _) (by omega)
  obtain ⟨digest, hdigest⟩ := sha1_eq_some
    ((concat'.drop 0).take (min key.length 60 + min wsGuid.length (64 - min key.length 60) - 0))
  unfold computeAccept
  simp only [bind_eq_bind, bind_some, hkey, hconcat, hsuffix, hconcat', hmessage, hdigest]
  exact base64Loop_eq_some digest room digest.length 0 []

lemma wsAccept_returns (key : Bytes) (l : Line) : Returns (wsAccept key) l := by
  obtain ⟨value, hvalue⟩ := computeAccept_eq_some key 32
  unfold Returns wsAccept
  rw [hvalue]
  simp only [outcome_bind, outcome_orStop_some, outcome_modifyGet, outcome_pure]

lemma headerValue_eq_some {rest : Bytes} (h : rest ≠ []) : ∃ v, headerValue rest = some v := by
  have hpos := length_pos_iff.mpr h
  unfold headerValue
  rw [sliceFrom_eq_some hpos]
  simp only [bind_eq_bind, bind_some]
  split_ifs
  · exact ⟨_, slice_eq_some (Nat.zero_le _) (Nat.sub_le _ _)⟩
  · exact ⟨_, rfl⟩

lemma headerLoop_eq_some (raw name : Bytes) (turns i : Nat) : ∃ v, headerLoop raw name turns i = some v := by
  induction turns generalizing i with
  | zero => exact ⟨none, rfl⟩
  | succ turns ih =>
    unfold headerLoop
    split_ifs with hi
    · have heol : i ≤ (((raw.drop i).findIdx? (· = 10)).map (i + ·)).getD raw.length ∧
          (((raw.drop i).findIdx? (· = 10)).map (i + ·)).getD raw.length ≤ raw.length := by
        cases hfind : (raw.drop i).findIdx? (· = 10) with
        | none => exact ⟨hi.le, le_rfl⟩
        | some k =>
          obtain ⟨hk, -⟩ := List.findIdx?_eq_some_iff_getElem.mp hfind
          rw [length_drop] at hk
          exact ⟨Nat.le_add_right i k, by simp only [map_some, getD_some]; omega⟩
      rw [sliceFrom_eq_some hi.le]
      simp only [bind_eq_bind, bind_some]
      rw [slice_eq_some heol.1 heol.2]
      simp only [bind_some]
      split_ifs with hend hname
      · exact ⟨none, rfl⟩
      · have hne : ((raw.drop i).take
            ((((raw.drop i).findIdx? (· = 10)).map (i + ·)).getD raw.length - i)).drop name.length ≠ [] := by
          intro hnil
          have hhead := hname.2.2
          rw [hnil] at hhead
          cases hhead
        obtain ⟨v, hv⟩ := headerValue_eq_some hne
        rw [hv]
        exact ⟨some v, rfl⟩
      · exact ih _
    · exact ⟨none, rfl⟩

lemma findHeaderValue_eq_some (raw name : Bytes) : ∃ v, findHeaderValue raw name = some v :=
  headerLoop_eq_some raw name (raw.length + 1) 0

section Frames

variable {l : Line}

lemma wsSendFrame_returns (opcode : UInt8) (payload : Bytes) (l : Line) : Returns (wsSendFrame opcode payload) l := by
  unfold Returns wsSendFrame
  simp only [outcome_bind, outcome_modifyGet]
  split_ifs
  · simp only [outcome_bind, outcome_modifyGet, outcome_pure]
  · trivial

lemma payloadLoop_returns {room toRead : Nat} (h : toRead ≤ room) (turns : Nat) (got : Bytes) (l : Line) :
    Returns (payloadLoop room toRead turns got) l := by
  induction turns generalizing got l with
  | zero => trivial
  | succ turns ih =>
    unfold Returns payloadLoop
    split_ifs with hlt
    · simp only [outcome_bind, outcome_modifyGet]
      split_ifs
      · trivial
      · rw [extent_eq_some hlt.le h]
        simp only [outcome_bind, outcome_orStop_some, outcome_modifyGet]
        split_ifs
        · trivial
        · exact ih _ _
    · trivial

lemma waitRead_returns (n : Nat) (l : Line) : Returns (waitRead n) l := by
  unfold Returns waitRead
  simp only [outcome_bind, outcome_modifyGet]
  split_ifs
  · trivial
  · trivial

lemma payloadLen_returns (len7 : Nat) (l : Line) : Returns (payloadLen len7) l := by
  unfold Returns payloadLen
  split_ifs
  · trivial
  · rw [outcome_bind]
    refine (waitRead_returns 2 l).mono ?_ fun _ h => h
    intro bytes l' _
    cases bytes with
    | none => trivial
    | some bytes =>
      dsimp only
      split_ifs
      · trivial
      · trivial
  · rw [outcome_bind]
    refine (waitRead_returns 8 l).mono ?_ fun _ h => h
    intro bytes l' _
    cases bytes with
    | none => trivial
    | some bytes => trivial

lemma readMask_returns (masked : Bool) (l : Line) :
    Outcome (readMask masked) l (fun mask _ => ∀ m, mask = some m → 4 ≤ m.length) fun _ => False := by
  unfold readMask
  split_ifs
  · rw [outcome_bind]
    refine (waitRead_returns 4 l).mono ?_ fun _ h => h
    intro bytes l' _
    cases bytes with
    | none => exact nofun
    | some bytes =>
      dsimp only
      split_ifs with hlt
      · exact nofun
      · intro m hm
        obtain rfl := some.inj hm
        exact Nat.not_lt.mp hlt
  · intro m hm
    obtain rfl := some.inj hm
    decide

lemma unmask_eq_some {mask : Bytes} (h : 4 ≤ mask.length) (got : Bytes) : ∃ text, unmask mask got = some text := by
  have hbytes : ∀ p ∈ got.zipIdx, ∃ b, (mask[p.2 % 4]?).map (p.1 ^^^ ·) = some b := by
    intro p _
    rw [getElem?_eq_getElem (by omega : p.2 % 4 < mask.length)]
    exact ⟨_, rfl⟩
  obtain ⟨text, htext, -⟩ := mapM_eq_some hbytes
  exact ⟨text, htext⟩

lemma wsRecvFrame_returns (room : Nat) (l : Line) : Returns (wsRecvFrame room) l := by
  unfold Returns wsRecvFrame
  rw [outcome_bind]
  refine (waitRead_returns 2 l).mono ?_ fun _ h => h
  intro header l' _
  split
  · rename_i b0 b1
    rw [outcome_bind]
    refine (payloadLen_returns _ l').mono ?_ fun _ h => h
    intro plen l' _
    cases plen with
    | none => trivial
    | some plen =>
      dsimp only
      rw [outcome_bind]
      refine (readMask_returns _ l').mono ?_ fun _ h => h
      intro mask l' hmask
      cases mask with
      | none => trivial
      | some mask =>
        dsimp only
        rw [outcome_bind]
        refine (payloadLoop_returns (min_le_right _ _) _ _ l').mono ?_ fun _ h => h
        intro got l' _
        split_ifs
        · obtain ⟨text, htext⟩ := unmask_eq_some (hmask mask rfl) got
          rw [outcome_bind, htext]
          trivial
        · trivial
  · trivial

end Frames

end Aeglos.Ws
