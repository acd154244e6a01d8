import Aeglos.Proofs.ServiceReplies

/-!
# Streams that never reach their client

A session asks for a stream under the name of task 0, and the pieces go to the task that asked.
-/

namespace Aeglos.Services

open TransitionSystem Effects Httpd Option

lemma toList_payload {bytes : Bytes} (h : bytes.length ≤ 32) :
    (payload bytes).toList = bytes ++ List.replicate (32 - bytes.length) 0 := by
  have hofFn : (payload bytes).toList = List.ofFn fun i : Fin 32 => bytes.getD i 0 := Vector.toList_ofFn
  rw [hofFn]
  refine List.ext_getElem ?_ ?_
  · rw [List.length_ofFn, List.length_append, List.length_replicate]
    omega
  · intro i hi hi'
    rw [List.getElem_ofFn]
    dsimp only
    rw [List.getD_eq_getElem?_getD]
    rcases Nat.lt_or_ge i bytes.length with hlt | hge
    · rw [List.getElem_append_left hlt, List.getElem?_eq_getElem hlt, getD_some]
    · rw [List.getElem_append_right hge, List.getElem_replicate, List.getElem?_eq_none hge, getD_none]

lemma word_zero_payload {op : Nat} (hop : op < 2 ^ 64) (sender : Nat) {rest : Bytes} (hrest : rest.length ≤ 24) :
    Message.word ⟨sender, payload (toLe op 8 ++ rest)⟩ 0 = op := by
  have hlength : (toLe op 8 ++ rest).length ≤ 32 := by
    rw [List.length_append, length_toLe]
    omega
  rw [Message.word, toList_payload hlength, Nat.mul_zero, List.drop_zero, List.append_assoc,
    List.take_left' (length_toLe op 8), fromLe_toLe]
  exact Nat.mod_eq_of_lt hop

def handleForwarded (polls : List (Option Message)) : Option (Bytes × Bool) → Comp Server Unit
  | none => forwardLoop polls
  | some (text, ended) => do
    onLine (Ws.wsSendText text)
    if ended = true then pure () else forwardLoop polls

lemma forwardLoop_cons (msg : Message) (polls : List (Option Message)) :
    forwardLoop (some msg :: polls) = handleForwarded polls (forwarded msg) := by
  have hlength : msg.data.toList.length = 32 := msg.data.length_toList
  have htoken := tokenLen_le msg
  have hpiece : Slices.slice msg.data.toList 9 (9 + tokenLen msg) =
      some ((msg.data.toList.drop 9).take (tokenLen msg)) := by
    rw [Slices.slice_eq_some (Nat.le_add_right _ _) (by omega), Nat.add_sub_cancel_left]
  unfold forwardLoop forwarded
  split_ifs
  · rfl
  · dsimp only
    rw [hpiece]
    rfl
  · exact (bind_pure _).symm
  · rfl

def Phase.job : Phase → Option Job
  | .searching job => some job
  | .retrieving job => some job
  | .generating job => some job
  | .storing job _ => some job
  | _ => none

structure Misdirected (tid : Nat) (w : World) : Prop where
  requests : ∀ e ∈ w.boxes 1, e.msg.word 0 = opInferStream → e.msg.sender ≠ tid
  job : ∀ job, w.numenor.job = some job → job.streaming = true → job.replyTo ≠ tid
  messages : ∀ e ∈ w.boxes tid, forwarded e.msg = none

section Steps

variable {cfg : Config} {tid target : Nat} {w : World} {e : Envelope} {rest : List Envelope} {next : Phase}
variable {data : Vector UInt8 32} {o : Oracle}

lemma forwarded_eq_none_of_sender {msg : Message} (h : msg.sender ≠ 1) : forwarded msg = none := if_pos h

lemma forwarded_eq_none_of_word {msg : Message} (h : msg.word 0 ≠ opToken) (h' : msg.word 0 ≠ opStreamEnd) :
    forwarded msg = none := by
  unfold forwarded
  rw [if_neg h, if_neg h', ite_self]

lemma Misdirected.deliver (h : Misdirected tid w)
    (hone : target = 1 → e.msg.word 0 = opInferStream → e.msg.sender ≠ tid)
    (htid : target = tid → forwarded e.msg = none) : Misdirected tid (w.deliver cfg target e) := by
  obtain ⟨new, hbox, hnew⟩ := deliver_boxes cfg w target e 1
  obtain ⟨new', hbox', hnew'⟩ := deliver_boxes cfg w target e tid
  refine ⟨?_, ?_, ?_⟩
  · intro x hx hword
    rw [hbox] at hx
    rcases List.mem_append.mp hx with hx | hx
    · exact h.requests x hx hword
    · obtain ⟨rfl, htarget⟩ := hnew x hx
      exact hone htarget.symm hword
  · rw [deliver_numenor]
    exact h.job
  · intro x hx
    rw [hbox'] at hx
    rcases List.mem_append.mp hx with hx | hx
    · exact h.messages x hx
    · obtain ⟨rfl, htarget⟩ := hnew' x hx
      exact htid htarget.symm

lemma Misdirected.setBox (h : Misdirected tid w) (n : Nat) (hrest : ∀ x ∈ rest, x ∈ w.boxes n) :
    Misdirected tid (w.setBox n rest) := by
  have hsub : ∀ m, ∀ x ∈ (w.setBox n rest).boxes m, x ∈ w.boxes m := by
    intro m x hx
    by_cases hm : m = n
    · subst hm
      rw [setBox_boxes_self] at hx
      exact hrest x hx
    · rwa [setBox_boxes_of_ne hm] at hx
  exact ⟨fun x hx => h.requests x (hsub 1 x hx), h.job, fun x hx => h.messages x (hsub tid x hx)⟩

lemma Misdirected.pop (h : Misdirected tid w) {n : Nat} (hbox : w.boxes n = e :: rest) :
    Misdirected tid (w.setBox n rest) := by
  refine h.setBox n ?_
  intro x hx
  rw [hbox]
  exact List.mem_cons_of_mem e hx

lemma Misdirected.goto (h : Misdirected tid w)
    (hjob : ∀ job, next.job = some job → job.streaming = true → job.replyTo ≠ tid) : Misdirected tid (w.goto next) :=
  ⟨h.requests, hjob, h.messages⟩

lemma Misdirected.send (h : Misdirected tid w) (htid : 2 < tid)
    (hdata : target = tid → forwarded ⟨1, data⟩ = none) : Misdirected tid (w.send cfg target data) :=
  h.deliver (fun _ _ => by dsimp only; omega) hdata

lemma Misdirected.ask (h : Misdirected tid w) (htid : 2 < tid)
    (hjob : ∀ job, next.job = some job → job.streaming = true → job.replyTo ≠ tid) :
    Misdirected tid (w.ask cfg data next) := by
  have hsent : Misdirected tid (w.deliver cfg 2 ⟨⟨1, data⟩, some w.requests⟩) :=
    h.deliver (fun htarget => absurd htarget (by decide)) fun htarget => absurd htarget (by omega)
  exact ⟨hsent.requests, hjob, hsent.messages⟩

lemma word_aiMessage {op : Nat} (hop : op < 2 ^ 64) (sender arg1 arg2 : Nat) :
    Message.word ⟨sender, aiMessage op arg1 arg2⟩ 0 = op := by
  have hlength : (toLe arg1 8 ++ toLe arg2 8).length ≤ 24 := by
    rw [List.length_append, length_toLe, length_toLe]
    decide
  rw [aiMessage, List.append_assoc]
  exact word_zero_payload hop sender hlength

lemma forwarded_aiMessage {op : Nat} (hop : op = 2 ∨ op = 30) (arg1 arg2 : Nat) :
    forwarded ⟨1, aiMessage op arg1 arg2⟩ = none := by
  have hlt : op < 2 ^ 64 := by omega
  have hword := word_aiMessage hlt 1 arg1 arg2
  refine forwarded_eq_none_of_word ?_ ?_
  · rw [hword, opToken]
    omega
  · rw [hword, opStreamEnd]
    omega

lemma Misdirected.beginJob (h : Misdirected tid w) (htid : 2 < tid) {job : Job}
    (hjob : job.streaming = true → job.replyTo ≠ tid) : Misdirected tid (w.beginJob cfg o job) := by
  have hnext : ∀ job', some job = some job' → job'.streaming = true → job'.replyTo ≠ tid := by
    intro job' heq
    rw [← some.inj heq]
    exact hjob
  unfold World.beginJob
  split_ifs
  · exact h.ask htid hnext
  · exact h.goto hnext

lemma Misdirected.dispatch (h : Misdirected tid w) (htid : 2 < tid) {msg : Message}
    (hsender : msg.word 0 = opInferStream → msg.sender ≠ tid) : Misdirected tid (w.dispatch cfg o msg) := by
  unfold World.dispatch
  split_ifs with hinfer harg hstream harg hdim
  · exact h.beginJob htid nofun
  · exact h.send htid fun _ => forwarded_aiMessage (Or.inl rfl) _ _
  · exact h.beginJob htid fun _ => hsender hstream
  · exact h.send htid fun htarget => absurd htarget (hsender hstream)
  · exact h.send htid fun _ => forwarded_aiMessage (Or.inr rfl) _ _
  · exact h

lemma Misdirected.generate (h : Misdirected tid w) (htid : 2 < tid) {job : Job}
    (hjob : job.streaming = true → job.replyTo ≠ tid) : Misdirected tid (w.generate cfg o job) := by
  unfold World.generate
  split_ifs with hstream hstore
  · cases o.piece with
    | none => exact (h.send htid fun htarget => absurd htarget (hjob hstream)).goto nofun
    | some piece =>
      dsimp only
      split_ifs
      · exact h
      · exact h.send htid fun htarget => absurd htarget (hjob hstream)
  · refine h.ask htid ?_
    intro job' heq
    rw [← some.inj heq]
    exact hjob
  · exact (h.send htid fun _ => forwarded_aiMessage (Or.inl rfl) _ _).goto nofun

lemma Misdirected.take (h : Misdirected tid w) (hbox : w.boxes 1 = e :: rest) : Misdirected tid (w.take e rest) :=
  ⟨(h.pop hbox).requests, (h.pop hbox).job, (h.pop hbox).messages⟩

lemma Misdirected.numenorStep (h : Misdirected tid w) (htid : 2 < tid) :
    Misdirected tid (w.numenorStep cfg o) := by
  have hjob := h.job
  unfold World.numenorStep
  cases hphase : w.numenor with
  | stopped => exact h
  | generating job =>
    rw [hphase] at hjob
    exact h.generate htid (hjob job rfl)
  | main =>
    cases hbox : w.boxes 1 with
    | nil => exact h
    | cons e rest =>
      exact (h.pop hbox).dispatch htid (h.requests e (by rw [hbox]; exact List.mem_cons_self))
  | searching job =>
    rw [hphase] at hjob
    cases hbox : w.boxes 1 with
    | nil => exact h
    | cons e rest =>
      dsimp only
      split_ifs
      · exact (h.take hbox).goto hjob
      · exact (h.take hbox).ask htid hjob
  | retrieving job =>
    rw [hphase] at hjob
    cases hbox : w.boxes 1 with
    | nil => exact h
    | cons e rest =>
      dsimp only
      unfold World.afterRetrieve
      split_ifs
      · exact (h.take hbox).goto nofun
      · exact (h.take hbox).goto hjob
  | storing job len =>
    cases hbox : w.boxes 1 with
    | nil => exact h
    | cons e rest =>
      exact ((h.take hbox).send htid fun _ => forwarded_aiMessage (Or.inl rfl) _ _).goto nofun

lemma Misdirected.semanticStep (h : Misdirected tid w) (htid : 2 < tid) :
    Misdirected tid (w.semanticStep cfg data) := by
  unfold World.semanticStep
  cases w.semantic with
  | none =>
    cases hbox : w.boxes 2 with
    | nil => exact h
    | cons e rest => exact ⟨(h.pop hbox).requests, (h.pop hbox).job, (h.pop hbox).messages⟩
  | some e =>
    dsimp only
    split_ifs
    · have hsent : Misdirected tid (w.deliver cfg e.msg.sender ⟨⟨2, data⟩, e.tag⟩) :=
        h.deliver (fun _ _ => by dsimp only; omega) fun _ => forwarded_eq_none_of_sender (by dsimp only; decide)
      exact ⟨hsent.requests, hsent.job, hsent.messages⟩
    · exact ⟨h.requests, h.job, h.messages⟩

end Steps

section Runs

variable {cfg : Config} {tid : Nat}

structure Silent (tid : Nat) (h : Hall) : Prop where
  misdirected : Misdirected tid h.world
  frames : h.frames = []

lemma Misdirected.step {w : World} (h : Misdirected tid w) (htid : 2 < tid) {a : Action} (ha : ¬a.sentBy tid) :
    Misdirected tid (w.step cfg a) := by
  cases a with
  | numenor o => exact h.numenorStep htid
  | semantic data => exact h.semanticStep htid
  | post sender target data =>
    unfold World.step
    dsimp only
    split_ifs with hsender
    · exact h
    · rw [not_or] at hsender
      exact h.deliver (fun _ _ => ha) fun _ => forwarded_eq_none_of_sender hsender.1

lemma Silent.forward {h : Hall} (hs : Silent tid h) : Silent tid (h.forward tid) := by
  unfold Hall.forward
  cases hbox : h.world.boxes tid with
  | nil => exact hs
  | cons e rest =>
    have hnone := hs.misdirected.messages e (by rw [hbox]; exact List.mem_cons_self)
    dsimp only
    rw [hnone]
    exact ⟨hs.misdirected.pop hbox, hs.frames⟩

lemma word_streamRequest (ptr len : Nat) : (streamRequest ptr len).sender = 0 := rfl

lemma Silent.step {h : Hall} (hs : Silent tid h) (htid : 2 < tid) (a : HallAction) : Silent tid (h.step cfg tid a) := by
  cases a with
  | world a =>
    unfold Hall.step
    dsimp only
    split_ifs with ha
    · exact hs
    · exact ⟨hs.misdirected.step htid ha, hs.frames⟩
  | prompt ptr len =>
    unfold Hall.step
    dsimp only
    split_ifs
    · exact hs
    · refine ⟨hs.misdirected.deliver ?_ ?_, hs.frames⟩
      · intro _ _
        rw [word_streamRequest]
        omega
      · intro htarget
        rw [numenorTid] at htarget
        omega
  | forward =>
    unfold Hall.step
    dsimp only
    split_ifs
    · exact hs.forward
    · exact hs
  | expire => exact ⟨hs.misdirected, hs.frames⟩
  | infer ptr len =>
    unfold Hall.step
    dsimp only
    split_ifs
    · exact hs
    · refine ⟨hs.misdirected.deliver ?_ ?_, hs.frames⟩
      · intro _ hword
        have htwo := word_aiMessage (by decide : 2 < 2 ^ 64) tid ptr len
        exact absurd (htwo.symm.trans hword) (by decide)
      · intro htarget
        rw [numenorTid] at htarget
        omega
  | query data =>
    unfold Hall.step
    dsimp only
    split_ifs
    · exact hs
    · exact ⟨hs.misdirected.deliver (fun htarget => absurd htarget (by decide)) (fun htarget => absurd htarget (by omega)),
        hs.frames⟩
  | drain =>
    unfold Hall.step
    dsimp only
    split_ifs
    · exact hs
    · exact ⟨hs.misdirected.setBox tid fun x hx => List.mem_of_mem_tail hx, hs.frames⟩

lemma silent_start (tid : Nat) : Silent tid Hall.start := ⟨⟨nofun, nofun, nofun⟩, rfl⟩

/-- The session never sends a text frame, so neither a piece nor the done marker reaches the client. -/
theorem no_frame_sent (cfg : Config) {tid : Nat} (htid : 2 < tid) (as : List HallAction) :
    (run (Hall.step cfg tid) Hall.start as).frames = [] := by
  have hsilent : Silent tid (run (Hall.step cfg tid) Hall.start as) :=
    run_preserves (fun _ a hs => hs.step htid a) (silent_start tid) as
  exact hsilent.frames

def streamedRun : List HallAction :=
  [.prompt 0x40007000 2, .world (.numenor ⟨[104, 105], false, none, [], 384⟩),
    .world (.numenor ⟨[], false, some [97], [], 384⟩), .world (.numenor ⟨[], false, none, [], 384⟩), .forward, .forward]

theorem streamedRun_silent : (run (Hall.step sampleConfig 4) Hall.start streamedRun).frames = [] :=
  no_frame_sent sampleConfig (by decide) streamedRun

/-- The generation is over, its piece and its end are in the mailbox of task 0, and the client has
got nothing. -/
theorem stream_lost :
    ((run (Hall.step sampleConfig 4) Hall.start streamedRun).world.boxes 0).map (fun e => e.msg.data) =
      [tokenMessage [97], streamEnd] ∧
    (run (Hall.step sampleConfig 4) Hall.start streamedRun).world.boxes 4 = [] ∧
    (run (Hall.step sampleConfig 4) Hall.start streamedRun).frames = [] := by
  decide

end Runs

end Aeglos.Services
