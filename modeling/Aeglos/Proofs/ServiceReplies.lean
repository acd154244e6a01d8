import Aeglos.Library.Runs
import Aeglos.Services.Numenor

/-!
# Answers that the inference service uses

The service takes the next message of its mailbox for the answer to its request.
-/

namespace Aeglos.Services

open TransitionSystem Option

/-- What has been used as the answer to a request was sent by the semantic service in answer to it. -/
def Matched (w : World) : Prop := ∀ p ∈ w.taken, p.2.tag = some p.1 ∧ p.2.msg.sender = 2

def Envelope.isRequest (e : Envelope) : Bool := decide (e.msg.sender = 1)

def World.outstanding (w : World) : List Envelope :=
  (w.boxes 2).filter Envelope.isRequest ++ w.semantic.toList.filter Envelope.isRequest ++
    (w.boxes 1).filter fun e => e.tag.isSome

/-- When the service makes a request its mailbox is empty, and no other task sends it a message while
it waits. -/
def Quiet (cfg : Config) (w : World) : Action → Prop
  | .numenor o => (w.numenorStep cfg o).requests ≠ w.requests → (w.numenorStep cfg o).boxes 1 = []
  | .semantic _ => True
  | .post _ target _ => target = 1 → w.numenor.waiting = false

def Phase.replyTo : Phase → Option Nat
  | .searching job => some job.replyTo
  | .retrieving job => some job.replyTo
  | .generating job => some job.replyTo
  | .storing job _ => some job.replyTo
  | _ => none

/-- At most one request is on its way, the one that the service waits for, and its mailbox holds nothing but
the answer. -/
structure Calm (w : World) : Prop where
  matched : Matched w
  requests : w.numenor.waiting = true → 0 < w.requests
  outstanding : w.outstanding = [] ∨ w.numenor.waiting = true ∧ ∃ e, w.outstanding = [e] ∧ e.tag = some (w.requests - 1)
  answers : ∀ e ∈ w.boxes 1, e.tag.isSome → e.msg.sender = 2
  clients : ∀ e ∈ w.boxes 1, e.tag = none → e.msg.sender ≠ 1 ∧ e.msg.sender ≠ 2 ∧ w.numenor.waiting = false
  tagged : ∀ e ∈ w.boxes 2 ++ w.semantic.toList, e.msg.sender ≠ 1 → e.tag = none
  replyTo : ∀ t, w.numenor.replyTo = some t → t ≠ 1 ∧ t ≠ 2

section Delivery

variable {cfg : Config} {w : World} {target n : Nat} {e : Envelope}

lemma setBox_boxes_self (n : Nat) (box : List Envelope) : (w.setBox n box).boxes n = box := Function.update_self ..

lemma setBox_boxes_of_ne (h : n ≠ target) (box : List Envelope) : (w.setBox target box).boxes n = w.boxes n :=
  Function.update_of_ne h ..

lemma deliver_boxes_of_ne (h : n ≠ target) : (w.deliver cfg target e).boxes n = w.boxes n := by
  unfold World.deliver
  split_ifs
  · exact setBox_boxes_of_ne h _
  · rfl

lemma deliver_boxes_self (cfg : Config) (w : World) (target : Nat) (e : Envelope) :
    (w.deliver cfg target e).boxes target = w.boxes target ++ [e] ∨
      (w.deliver cfg target e).boxes target = w.boxes target := by
  unfold World.deliver
  split_ifs
  · exact Or.inl (setBox_boxes_self _ _)
  · exact Or.inr rfl

lemma deliver_boxes (cfg : Config) (w : World) (target : Nat) (e : Envelope) (n : Nat) :
    ∃ new, (w.deliver cfg target e).boxes n = w.boxes n ++ new ∧ ∀ x ∈ new, x = e ∧ n = target := by
  by_cases h : n = target
  · subst h
    rcases deliver_boxes_self cfg w n e with hbox | hbox
    · exact ⟨[e], hbox, fun x hx => ⟨List.mem_singleton.mp hx, rfl⟩⟩
    · exact ⟨[], hbox.trans (List.append_nil _).symm, nofun⟩
  · exact ⟨[], (deliver_boxes_of_ne h).trans (List.append_nil _).symm, nofun⟩

@[simp] lemma deliver_numenor : (w.deliver cfg target e).numenor = w.numenor := by
  unfold World.deliver
  split_ifs
  · rfl
  · rfl

@[simp] lemma deliver_semantic : (w.deliver cfg target e).semantic = w.semantic := by
  unfold World.deliver
  split_ifs
  · rfl
  · rfl

@[simp] lemma deliver_requests : (w.deliver cfg target e).requests = w.requests := by
  unfold World.deliver
  split_ifs
  · rfl
  · rfl

@[simp] lemma deliver_taken : (w.deliver cfg target e).taken = w.taken := by
  unfold World.deliver
  split_ifs
  · rfl
  · rfl

end Delivery

section Steps

variable {cfg : Config} {w w' : World} {target : Nat} {e : Envelope} {rest : List Envelope} {data : Vector UInt8 32}
variable {o : Oracle}
  {next : Phase}

lemma Calm.congr (h : Calm w) (h1 : w'.boxes 1 = w.boxes 1) (h2 : w'.boxes 2 = w.boxes 2)
    (hsemantic : w'.semantic = w.semantic) (hrequests : w'.requests = w.requests) (htaken : w'.taken = w.taken)
    (hwaiting : w'.numenor.waiting = w.numenor.waiting)
    (hreply : ∀ t, w'.numenor.replyTo = some t → t ≠ 1 ∧ t ≠ 2) : Calm w' where
  matched := by
    unfold Matched
    rw [htaken]
    exact h.matched
  requests := by
    rw [hwaiting, hrequests]
    exact h.requests
  outstanding := by
    unfold World.outstanding
    rw [h1, h2, hsemantic, hwaiting, hrequests]
    exact h.outstanding
  answers := by
    rw [h1]
    exact h.answers
  clients := by
    rw [h1, hwaiting]
    exact h.clients
  tagged := by
    rw [h2, hsemantic]
    exact h.tagged
  replyTo := hreply

lemma Calm.send (h : Calm w) (htarget : target ≠ 1 ∧ target ≠ 2) : Calm (w.send cfg target data) :=
  h.congr (deliver_boxes_of_ne htarget.1.symm) (deliver_boxes_of_ne htarget.2.symm) deliver_semantic deliver_requests
    deliver_taken (by rw [World.send, deliver_numenor]) (by
      rw [World.send, deliver_numenor]
      exact h.replyTo)

lemma Calm.goto (h : Calm w) (hnow : w.numenor.waiting = false) (hnext : next.waiting = false)
    (hreply : ∀ t, next.replyTo = some t → t ≠ 1 ∧ t ≠ 2) : Calm (w.goto next) :=
  h.congr rfl rfl rfl rfl rfl (hnext.trans hnow.symm) hreply

lemma Calm.outstanding_eq_nil (h : Calm w) (hnow : w.numenor.waiting = false) : w.outstanding = [] := by
  rcases h.outstanding with hnil | ⟨hwaiting, -⟩
  · exact hnil
  · rw [hnow] at hwaiting
    cases hwaiting

lemma Calm.ask (h : Calm w) (hnow : w.numenor.waiting = false) (hbox : w.boxes 1 = []) (hnext : next.waiting = true)
    (hreply : ∀ t, next.replyTo = some t → t ≠ 1 ∧ t ≠ 2) : Calm (w.ask cfg data next) := by
  have hone : (w.ask cfg data next).boxes 1 = [] := by
    rw [← hbox]
    exact deliver_boxes_of_ne (by decide)
  have hsemantic : (w.ask cfg data next).semantic = w.semantic := deliver_semantic
  have htaken : (w.ask cfg data next).taken = w.taken := deliver_taken
  have hrequests : (w.ask cfg data next).requests = w.requests + 1 := rfl
  have hnumenor : (w.ask cfg data next).numenor = next := rfl
  have hnil := h.outstanding_eq_nil hnow
  unfold World.outstanding at hnil
  obtain ⟨hpending, -⟩ := List.append_eq_nil_iff.mp hnil
  obtain ⟨hqueued, hhandled⟩ := List.append_eq_nil_iff.mp hpending
  refine ⟨?_, ?_, ?_, ?_, ?_, ?_, hreply⟩
  · unfold Matched
    rw [htaken]
    exact h.matched
  · intro _
    rw [hrequests]
    exact Nat.succ_pos _
  · unfold World.outstanding
    rw [hone, hsemantic, hhandled, hnumenor, hrequests]
    -- the request may be lost
    rcases deliver_boxes_self cfg w 2 ⟨⟨1, data⟩, some w.requests⟩ with htwo | htwo
    · refine Or.inr ⟨hnext, ⟨⟨1, data⟩, some w.requests⟩, ?_, rfl⟩
      rw [World.ask, htwo, List.filter_append, hqueued]
      rfl
    · refine Or.inl ?_
      rw [World.ask, htwo, hqueued]
      rfl
  · rw [hone]
    exact nofun
  · rw [hone]
    exact nofun
  · obtain ⟨new, htwo, hnew⟩ := deliver_boxes cfg w 2 ⟨⟨1, data⟩, some w.requests⟩ 2
    intro e he hsender
    rw [World.ask, htwo, deliver_semantic] at he
    rcases List.mem_append.mp he with he | he
    · rcases List.mem_append.mp he with he | he
      · exact h.tagged e (List.mem_append_left _ he) hsender
      · rw [(hnew e he).1] at hsender
        exact absurd rfl hsender
    · exact h.tagged e (List.mem_append_right _ he) hsender

lemma Calm.take (h : Calm w) (next : Phase) (hnow : w.numenor.waiting = true) (hbox : w.boxes 1 = e :: rest)
    (hnext : next.waiting = false) (hreply : ∀ t, next.replyTo = some t → t ≠ 1 ∧ t ≠ 2) :
    rest = [] ∧ Calm ((w.take e rest).goto next) := by
  have hmem : e ∈ w.boxes 1 := by
    rw [hbox]
    exact List.mem_cons_self
  have htagged : ∀ e ∈ w.boxes 1, e.tag.isSome = true := by
    intro e he
    cases htag : e.tag with
    | none =>
      have hclient := (h.clients e he htag).2.2
      rw [hnow] at hclient
      cases hclient
    | some n => rfl
  have hfilter : (w.boxes 1).filter (fun e => e.tag.isSome) = e :: rest := by
    rw [List.filter_eq_self.mpr htagged, hbox]
  -- the answer is all that is on its way
  obtain ⟨hpending, hrest, htag⟩ : (w.boxes 2).filter Envelope.isRequest ++ w.semantic.toList.filter Envelope.isRequest = [] ∧
      rest = [] ∧ e.tag = some (w.requests - 1) := by
    have hout := h.outstanding
    unfold World.outstanding at hout
    rw [hfilter] at hout
    rcases hout with hnil | ⟨-, e', heq, htag⟩
    · cases (List.append_eq_nil_iff.mp hnil).2
    · rcases List.append_eq_singleton_iff.mp heq with ⟨hpending, hcons⟩ | ⟨-, hnil⟩
      · obtain ⟨rfl, rfl⟩ := List.cons.inj hcons
        exact ⟨hpending, rfl, htag⟩
      · cases hnil
  subst hrest
  have hone : ((w.take e []).goto next).boxes 1 = [] := setBox_boxes_self (w := w) 1 []
  have htwo : ((w.take e []).goto next).boxes 2 = w.boxes 2 := by
    have hne : (2 : Nat) ≠ 1 := by decide
    exact setBox_boxes_of_ne (w := w) hne []
  refine ⟨rfl, ?_, ?_, Or.inl ?_, ?_, ?_, ?_, hreply⟩
  · intro p hp
    rcases List.mem_append.mp hp with hp | hp
    · exact h.matched p hp
    · rw [List.mem_singleton.mp hp]
      exact ⟨htag, h.answers e hmem (htagged e hmem)⟩
  · intro hwaiting
    exact absurd hwaiting (by rw [World.goto, hnext]; exact Bool.false_ne_true)
  · unfold World.outstanding
    rw [hone, htwo]
    exact List.append_eq_nil_iff.mpr ⟨hpending, rfl⟩
  · rw [hone]
    exact nofun
  · rw [hone]
    exact nofun
  · rw [htwo]
    exact h.tagged

lemma ask_goto (p : Phase) : (w.goto p).ask cfg data next = w.ask cfg data next := by
  unfold World.ask World.deliver World.goto
  dsimp only
  split_ifs
  · rfl
  · rfl

lemma send_goto (p : Phase) : (w.send cfg target data).goto p = (w.goto p).send cfg target data := by
  unfold World.send World.deliver World.goto
  dsimp only
  split_ifs
  · rfl
  · rfl

lemma Calm.pop (h : Calm w) (hnow : w.numenor.waiting = false) (hbox : w.boxes 1 = e :: rest) :
    (e.msg.sender ≠ 1 ∧ e.msg.sender ≠ 2) ∧ Calm (w.setBox 1 rest) := by
  have hnil := h.outstanding_eq_nil hnow
  unfold World.outstanding at hnil
  rw [hbox] at hnil
  obtain ⟨hpending, hanswers⟩ := List.append_eq_nil_iff.mp hnil
  rw [List.filter_eq_nil_iff] at hanswers
  have htag : e.tag = none := by
    have hsome := hanswers e List.mem_cons_self
    simpa using hsome
  have hone : ∀ e', e' ∈ rest → e' ∈ w.boxes 1 := by
    intro e' he'
    rw [hbox]
    exact List.mem_cons_of_mem e he'
  obtain ⟨hsender, hsender', -⟩ := h.clients e (by rw [hbox]; exact List.mem_cons_self) htag
  have hboxes : (w.setBox 1 rest).boxes 1 = rest := setBox_boxes_self 1 rest
  have htwo : (w.setBox 1 rest).boxes 2 = w.boxes 2 := setBox_boxes_of_ne (by decide) rest
  refine ⟨⟨hsender, hsender'⟩, h.matched, h.requests, Or.inl ?_, ?_, ?_, ?_, h.replyTo⟩
  · unfold World.outstanding
    rw [hboxes, htwo]
    refine List.append_eq_nil_iff.mpr ⟨hpending, List.filter_eq_nil_iff.mpr ?_⟩
    exact fun e' he' => hanswers e' (List.mem_cons_of_mem e he')
  · rw [hboxes]
    exact fun e' he' => h.answers e' (hone e' he')
  · rw [hboxes]
    exact fun e' he' => h.clients e' (hone e' he')
  · rw [htwo]
    exact h.tagged

lemma Calm.ask_of_quiet (h : Calm w) (hnow : w.numenor.waiting = false)
    (hquiet : (w.ask cfg data next).requests ≠ w.requests → (w.ask cfg data next).boxes 1 = [])
    (hnext : next.waiting = true) (hreply : ∀ t, next.replyTo = some t → t ≠ 1 ∧ t ≠ 2) :
    Calm (w.ask cfg data next) := by
  have hbox := hquiet (Nat.succ_ne_self _)
  have hone : (w.ask cfg data next).boxes 1 = w.boxes 1 := deliver_boxes_of_ne (by decide)
  exact h.ask hnow (hone.symm.trans hbox) hnext hreply

lemma Calm.beginJob (h : Calm w) (hnow : w.numenor.waiting = false) {job : Job}
    (hjob : job.replyTo ≠ 1 ∧ job.replyTo ≠ 2)
    (hquiet : (w.beginJob cfg o job).requests ≠ w.requests → (w.beginJob cfg o job).boxes 1 = []) : Calm (w.beginJob cfg o job) := by
  have hreply : ∀ t, some job.replyTo = some t → t ≠ 1 ∧ t ≠ 2 := by
    intro t ht
    rw [← some.inj ht]
    exact hjob
  unfold World.beginJob at hquiet ⊢
  split_ifs at hquiet ⊢
  · exact h.ask_of_quiet hnow hquiet rfl hreply
  · exact h.goto hnow rfl hreply

lemma Calm.dispatch (h : Calm w) (hnow : w.numenor.waiting = false) {msg : Message}
    (hsender : msg.sender ≠ 1 ∧ msg.sender ≠ 2)
    (hquiet : (w.dispatch cfg o msg).requests ≠ w.requests → (w.dispatch cfg o msg).boxes 1 = []) : Calm (w.dispatch cfg o msg) := by
  unfold World.dispatch at hquiet ⊢
  split_ifs at hquiet ⊢
  · exact h.beginJob hnow hsender hquiet
  · exact h.send hsender
  · exact h.beginJob hnow hsender hquiet
  · exact h.send hsender
  · exact h.send hsender
  · exact h

lemma Calm.generate (h : Calm w) {job : Job} (hphase : w.numenor = .generating job)
    (hquiet : (w.generate cfg o job).requests ≠ w.requests → (w.generate cfg o job).boxes 1 = []) : Calm (w.generate cfg o job) := by
  have hnow : w.numenor.waiting = false := by
    rw [hphase]
    rfl
  have hjob : job.replyTo ≠ 1 ∧ job.replyTo ≠ 2 := by
    refine h.replyTo job.replyTo ?_
    rw [hphase]
    rfl
  have hsent : ∀ data, Calm ((w.send cfg job.replyTo data).goto .main) := by
    intro data
    refine (h.send hjob).goto ?_ rfl nofun
    rw [World.send, deliver_numenor]
    exact hnow
  unfold World.generate at hquiet ⊢
  split_ifs at hquiet ⊢
  · cases o.piece with
    | none => exact hsent _
    | some piece =>
      dsimp only
      split_ifs
      · exact h
      · exact h.send hjob
  · refine h.ask_of_quiet hnow hquiet rfl ?_
    intro t ht
    rw [← some.inj ht]
    exact hjob
  · exact hsent _

lemma Calm.numenorStep (h : Calm w) (hquiet : Quiet cfg w (.numenor o)) : Calm (w.numenorStep cfg o) := by
  unfold Quiet at hquiet
  unfold World.numenorStep at hquiet ⊢
  cases hphase : w.numenor with
  | stopped => exact h
  | generating job =>
    rw [hphase] at hquiet
    exact h.generate hphase hquiet
  | main =>
    cases hbox : w.boxes 1 with
    | nil => exact h
    | cons e rest =>
      rw [hphase, hbox] at hquiet
      dsimp only at hquiet ⊢
      have hnow : w.numenor.waiting = false := by
        rw [hphase]
        rfl
      obtain ⟨hsender, hcalm⟩ := h.pop hnow hbox
      exact hcalm.dispatch hnow hsender hquiet
  | searching job =>
    cases hbox : w.boxes 1 with
    | nil => exact h
    | cons e rest =>
      have hnow : w.numenor.waiting = true := by
        rw [hphase]
        rfl
      have hreply : ∀ t, some job.replyTo = some t → t ≠ 1 ∧ t ≠ 2 := by
        have hjob := h.replyTo
        rw [hphase] at hjob
        exact hjob
      rw [hphase, hbox] at hquiet
      dsimp only at hquiet ⊢
      split_ifs at hquiet ⊢
      · exact (h.take (.generating job) hnow hbox rfl hreply).2
      · obtain ⟨rfl, hcalm⟩ := h.take .main hnow hbox rfl nofun
        rw [← ask_goto .main] at hquiet ⊢
        exact hcalm.ask_of_quiet rfl hquiet rfl hreply
  | retrieving job =>
    cases hbox : w.boxes 1 with
    | nil => exact h
    | cons e rest =>
      have hnow : w.numenor.waiting = true := by
        rw [hphase]
        rfl
      have hreply : ∀ t, some job.replyTo = some t → t ≠ 1 ∧ t ≠ 2 := by
        have hjob := h.replyTo
        rw [hphase] at hjob
        exact hjob
      dsimp only
      unfold World.afterRetrieve
      split_ifs
      · exact (h.take .stopped hnow hbox rfl nofun).2
      · exact (h.take (.generating job) hnow hbox rfl hreply).2
  | storing job len =>
    cases hbox : w.boxes 1 with
    | nil => exact h
    | cons e rest =>
      have hnow : w.numenor.waiting = true := by
        rw [hphase]
        rfl
      have hjob : job.replyTo ≠ 1 ∧ job.replyTo ≠ 2 := by
        refine h.replyTo job.replyTo ?_
        rw [hphase]
        rfl
      dsimp only
      rw [send_goto]
      exact (h.take .main hnow hbox rfl nofun).2.send hjob

lemma Calm.deliver (h : Calm w) (hsender : e.msg.sender ≠ 1) (htag : e.tag = none)
    (hone : target = 1 → e.msg.sender ≠ 2 ∧ w.numenor.waiting = false) : Calm (w.deliver cfg target e) := by
  obtain ⟨new, hbox, hnew⟩ := deliver_boxes cfg w target e 1
  obtain ⟨new', hbox', hnew'⟩ := deliver_boxes cfg w target e 2
  have hanswers : new.filter (fun x => x.tag.isSome) = [] := by
    rw [List.filter_eq_nil_iff]
    intro x hx
    rw [(hnew x hx).1, htag]
    exact Bool.false_ne_true
  have hrequests : new'.filter Envelope.isRequest = [] := by
    rw [List.filter_eq_nil_iff]
    intro x hx
    rw [(hnew' x hx).1]
    exact of_decide_eq_false (decide_eq_false hsender) ∘ of_decide_eq_true
  refine ⟨?_, ?_, ?_, ?_, ?_, ?_, ?_⟩
  · unfold Matched
    rw [deliver_taken]
    exact h.matched
  · rw [deliver_numenor, deliver_requests]
    exact h.requests
  · unfold World.outstanding
    rw [hbox, hbox', deliver_semantic, deliver_numenor, deliver_requests, List.filter_append, List.filter_append,
      hanswers, hrequests, List.append_nil, List.append_nil]
    exact h.outstanding
  · intro x hx hsome
    rw [hbox] at hx
    rcases List.mem_append.mp hx with hx | hx
    · exact h.answers x hx hsome
    · rw [(hnew x hx).1, htag] at hsome
      cases hsome
  · intro x hx hnone
    rw [hbox] at hx
    rw [deliver_numenor]
    rcases List.mem_append.mp hx with hx | hx
    · exact h.clients x hx hnone
    · obtain ⟨rfl, htarget⟩ := hnew x hx
      exact ⟨hsender, hone htarget.symm⟩
  · intro x hx hne
    rw [hbox', deliver_semantic] at hx
    rcases List.mem_append.mp hx with hx | hx
    · rcases List.mem_append.mp hx with hx | hx
      · exact h.tagged x (List.mem_append_left _ hx) hne
      · rw [(hnew' x hx).1]
        exact htag
    · exact h.tagged x (List.mem_append_right _ hx) hne
  · rw [deliver_numenor]
    exact h.replyTo

lemma Calm.receive (h : Calm w) (hsemantic : w.semantic = none) (hbox : w.boxes 2 = e :: rest) :
    Calm { w.setBox 2 rest with semantic := some e } := by
  have hone : (w.setBox 2 rest).boxes 1 = w.boxes 1 := setBox_boxes_of_ne (by decide) rest
  have htwo : (w.setBox 2 rest).boxes 2 = rest := setBox_boxes_self 2 rest
  have hperm : List.Perm (World.outstanding { w.setBox 2 rest with semantic := some e }) w.outstanding := by
    unfold World.outstanding
    rw [hone, htwo, hbox, hsemantic]
    refine List.Perm.append_right _ ?_
    rw [← List.filter_append, ← List.filter_append]
    refine List.Perm.filter _ ?_
    simp
  refine ⟨h.matched, h.requests, ?_, ?_, ?_, ?_, h.replyTo⟩
  · rcases h.outstanding with hnil | ⟨hwaiting, x, hx, htag⟩
    · rw [hnil] at hperm
      exact Or.inl hperm.eq_nil
    · rw [hx] at hperm
      exact Or.inr ⟨hwaiting, x, hperm.eq_singleton, htag⟩
  · rw [hone]
    exact h.answers
  · rw [hone]
    exact h.clients
  · intro x hx hne
    refine h.tagged x ?_ hne
    rw [htwo] at hx
    rw [hbox, hsemantic]
    simpa [or_comm] using hx

lemma Calm.handled (h : Calm w) (hsemantic : w.semantic = some e) (hrequest : e.isRequest = true) :
    w.numenor.waiting = true ∧ (w.boxes 2).filter Envelope.isRequest = [] ∧
      ((w.boxes 1).filter fun e => e.tag.isSome) = [] ∧ e.tag = some (w.requests - 1) := by
  have hout := h.outstanding
  unfold World.outstanding at hout
  rw [hsemantic, toList_some, List.filter_cons_of_pos hrequest] at hout
  rcases hout with hnil | ⟨hwaiting, x, hx, htag⟩
  · simp at hnil
  · have hlength := congrArg List.length hx
    simp only [List.length_append, List.length_cons, List.filter_nil, List.length_nil] at hlength
    have hqueued : (w.boxes 2).filter Envelope.isRequest = [] := List.length_eq_zero_iff.mp (by omega)
    have hanswers : ((w.boxes 1).filter fun e => e.tag.isSome) = [] := List.length_eq_zero_iff.mp (by omega)
    rw [hqueued, hanswers] at hx
    obtain rfl : e = x := (List.cons.inj hx).1
    exact ⟨hwaiting, hqueued, hanswers, htag⟩

lemma Calm.finish (h : Calm w) (hsemantic : w.semantic = some e) : Calm { w with semantic := none } := by
  refine ⟨h.matched, h.requests, ?_, h.answers, h.clients, ?_, h.replyTo⟩
  · cases hrequest : e.isRequest with
    | false =>
      have hout := h.outstanding
      unfold World.outstanding at hout ⊢
      rw [hsemantic, toList_some, List.filter_cons_of_neg (by rw [hrequest]; exact Bool.false_ne_true)] at hout
      exact hout
    | true =>
      obtain ⟨-, hqueued, hanswers, -⟩ := h.handled hsemantic hrequest
      left
      unfold World.outstanding
      rw [hqueued, hanswers]
      rfl
  · intro x hx hne
    refine h.tagged x ?_ hne
    exact List.mem_append_left _ (by simpa using hx)

lemma Calm.answer (h : Calm w) (hsemantic : w.semantic = some e) (hsender : e.msg.sender = 1) :
    Calm { w.deliver cfg 1 ⟨⟨2, data⟩, e.tag⟩ with semantic := none } := by
  obtain ⟨hwaiting, hqueued, hanswers, htag⟩ := h.handled hsemantic (decide_eq_true hsender)
  have hcalm := h.finish hsemantic
  have htwo : (w.deliver cfg 1 ⟨⟨2, data⟩, e.tag⟩).boxes 2 = w.boxes 2 := deliver_boxes_of_ne (by decide)
  rcases deliver_boxes_self cfg w 1 ⟨⟨2, data⟩, e.tag⟩ with hbox | hbox
  · refine ⟨?_, ?_, Or.inr ⟨?_, ⟨⟨2, data⟩, e.tag⟩, ?_, ?_⟩, ?_, ?_, ?_, ?_⟩
    · unfold Matched
      dsimp only
      rw [deliver_taken]
      exact h.matched
    · dsimp only
      rw [deliver_numenor, deliver_requests]
      exact h.requests
    · dsimp only
      rw [deliver_numenor]
      exact hwaiting
    · unfold World.outstanding
      dsimp only
      rw [hbox, htwo, hqueued, List.filter_append, hanswers, htag]
      rfl
    · dsimp only
      rw [deliver_requests]
      exact htag
    · dsimp only
      rw [hbox]
      intro x hx hsome
      rcases List.mem_append.mp hx with hx | hx
      · exact h.answers x hx hsome
      · rw [List.mem_singleton.mp hx]
    · dsimp only
      rw [hbox, deliver_numenor]
      intro x hx hnone
      rcases List.mem_append.mp hx with hx | hx
      · exact h.clients x hx hnone
      · rw [List.mem_singleton.mp hx, htag] at hnone
        cases hnone
    · dsimp only
      rw [htwo]
      exact hcalm.tagged
    · dsimp only
      rw [deliver_numenor]
      exact h.replyTo
  · refine hcalm.congr hbox htwo rfl ?_ ?_ ?_ ?_
    · exact deliver_requests
    · exact deliver_taken
    · dsimp only
      rw [deliver_numenor]
    · dsimp only
      rw [deliver_numenor]
      exact h.replyTo

lemma deliver_finish : ({ w.deliver cfg target e with semantic := none } : World) =
    World.deliver cfg target e { w with semantic := none } := by
  unfold World.deliver World.setBox
  dsimp only
  split_ifs
  · rfl
  · rfl

lemma Calm.semanticStep (h : Calm w) : Calm (w.semanticStep cfg data) := by
  unfold World.semanticStep
  cases hsemantic : w.semantic with
  | none =>
    cases hbox : w.boxes 2 with
    | nil => exact h
    | cons e rest => exact h.receive hsemantic hbox
  | some e =>
    dsimp only
    split_ifs
    · by_cases hsender : e.msg.sender = 1
      · rw [hsender]
        exact h.answer hsemantic hsender
      · have htag : e.tag = none := by
          refine h.tagged e (List.mem_append_right _ ?_) hsender
          rw [hsemantic]
          exact List.mem_singleton.mpr rfl
        rw [deliver_finish]
        have hsender' : (2 : Nat) ≠ 1 := by decide
        exact (h.finish hsemantic).deliver hsender' htag fun htarget => absurd htarget hsender
    · exact h.finish hsemantic

end Steps

lemma Calm.step {cfg : Config} {w : World} (h : Calm w) {a : Action} (ha : Quiet cfg w a) : Calm (w.step cfg a) := by
  cases a with
  | numenor o => exact h.numenorStep ha
  | semantic data => exact h.semanticStep
  | post sender target data =>
    unfold World.step
    dsimp only
    split_ifs with hsender
    · exact h
    · rw [not_or] at hsender
      exact h.deliver hsender.1 rfl fun htarget => ⟨hsender.2, ha htarget⟩

lemma calm_start : Calm World.start := ⟨nofun, nofun, Or.inl rfl, nofun, nofun, nofun, nofun⟩

/-- In every quiet run, what is used as an answer is the answer to the last request, and no message of a
client is used up. -/
theorem replies_matched (cfg : Config) {as : List Action}
    (hquiet : Guarded (World.step cfg) (Quiet cfg) World.start as) : Matched (run (World.step cfg) World.start as) := by
  have hcalm : Calm (run (World.step cfg) World.start as) :=
    run_invariant (P := Calm) (fun _ _ h ha => h.step ha) calm_start hquiet
  exact hcalm.matched

def sampleConfig : Config where
  present _ := true
  embPtr := 0x40000000
  resultPtr := 0x40001000
  ragPtr := 0x40002000
  storePtr := 0x40003000
  storeEmbPtr := 0x40004000
  outputPtr := 0x40005000
  errorPtr := 0x40006000

def sampleOracle : Oracle := ⟨[104, 105], true, none, [], 384⟩

def sampleRequest : Vector UInt8 32 := Httpd.aiMessage 2 0x40007000 2

instance Quiet.decidable (cfg : Config) (w : World) : ∀ a, Decidable (Quiet cfg w a)
  | .numenor o => inferInstanceAs (Decidable ((w.numenorStep cfg o).requests ≠ w.requests →
      (w.numenorStep cfg o).boxes 1 = []))
  | .semantic _ => instDecidableTrue
  | .post _ target _ => inferInstanceAs (Decidable (target = 1 → w.numenor.waiting = false))

def quietRun : List Action :=
  [.post 5 1 sampleRequest, .numenor sampleOracle, .semantic (payload []), .semantic (payload []),
    .numenor sampleOracle, .numenor sampleOracle]

theorem quietRun_matched : (run (World.step sampleConfig) World.start quietRun).taken.length = 1 ∧
    Matched (run (World.step sampleConfig) World.start quietRun) :=
  ⟨by decide, replies_matched sampleConfig (by decide)⟩

def busyRun : List Action :=
  [.post 5 1 sampleRequest, .numenor sampleOracle, .post 6 1 sampleRequest, .numenor sampleOracle]

theorem client_request_taken :
    (run (World.step sampleConfig) World.start busyRun).taken = [(0, ⟨⟨6, sampleRequest⟩, none⟩)] ∧
    (run (World.step sampleConfig) World.start busyRun).boxes 1 = [] ∧
    ¬Matched (run (World.step sampleConfig) World.start busyRun) := by
  have htaken : (run (World.step sampleConfig) World.start busyRun).taken = [(0, ⟨⟨6, sampleRequest⟩, none⟩)] := by
    decide
  refine ⟨htaken, by decide, ?_⟩
  intro h
  have hfirst := h (0, ⟨⟨6, sampleRequest⟩, none⟩) (by rw [htaken]; exact List.mem_singleton.mpr rfl)
  cases hfirst.1

end Aeglos.Services
