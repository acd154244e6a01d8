import Aeglos.Kernel.Httpd

/-!
# The inference service and its mailbox

The main loop of `numenor/src/lib.rs` with the functions of `engine.rs`, next to the semantic
service and other tasks. Each `SYS_RECV` and `SYS_SEND` is a step.
-/

namespace Aeglos.Services

open Httpd

/-- A message in a mailbox. The tag numbers the requests of the inference service to the semantic
service and the answers to them; nothing reads it. -/
structure Envelope where
  msg : Message
  tag : Option Nat
deriving DecidableEq

structure Config where
  present : Nat → Bool
  embPtr : Nat
  resultPtr : Nat
  ragPtr : Nat
  storePtr : Nat
  storeEmbPtr : Nat
  outputPtr : Nat
  errorPtr : Nat

structure Job where
  replyTo : Nat
  streaming : Bool
  prompt : Bytes

/-- Where the inference service is: in the receive call of the main loop, in one of the three that
wait for an answer of the semantic service, or in a call of the model. -/
inductive Phase where
  | main
  | searching (job : Job)
  | retrieving (job : Job)
  | generating (job : Job)
  | storing (job : Job) (len : Nat)
  | stopped

def Phase.waiting : Phase → Bool
  | .searching _ => true
  | .retrieving _ => true
  | .storing _ _ => true
  | _ => false

/-- `semantic` is the message that the semantic service handles. `requests` counts the requests to it,
and `taken` are the messages that have been used as the answer to a request, with its number; nothing
reads these two. -/
structure World where
  boxes : Nat → List Envelope
  numenor : Phase
  semantic : Option Envelope
  requests : Nat
  taken : List (Nat × Envelope)

namespace World

def setBox (n : Nat) (box : List Envelope) (w : World) : World := { w with boxes := Function.update w.boxes n box }

def deliver (cfg : Config) (target : Nat) (e : Envelope) (w : World) : World :=
  if cfg.present target = true ∧ (w.boxes target).length < mailboxCapacity then
    w.setBox target (w.boxes target ++ [e])
  else w

def send (cfg : Config) (target : Nat) (data : Vector UInt8 32) (w : World) : World :=
  w.deliver cfg target ⟨⟨1, data⟩, none⟩

def ask (cfg : Config) (data : Vector UInt8 32) (next : Phase) (w : World) : World :=
  { w.deliver cfg 2 ⟨⟨1, data⟩, some w.requests⟩ with requests := w.requests + 1, numenor := next }

def goto (next : Phase) (w : World) : World := { w with numenor := next }

end World

def vectorSearchRequest (cfg : Config) : Vector UInt8 32 :=
  payload (toLe 105 8 ++ toLe cfg.embPtr 8 ++ toLe 0x3F000000 4 ++ toLe 0 4 ++ toLe cfg.resultPtr 8)

def retrieveRequest (cfg : Config) : Vector UInt8 32 :=
  payload (toLe 101 8 ++ toLe cfg.resultPtr 8 ++ toLe cfg.ragPtr 8 ++ toLe 256 8)

def storeRequest (cfg : Config) (embedded : Bool) (len : Nat) : Vector UInt8 32 :=
  if embedded then payload (toLe 106 8 ++ toLe cfg.storePtr 8 ++ toLe len 8 ++ toLe cfg.storeEmbPtr 8)
  else payload (toLe 100 8 ++ toLe cfg.storePtr 8 ++ toLe len 8)

def streamEnd : Vector UInt8 32 := payload (toLe opStreamEnd 8)

def tokenMessage (piece : Bytes) : Vector UInt8 32 :=
  payload (toLe opToken 8 ++ UInt8.ofNat (min piece.length 23) :: piece.take 23)

/-- What the model and the memory contribute to a step: the prompt that a request points to, whether
an embedding has been made, the next piece of a stream or its end, the output, and the dimension of
the embeddings. -/
structure Oracle where
  prompt : Bytes
  embedded : Bool
  piece : Option Bytes
  output : Bytes
  dim : Nat

namespace World

def beginJob (cfg : Config) (o : Oracle) (job : Job) (w : World) : World :=
  if strOrEmpty job.prompt ≠ [] ∧ o.embedded then w.ask cfg (vectorSearchRequest cfg) (.searching job)
  else w.goto (.generating job)

def dispatch (cfg : Config) (o : Oracle) (msg : Message) (w : World) : World :=
  if msg.word 0 = 2 then
    if msg.word 1 ≠ 0 ∧ msg.word 2 > 0 then w.beginJob cfg o ⟨msg.sender, false, o.prompt⟩
    else w.send cfg msg.sender (aiMessage 2 cfg.errorPtr 20)
  else if msg.word 0 = opInferStream then
    if msg.word 1 ≠ 0 ∧ msg.word 2 > 0 then w.beginJob cfg o ⟨msg.sender, true, o.prompt⟩
    else w.send cfg msg.sender streamEnd
  else if msg.word 0 = 30 then w.send cfg msg.sender (aiMessage 30 o.dim 0)
  else w

def take (e : Envelope) (rest : List Envelope) (w : World) : World :=
  { w.setBox 1 rest with taken := w.taken ++ [(w.requests - 1, e)] }

/-- The answer to the retrieve request; a length beyond the buffer is a slice out of range. -/
def afterRetrieve (job : Job) (msg : Message) (w : World) : World :=
  if msg.word 0 = 0 ∧ msg.word 1 > 256 then w.goto .stopped else w.goto (.generating job)

def generate (cfg : Config) (o : Oracle) (job : Job) (w : World) : World :=
  if job.streaming then
    match o.piece with
    | some piece => if piece = [] then w else w.send cfg job.replyTo (tokenMessage piece)
    | none => (w.send cfg job.replyTo streamEnd).goto .main
  else if o.output ≠ [] ∧ 3 + job.prompt.length + 4 + o.output.length ≤ 512 then
    w.ask cfg (storeRequest cfg o.embedded (3 + job.prompt.length + 4 + o.output.length))
      (.storing job o.output.length)
  else (w.send cfg job.replyTo (aiMessage 2 cfg.outputPtr o.output.length)).goto .main

def numenorStep (cfg : Config) (o : Oracle) (w : World) : World :=
  match w.numenor, w.boxes 1 with
  | .main, e :: rest => (w.setBox 1 rest).dispatch cfg o e.msg
  | .searching job, e :: rest =>
    if e.msg.word 0 ≠ 0 ∨ e.msg.word 1 = 0 then (w.take e rest).goto (.generating job)
    else (w.take e rest).ask cfg (retrieveRequest cfg) (.retrieving job)
  | .retrieving job, e :: rest => (w.take e rest).afterRetrieve job e.msg
  | .storing job len, e :: rest =>
    ((w.take e rest).send cfg job.replyTo (aiMessage 2 cfg.outputPtr len)).goto .main
  | .generating job, _ => w.generate cfg o job
  | _, _ => w

def semanticStep (cfg : Config) (data : Vector UInt8 32) (w : World) : World :=
  match w.semantic with
  | none =>
    match w.boxes 2 with
    | [] => w
    | e :: rest => { w.setBox 2 rest with semantic := some e }
  | some e =>
    if 100 ≤ e.msg.word 0 ∧ e.msg.word 0 ≤ 106 then
      { w.deliver cfg e.msg.sender ⟨⟨2, data⟩, e.tag⟩ with semantic := none }
    else { w with semantic := none }

end World

inductive Action where
  | numenor (o : Oracle)
  | semantic (data : Vector UInt8 32)
  | post (sender target : Nat) (data : Vector UInt8 32)

def World.step (cfg : Config) (w : World) : Action → World
  | .numenor o => w.numenorStep cfg o
  | .semantic data => w.semanticStep cfg data
  | .post sender target data =>
    if sender = 1 ∨ sender = 2 then w else w.deliver cfg target ⟨⟨sender, data⟩, none⟩

def World.start : World := ⟨fun _ => [], .main, none, 0, []⟩

structure Context where
  bytes : Bytes
  fits : bytes.length ≤ 256

def combinedSize : Nat := 2048

def bufAppend (buf src : Bytes) : Bytes := buf ++ src.take (combinedSize - buf.length)

def skipPattern : Bytes → Bytes
  | [] => []
  | [_] => []
  | a :: b :: rest => if a = 93 ∧ b = 93 then rest else skipPattern (b :: rest)

lemma length_skipPattern (rag : Bytes) : (skipPattern rag).length ≤ rag.length := by
  fun_induction skipPattern rag <;> simp only [List.length_cons, List.length_nil] at * <;> omega

def stripContext (buf rag : Bytes) : Bytes :=
  match rag with
  | [] => buf
  | a :: rest =>
    if buf.length < combinedSize - 1 then
      if a = 91 ∧ rest.head? = some 91 then stripContext buf (skipPattern rest.tail)
      else stripContext (buf ++ [a]) rest
    else buf
termination_by rag.length
decreasing_by
  · have := length_skipPattern rest.tail
    simp only [List.length_tail, List.length_cons] at *
    omega
  · exact Nat.lt_succ_self _

def contextOpen : Bytes := ascii "[Context: "

def inferContext (rag : Bytes) : Bytes := bufAppend (stripContext (bufAppend [] contextOpen) rag) (ascii "]\n")

def inferStreamingContext (rag : Bytes) : Bytes := bufAppend (bufAppend (bufAppend [] contextOpen) rag) (ascii "]\n")

def beforePrompt (copied : Bytes → Bytes) (prompt : Bytes) (rag : Context) : Bytes :=
  if strOrEmpty prompt ≠ [] ∧ rag.bytes ≠ [] then copied rag.bytes else []

def combinedInput (copied : Bytes → Bytes) (prompt : Bytes) (rag : Context) : Bytes :=
  bufAppend (beforePrompt copied prompt rag) prompt

def forwarded (msg : Message) : Option (Bytes × Bool) :=
  if msg.sender ≠ numenorTid then none
  else if msg.word 0 = opToken then some ((msg.data.toList.drop 9).take (tokenLen msg), false)
  else if msg.word 0 = opStreamEnd then some (doneMarker, true)
  else none

structure Hall where
  world : World
  forwarding : Bool
  frames : List Bytes

/-- In a session: a prompt arrives, the forwarding loop takes a turn, its deadline passes. On another
connection: a page sends a request to one of the services, or takes a message from the mailbox. -/
inductive HallAction where
  | world (a : Action)
  | prompt (ptr len : Nat)
  | forward
  | expire
  | infer (ptr len : Nat)
  | query (data : Vector UInt8 32)
  | drain

def Action.sentBy (tid : Nat) : Action → Prop
  | .post sender _ _ => sender = tid
  | _ => False

instance Action.decidableSentBy (tid : Nat) : ∀ a, Decidable (Action.sentBy tid a)
  | .numenor _ => instDecidableFalse
  | .semantic _ => instDecidableFalse
  | .post sender _ _ => inferInstanceAs (Decidable (sender = tid))

namespace Hall

def forward (tid : Nat) (h : Hall) : Hall :=
  match h.world.boxes tid with
  | [] => h
  | e :: rest =>
    match forwarded e.msg with
    | none => { h with world := h.world.setBox tid rest }
    | some (text, ended) => ⟨h.world.setBox tid rest, !ended, h.frames ++ [text]⟩

def drain (tid : Nat) (h : Hall) : Hall := { h with world := h.world.setBox tid (h.world.boxes tid).tail }

def step (cfg : Config) (tid : Nat) (h : Hall) : HallAction → Hall
  | .world a => if a.sentBy tid then h else { h with world := h.world.step cfg a }
  | .prompt ptr len =>
    if h.forwarding then h
    else { h with world := h.world.deliver cfg numenorTid ⟨streamRequest ptr len, none⟩, forwarding := true }
  | .forward => if h.forwarding then h.forward tid else h
  | .expire => { h with forwarding := false }
  | .infer ptr len =>
    if h.forwarding then h
    else { h with world := h.world.deliver cfg numenorTid ⟨⟨tid, aiMessage 2 ptr len⟩, none⟩ }
  | .query data => if h.forwarding then h else { h with world := h.world.deliver cfg 2 ⟨⟨tid, data⟩, none⟩ }
  | .drain => if h.forwarding then h else h.drain tid

def start : Hall := ⟨World.start, false, []⟩

end Hall

end Aeglos.Services
