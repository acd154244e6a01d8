import Aeglos.Proofs.HttpdPanics
import Aeglos.Proofs.TokenStreams
import Aeglos.Services.SemanticService

/-!
# Requests that the semantic service does not understand

The kernel sends a pointer to the text of a key where the service expects a pointer to a hash.
-/

namespace Aeglos.Semantic

open Services Httpd List Option

def memRequest (myTid keyPtr : Nat) (key : Bytes) : Message :=
  ⟨myTid, payload (toLe 101 8 ++ toLe keyPtr 8 ++ toLe key.length 8)⟩

def memAnswer (msg : Message) : Option VfsFd :=
  if msg.word 0 = 101 then some (.inline ((msg.data.toList.drop 16).take (min (msg.word 1) 16)) 0 false) else none

lemma memOpen_eq (cpu : Cpu) (env : Env) (pathPtr : Nat) {path : Bytes} (hkey : Call.memKey path ≠ []) :
    Call.memOpen cpu env pathPtr path = (do
      let myTid := (← get).sched.currentTid cpu
      let keyPtr := wrap64 (pathPtr + (path.length - (Call.memKey path).length))
      let req := memRequest myTid keyPtr (Call.memKey path)
      if !(← Call.sched (.sendMessage 2 req) fun s => (s.sendMessage 2 req).1) then return none
      Call.memPoll cpu myTid env.polls) := by
  unfold Call.memOpen
  simp only [if_neg hkey]
  rfl

def awaitAnswer (rest : Call (Option VfsFd)) (arrived : Option Message) : Call (Option VfsFd) :=
  match arrived.bind memAnswer with
  | some fd => return some fd
  | none => rest

lemma memPoll_cons (cpu : Cpu) (myTid : Nat) (arrival : Option Message) (rest : List (Option Message)) :
    Call.memPoll cpu myTid (arrival :: rest) = (do
      Call.arrive myTid arrival
      awaitAnswer (Call.memPoll cpu myTid rest) (← Call.sched (.tryRecvMessage cpu) fun s => (s.tryRecvMessage cpu).1)) := by
  rw [Call.memPoll]
  refine bind_congr fun _ => bind_congr fun arrived => ?_
  cases arrived with
  | none => rfl
  | some msg =>
    simp only [awaitAnswer, bind_some, memAnswer]
    by_cases hop : msg.word 0 = 101
    · rw [if_pos hop, if_pos hop]
    · rw [if_neg hop, if_neg hop]

lemma fromLe_zeros (n : Nat) : fromLe (List.replicate n 0) = 0 := by
  induction n with
  | zero => rfl
  | succ n ih =>
    rw [replicate_succ, fromLe, ih]
    rfl

lemma take_drop_words {words : List Nat} {i : Nat} (h : i < words.length) (rest : Bytes) :
    ((words.flatMap (toLe · 8) ++ rest).drop (8 * i)).take 8 = toLe (words.getD i 0) 8 := by
  induction words generalizing i with
  | nil => exact absurd h (Nat.not_lt_zero i)
  | cons w words ih =>
    rw [flatMap_cons, append_assoc]
    cases i with
    | zero => exact take_left' (length_toLe w 8)
    | succ i =>
      rw [Nat.mul_succ, Nat.add_comm (8 * i), ← drop_drop, drop_left' (length_toLe w 8), getD_cons_succ]
      exact ih (Nat.lt_of_succ_lt_succ h)

lemma length_words (words : List Nat) : (words.flatMap (toLe · 8)).length = 8 * words.length := by
  induction words with
  | nil => rfl
  | cons w words ih =>
    rw [flatMap_cons, length_append, length_toLe, ih, length_cons]
    omega

lemma word_payload {words : List Nat} (hlength : words.length ≤ 4) (sender i : Nat) :
    Message.word ⟨sender, payload (words.flatMap (toLe · 8))⟩ i = words.getD i 0 % 2 ^ 64 := by
  have hbytes := length_words words
  rw [Message.word, toList_payload (by omega)]
  rcases Nat.lt_or_ge i words.length with hi | hi
  · rw [take_drop_words hi, fromLe_toLe]
    rfl
  · have hdrop : (words.flatMap (toLe · 8)).length ≤ 8 * i := by omega
    rw [drop_append, drop_eq_nil_of_le hdrop, nil_append, drop_replicate, take_replicate,
      fromLe_zeros, getD_eq_getElem?_getD, getElem?_eq_none hi]
    rfl

section Replies

variable {status : Nat}

lemma word_wordsReply (h : status ≤ 2) (sender count : Nat) :
    Message.word ⟨sender, wordsReply status count⟩ 0 = status :=
  word_zero_payload (by omega) sender (by rw [length_toLe]; omega)

lemma word_hashReply (h : status ≤ 2) (sender : Nat) (hash : Bytes) :
    Message.word ⟨sender, hashReply status hash⟩ 0 = status :=
  word_zero_payload (by omega) sender (length_take_le 24 hash)

variable (search : Store → Embedding → Nat → List (Bytes × Bytes)) (svc : Service)

def Handled.Status (h : Handled) : Prop := ∀ sender, Message.word ⟨sender, h.reply⟩ 0 ≤ 2

lemma status_words (h : status ≤ 2) (count : Nat) (written : List (Nat × Bytes)) (s : Store) :
    (Handled.mk (wordsReply status count) written s).Status := fun sender => (word_wordsReply h sender count).trans_le h

lemma status_hash (h : status ≤ 2) (hash : Bytes) (s : Store) :
    (Handled.mk (hashReply status hash) [] s).Status := fun sender => (word_hashReply h sender hash).trans_le h

lemma handleStore_status (msg : Message) : (handleStore svc msg).Status := by
  unfold handleStore
  split
  · split
    · exact status_words (by omega) _ _ _
    · exact status_words (by omega) _ _ _
  · exact status_words le_rfl _ _ _

lemma handleRetrieve_status {msg : Message} {h : Handled} (hhandled : handleRetrieve svc msg = some h) : h.Status := by
  unfold handleRetrieve at hhandled
  split at hhandled
  · cases hretrieve : svc.store.retrieve (svc.bytesAt (msg.word 1) 32) (msg.word 3) with
    | none =>
      rw [hretrieve] at hhandled
      cases hhandled
    | some result =>
      rw [hretrieve] at hhandled
      cases result with
      | ok blob =>
        rw [← some.inj hhandled]
        exact status_words (by omega) _ _ _
      | error e =>
        rw [← some.inj hhandled]
        exact status_words (by omega) _ _ _
  · rw [← some.inj hhandled]
    exact status_words le_rfl _ _ _

lemma storedReply_status (stored : Except String Bytes × Store) : (storedReply stored).Status := by
  obtain ⟨result, s⟩ := stored
  cases result with
  | ok hash => exact status_hash (by omega) hash s
  | error e => exact status_hash (by omega) _ s

lemma handleStoreMeta_status (msg : Message) : (handleStoreMeta svc msg).Status := by
  unfold handleStoreMeta
  split
  · exact storedReply_status _
  · exact status_hash le_rfl _ _

lemma handleStoreVec_status (msg : Message) : (handleStoreVec svc msg).Status := by
  unfold handleStoreVec
  split
  · exact storedReply_status _
  · exact status_hash le_rfl _ _

lemma handleSearch_status (find : Store → Bytes → List Bytes) (msg : Message) : (handleSearch find svc msg).Status := by
  unfold handleSearch
  split
  · exact status_words (by omega) _ _ _
  · exact status_words le_rfl _ _ _

lemma handleVectorSearch_status (msg : Message) : (handleVectorSearch search svc msg).Status := by
  unfold handleVectorSearch
  split
  · exact status_words (by omega) _ _ _
  · exact status_words le_rfl _ _ _

lemma handle_status {msg : Message} {h : Handled} (hhandled : handle search svc msg = some (some h)) : h.Status := by
  unfold handle at hhandled
  split at hhandled
  · cases hhandled
    exact handleStore_status svc msg
  · obtain ⟨h', hretrieve, hsome⟩ := map_eq_some_iff.mp hhandled
    cases hsome
    exact handleRetrieve_status svc hretrieve
  · cases hhandled
    exact handleStoreMeta_status svc msg
  · cases hhandled
    exact handleSearch_status svc searchByTag msg
  · cases hhandled
    exact handleSearch_status svc searchKeyword msg
  · cases hhandled
    exact handleVectorSearch_status search svc msg
  · cases hhandled
    exact handleStoreVec_status svc msg
  · cases hhandled

lemma memAnswer_eq_none {msg : Message} {h : Handled} (hhandled : handle search svc msg = some (some h)) (sender : Nat) :
    memAnswer ⟨sender, h.reply⟩ = none := by
  have hstatus := handle_status search svc hhandled sender
  exact if_neg (by omega)

end Replies

section Agreement

variable (search : Store → Embedding → Nat → List (Bytes × Bytes)) (svc : Service)

/-- The service takes the request of `mem_open` for what it is, and `mem_open` takes its reply for the
blob. -/
structure RetrieveAgrees (myTid keyPtr : Nat) (key : Bytes) : Prop where
  hash : validPtr ((memRequest myTid keyPtr key).word 1) 32 = true
  buffer : validPtr ((memRequest myTid keyPtr key).word 2) ((memRequest myTid keyPtr key).word 3) = true
  recognised : ∃ h, handle search svc (memRequest myTid keyPtr key) = some (some h) ∧ (memAnswer ⟨2, h.reply⟩).isSome
  reads : ∀ blob, blob.length ≤ 16 → svc.store.retrieve (svc.bytesAt keyPtr 32) 16 = some (.ok blob) →
    ∃ h, handle search svc (memRequest myTid keyPtr key) = some (some h) ∧
      memAnswer ⟨2, h.reply⟩ = some (.inline blob 0 false)

/-- The service takes the request of `page_mem` for a query for `q`, and `page_mem` makes a page of its
reply. -/
structure QueryAgrees (site : Site) (q : Bytes) : Prop where
  op : (queryRequest site q).word 0 = 104
  keyword : validPtr ((queryRequest site q).word 1) ((queryRequest site q).word 2) = true ∧
    svc.bytesAt ((queryRequest site q).word 1) ((queryRequest site q).word 2) = q
  buffer : validPtr ((queryRequest site q).word 3) 256 = true
  recognised : ∃ h, handle search svc (queryRequest site q) = some (some h) ∧ (memResult ⟨2, h.reply⟩).isSome

lemma word_memRequest (myTid keyPtr : Nat) (key : Bytes) (i : Nat) :
    (memRequest myTid keyPtr key).word i = [101, keyPtr, key.length].getD i 0 % 2 ^ 64 := by
  have hwords : memRequest myTid keyPtr key = ⟨myTid, payload ([101, keyPtr, key.length].flatMap (toLe · 8))⟩ := by
    simp only [memRequest, flatMap_cons, flatMap_nil, append_nil, append_assoc]
  have hlength : [101, keyPtr, key.length].length ≤ 4 := Nat.le_succ 3
  rw [hwords, word_payload hlength]

lemma validPtr_of_lt {ptr : Nat} (h : ptr < ramBase) (len : Nat) : validPtr ptr len = false := by
  have hkva : ¬ptr ≥ kvaOffset + ramBase := by omega
  simp only [validPtr, if_neg hkva, h, true_or, if_true]

lemma handle_memRequest (myTid keyPtr : Nat) {key : Bytes} (hkey : key.length < ramBase) :
    handle search svc (memRequest myTid keyPtr key) = some (some ⟨wordsReply 2 0, [], svc.store⟩) := by
  have hop : (memRequest myTid keyPtr key).word 0 = 101 := word_memRequest myTid keyPtr key 0
  have hlength : (memRequest myTid keyPtr key).word 2 = key.length := by
    rw [word_memRequest]
    exact Nat.mod_eq_of_lt (hkey.trans (by decide))
  have hbuffer := validPtr_of_lt hkey ((memRequest myTid keyPtr key).word 3)
  have hretrieve : handleRetrieve svc (memRequest myTid keyPtr key) = some ⟨wordsReply 2 0, [], svc.store⟩ := by
    rw [handleRetrieve, hlength, hbuffer, Bool.and_false]
    rfl
  unfold handle
  rw [hop]
  simp only [hretrieve, map_some]

lemma not_retrieveAgrees (myTid keyPtr : Nat) (key : Bytes) : ¬RetrieveAgrees search svc myTid keyPtr key := by
  intro hagrees
  obtain ⟨h, hhandled, hsome⟩ := hagrees.recognised
  rw [memAnswer_eq_none search svc hhandled 2] at hsome
  cases hsome

lemma not_queryAgrees (site : Site) (q : Bytes) : ¬QueryAgrees search svc site q := by
  intro hagrees
  obtain ⟨h, hhandled, hsome⟩ := hagrees.recognised
  rw [memResult_eq_none] at hsome
  cases hsome

/-- No request of the kernel and no reply of the service to it fit together: nothing that is stored
can be opened, and no query leads to a page. -/
theorem protocols_never_agree (site : Site) (myTid keyPtr : Nat) (key q : Bytes) :
    ¬RetrieveAgrees search svc myTid keyPtr key ∧ ¬QueryAgrees search svc site q :=
  ⟨not_retrieveAgrees search svc myTid keyPtr key, not_queryAgrees search svc site q⟩

def oneBlob : Service where
  store := ((Store.fresh fun _ => Sector.zero).init.storeFull [7] none none).2
  memory := fun ptr => (hashBuf [7]).getD (ptr - ramBase) 0

theorem stored_blob_not_opened :
    oneBlob.store.retrieve (oneBlob.bytesAt ramBase 32) 16 = some (.ok [7]) ∧
    handle (fun _ _ _ => []) oneBlob (memRequest 4 ramBase (hashBuf [7])) =
      some (some ⟨wordsReply 2 0, [], oneBlob.store⟩) ∧
    memAnswer ⟨2, wordsReply 2 0⟩ = none ∧
    ¬RetrieveAgrees (fun _ _ _ => []) oneBlob 4 ramBase (hashBuf [7]) := by
  have hkey : (hashBuf [7]).length < ramBase := by decide
  have hhandled := handle_memRequest (fun _ _ _ => []) oneBlob 4 ramBase hkey
  exact ⟨by decide +kernel, hhandled, memAnswer_eq_none _ oneBlob hhandled 2, not_retrieveAgrees _ oneBlob 4 ramBase _⟩

end Agreement

end Aeglos.Semantic
