import Aeglos.Services.Numenor

/-!
# Tool calls in retrieved text

`infer` takes the patterns `[[...]]` out of the context, `infer_streaming` copies it as it is.
-/

namespace Aeglos.Services

open List

def HasCall (text : Bytes) : Prop := ascii "[[" <:+: text

abbrev Apart (a b : UInt8) : Prop := ¬(a = 91 ∧ b = 91)

lemma not_hasCall_iff {text : Bytes} : ¬HasCall text ↔ text.IsChain Apart := by
  rw [isChain_iff_forall_rel_of_append_cons_cons]
  constructor
  · rintro h a b l₁ l₂ rfl ⟨rfl, rfl⟩
    exact h ⟨l₁, l₂, by simp [ascii]⟩
  · rintro h ⟨l₁, l₂, rfl⟩
    exact @h 91 91 l₁ l₂ (by simp [ascii]) ⟨rfl, rfl⟩

lemma stripContext_apart {buf rag : Bytes} (hbuf : buf.IsChain Apart)
    (hnext : ∀ a ∈ buf.getLast?, ∀ b ∈ rag.head?, Apart a b) : (stripContext buf rag).IsChain Apart := by
  fun_induction stripContext buf rag with
  | case1 => exact hbuf
  | case2 buf a rest hroom hcall ih =>
    refine ih hbuf fun c hc _ _ hboth => ?_
    exact hnext c hc a rfl ⟨hboth.1, hcall.1⟩
  | case3 buf a rest hroom hcall ih =>
    refine ih ?_ fun c hc b hb hboth => ?_
    · rw [isChain_append]
      exact ⟨hbuf, isChain_singleton a, fun c hc b hb => hnext c hc b hb⟩
    · obtain rfl : a = c := by simpa using hc
      rw [hboth.2] at hb
      exact hcall ⟨hboth.1, hb⟩
  | case4 => exact hbuf

lemma isChain_closing {buf : Bytes} (n : Nat) : (buf ++ (ascii "]\n").take n).IsChain Apart ↔ buf.IsChain Apart := by
  rw [isChain_append]
  refine ⟨And.left, fun hbuf => ⟨hbuf, List.IsChain.take (by decide) n, fun a _ b hb hboth => ?_⟩⟩
  have hplain : ∀ b ∈ ascii "]\n", b ≠ 91 := by decide +kernel
  exact hplain b (mem_of_mem_take (mem_of_mem_head? hb)) hboth.2

lemma inferContext_apart (rag : Bytes) : (inferContext rag).IsChain Apart := by
  have hopen : ∀ a ∈ (bufAppend [] contextOpen).getLast?, a ≠ 91 := by decide +kernel
  exact (isChain_closing _).mpr (stripContext_apart (by decide) fun a ha _ _ hboth => hopen a ha hboth.1)

lemma drop_inferStreamingContext {rag : Bytes} (hfits : rag.length ≤ 256) :
    (inferStreamingContext rag).drop contextOpen.length = rag ++ (ascii "]\n").take 2 := by
  have hopen : bufAppend [] contextOpen = contextOpen := rfl
  have hlen : contextOpen.length = 10 := rfl
  have hrag : bufAppend contextOpen rag = contextOpen ++ rag := by
    rw [bufAppend, take_of_length_le]
    rw [hlen, combinedSize]
    omega
  have hclosing : (ascii "]\n").length = 2 := rfl
  rw [inferStreamingContext, hopen, hrag, bufAppend, append_assoc, drop_left, take_of_length_le, take_of_length_le]
  · rw [hclosing]
  · rw [hclosing, length_append, hlen, combinedSize]
    omega

def contextPart (copied : Bytes → Bytes) (prompt : Bytes) (rag : Context) : Bytes :=
  (beforePrompt copied prompt rag).drop contextOpen.length

lemma not_hasCall_nil : ¬HasCall [] := not_hasCall_iff.mpr .nil

/-- With `infer` the context holds no tool call, with `infer_streaming` exactly those that were retrieved. -/
theorem context_free_of_calls_iff (prompt : Bytes) (rag : Context) :
    ¬HasCall (contextPart inferContext prompt rag) ∧
    (¬HasCall (contextPart inferStreamingContext prompt rag) ↔ strOrEmpty prompt = [] ∨ ¬HasCall rag.bytes) := by
  unfold contextPart beforePrompt
  by_cases hused : strOrEmpty prompt ≠ [] ∧ rag.bytes ≠ []
  · rw [if_pos hused, if_pos hused, drop_inferStreamingContext rag.fits, not_hasCall_iff, not_hasCall_iff,
      isChain_closing, or_iff_right hused.1, not_hasCall_iff]
    exact ⟨(inferContext_apart rag.bytes).drop _, Iff.rfl⟩
  · rw [if_neg hused, if_neg hused, drop_nil]
    refine ⟨not_hasCall_nil, iff_of_true not_hasCall_nil ?_⟩
    by_cases hprompt : strOrEmpty prompt = []
    · exact Or.inl hprompt
    · have hempty : rag.bytes = [] := not_not.mp fun hne => hused ⟨hprompt, hne⟩
      rw [hempty]
      exact Or.inr not_hasCall_nil

theorem streaming_context_call : HasCall (contextPart inferStreamingContext (ascii "hi") ⟨ascii "[[x]]", by decide⟩) :=
  ⟨[], ascii "x]]]\n", by decide⟩

end Aeglos.Services
