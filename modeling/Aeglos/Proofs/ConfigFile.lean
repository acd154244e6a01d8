import Mathlib.Data.List.TakeWhile
import Aeglos.Library.Runs
import Aeglos.Kernel.Vfs

/-!
# The configuration file

Which configuration tables survive being written to `/config` and parsed again.
-/

namespace Aeglos.Proofs

open Config TransitionSystem List Option

variable {table acc : List ConfigEntry} {line : Bytes} {e x : ConfigEntry}

abbrev Str := { b : Bytes // utf8Valid b = true }

inductive ConfigOp where
  | set (key val : Str)
  | remove (key : Str)

def configStep (table : List ConfigEntry) : ConfigOp → List ConfigEntry
  | .set key val => (configSet table key val).getD table
  | .remove key => (configRemove table key).getD table

structure ConfigTable (table : List ConfigEntry) : Prop where
  room : table.length ≤ configMaxEntries
  key : ∀ e ∈ table, utf8Valid e.key = true ∧ e.key.length ≤ keyMax
  val : ∀ e ∈ table, utf8Valid e.val = true ∧ e.val.length ≤ valMax
  distinct : (table.map ConfigEntry.key).Nodup

lemma strOrEmpty_valid {b : Bytes} (h : utf8Valid b = true) : strOrEmpty b = b := if_pos h

lemma ConfigTable.nil : ConfigTable [] := ⟨by decide, by simp, by simp, by simp⟩

lemma ConfigTable.not_found (h : ConfigTable table) {key : Bytes}
    (hi : table.findIdx? (fun e => strOrEmpty e.key = key) = none) : key ∉ table.map ConfigEntry.key := by
  rw [List.findIdx?_eq_none_iff] at hi
  intro hmem
  obtain ⟨e, he, rfl⟩ := mem_map.mp hmem
  have := hi e he
  simp [strOrEmpty_valid (h.key e he).1] at this

lemma mem_modify {α : Type} {l : List α} {i : Nat} {f : α → α} {x : α} (h : x ∈ l.modify i f) :
    ∃ y ∈ l, x = y ∨ x = f y := by
  obtain ⟨n, hn, rfl⟩ := getElem_of_mem h
  rw [length_modify] at hn
  refine ⟨l[n], getElem_mem hn, ?_⟩
  rw [getElem_modify]
  split_ifs <;> simp

lemma ConfigTable.set (h : ConfigTable table) (key val : Str) :
    ConfigTable ((configSet table key val).getD table) := by
  unfold configSet
  by_cases hlong : key.val.length > keyMax ∨ val.val.length > valMax
  · rw [if_pos hlong]
    exact h
  rw [if_neg hlong]
  simp only [not_or, not_lt] at hlong
  cases hi : table.findIdx? fun e => decide (strOrEmpty e.key = key.val) with
  | some i =>
    have hkeys : (table.modify i fun e => { e with val := val }).map ConfigEntry.key =
        table.map ConfigEntry.key := by
      refine ext_getElem (by simp) fun n h₁ h₂ => ?_
      rw [getElem_map, getElem_map, getElem_modify]
      split_ifs <;> rfl
    constructor
    case room => simpa using h.room
    case key =>
      intro e he
      obtain ⟨e', he', rfl | rfl⟩ := mem_modify he
      · exact h.key e he'
      · exact h.key e' he'
    case val =>
      intro e he
      obtain ⟨e', he', rfl | rfl⟩ := mem_modify he
      · exact h.val e he'
      · exact ⟨val.property, hlong.2⟩
    case distinct =>
      rw [getD_some, hkeys]
      exact h.distinct
  | none =>
    dsimp only
    by_cases hfull : table.length ≥ configMaxEntries
    · rw [if_pos hfull]
      exact h
    rw [if_neg hfull, getD_some]
    constructor
    case room =>
      rw [length_append, length_singleton]
      omega
    case key =>
      simp only [forall_mem_append, forall_mem_singleton]
      exact ⟨h.key, key.property, hlong.1⟩
    case val =>
      simp only [forall_mem_append, forall_mem_singleton]
      exact ⟨h.val, val.property, hlong.2⟩
    case distinct =>
      rw [map_append, map_singleton, nodup_append]
      refine ⟨h.distinct, nodup_singleton _, ?_⟩
      rintro a ha b hb rfl
      rw [mem_singleton.mp hb] at ha
      exact h.not_found hi ha

lemma ConfigTable.sublist {table table' : List ConfigEntry} (h : ConfigTable table)
    (hsub : table'.Sublist table) : ConfigTable table' where
  room := hsub.length_le.trans h.room
  key e he := h.key e (hsub.subset he)
  val e he := h.val e (hsub.subset he)
  distinct := (hsub.map _).nodup h.distinct

lemma ConfigTable.remove (h : ConfigTable table) (key : Str) :
    ConfigTable ((configRemove table key).getD table) := by
  unfold configRemove
  cases table.findIdx? fun e => decide (strOrEmpty e.key = key.val) with
  | none => exact h
  | some i => exact h.sublist (eraseIdx_sublist _ i)

theorem configRun_inv (ops : List ConfigOp) : ConfigTable (run configStep [] ops) := by
  refine run_preserves (fun table op h => ?_) ConfigTable.nil ops
  cases op with
  | set key val => exact h.set key val
  | remove key => exact h.remove key

lemma configGet_mem (h : ConfigTable table) (he : e ∈ table) : configGet table e.key = some e.val := by
  unfold configGet
  cases hf : table.find? fun x => decide (strOrEmpty x.key = e.key) with
  | none =>
    have hnone := find?_eq_none.mp hf e he
    simp [strOrEmpty_valid (h.key e he).1] at hnone
  | some x =>
    have hx := mem_of_find?_eq_some hf
    have hkey := find?_some hf
    rw [decide_eq_true_eq, strOrEmpty_valid (h.key x hx).1] at hkey
    obtain rfl := inj_on_of_nodup_map h.distinct hx he hkey
    rw [map_some, strOrEmpty_valid (h.val x he).1]

def entryLine (e : ConfigEntry) : Bytes := e.key ++ 61 :: e.val

def stripCr (v : Bytes) : Bytes := if v.getLast? = some 13 then v.dropLast else v

lemma stripCr_initial (v : Bytes) : stripCr v <+: v := by
  unfold stripCr
  split_ifs
  · exact dropLast_prefix v
  · exact prefix_rfl

/-- The entry has a key, and the parser finds its end and the end of its line. -/
structure Delimited (e : ConfigEntry) : Prop where
  nonempty : e.key ≠ []
  key_eq : (61 : UInt8) ∉ e.key
  key_nl : (10 : UInt8) ∉ e.key
  val_nl : (10 : UInt8) ∉ e.val

lemma nextLine_append (h : (10 : UInt8) ∉ line) (rest : Bytes) : nextLine (line ++ 10 :: rest) = (line, rest) := by
  have hall : ∀ b ∈ line, decide (b ≠ (10 : UInt8)) = true := fun b hb => by
    rw [decide_eq_true_eq]
    rintro rfl
    exact h hb
  rw [nextLine, takeWhile_append_of_pos hall, dropWhile_append_of_pos hall]
  simp

lemma nextLine_last (h : (10 : UInt8) ∉ line) : nextLine line = (line, []) := by
  have hall : ∀ b ∈ line, decide (b ≠ (10 : UInt8)) = true := fun b hb => by
    rw [decide_eq_true_eq]
    rintro rfl
    exact h hb
  rw [nextLine, takeWhile_eq_self_iff.mpr hall, dropWhile_eq_nil_iff.mpr hall]
  rfl

lemma parseLine_eq (line : Bytes) : parseLine line = match (stripCr line).findIdx? (· == 61) with
    | none => none
    | some eq => some ⟨((stripCr line).take eq).take keyMax, ((stripCr line).drop (eq + 1)).take valMax⟩ :=
  rfl

lemma stripCr_append (l : Bytes) (v : Bytes) : stripCr (l ++ 61 :: v) = l ++ 61 :: stripCr v := by
  by_cases hv : v = []
  · subst hv
    simp [stripCr]
  · have hsplit : l ++ 61 :: v = (l ++ [61]) ++ v := by simp
    unfold stripCr
    rw [hsplit, List.getLast?_append_of_ne_nil _ hv, dropLast_append_of_ne_nil hv]
    split_ifs <;> simp

lemma parseLine_of_key {key : Bytes} (h : (61 : UInt8) ∉ key) (v : Bytes) :
    parseLine (key ++ 61 :: v) = some ⟨key.take keyMax, (stripCr v).take valMax⟩ := by
  have hfind : (key ++ 61 :: stripCr v).findIdx? (· == 61) = some key.length := by
    rw [List.findIdx?_append, List.findIdx?_eq_none_iff.mpr]
    · simp [List.findIdx?_cons]
    · intro b hb
      rw [beq_eq_false_iff_ne]
      rintro rfl
      exact h hb
  rw [parseLine_eq, stripCr_append, hfind]
  simp

lemma parseLine_no_eq (h : (61 : UInt8) ∉ line) : parseLine line = none := by
  have hnone : (stripCr line).findIdx? (· == 61) = none := by
    rw [List.findIdx?_eq_none_iff]
    intro b hb
    rw [beq_eq_false_iff_ne]
    rintro rfl
    exact h ((stripCr_initial line).subset hb)
  rw [parseLine_eq, hnone]

lemma parseLine_take (h : Delimited e) (hkey : e.key.length ≤ keyMax) (n : Nat) :
    parseLine ((entryLine e).take n) = if n ≤ e.key.length then none
      else some ⟨e.key, (stripCr (e.val.take (n - e.key.length - 1))).take valMax⟩ := by
  unfold entryLine
  split_ifs with hn
  · rw [take_append_of_le_length hn]
    exact parseLine_no_eq fun hmem => h.key_eq (mem_of_mem_take hmem)
  · obtain ⟨m, rfl⟩ : ∃ m, n = e.key.length + (m + 1) := ⟨n - e.key.length - 1, by omega⟩
    rw [take_length_add_append, take_succ_cons, parseLine_of_key h.key_eq, take_of_length_le hkey]
    congr 5
    omega

def fileOf (table : List ConfigEntry) : Bytes := table.flatMap fun e => entryLine e ++ [10]

def survivors : Nat → List ConfigEntry → List ConfigEntry
  | _, [] => []
  | n, e :: table =>
    if n ≤ (entryLine e).length then (parseLine ((entryLine e).take n)).toList
    else ⟨e.key, (stripCr e.val).take valMax⟩ :: survivors (n - (entryLine e).length - 1) table

lemma entryLine_nl (h : Delimited e) : (10 : UInt8) ∉ entryLine e := by
  simp only [entryLine, mem_append, mem_cons, not_or]
  exact ⟨h.key_nl, by decide, h.val_nl⟩

lemma entryLine_ne_nil (e : ConfigEntry) : entryLine e ≠ [] := by simp [entryLine]

@[simp] lemma parseLoop_nil (fuel : Nat) (acc : List ConfigEntry) : parseLoop fuel [] acc = acc := by
  cases fuel <;> simp [parseLoop]

lemma parseLoop_line {data line rest : Bytes} {fuel : Nat} (hdata : data ≠ [])
    (hroom : acc.length < configMaxEntries) (hline : nextLine data = (line, rest)) :
    parseLoop (fuel + 1) data acc = parseLoop fuel rest (acc ++ (parseLine line).toList) := by
  rw [parseLoop, if_neg (by simp [hdata, hroom]), hline]
  dsimp only
  cases parseLine line <;> simp

lemma parseLoop_file (hclean : ∀ e ∈ table, Delimited e)
    (hkey : ∀ e ∈ table, e.key.length ≤ keyMax) {n fuel : Nat}
    (hfuel : ((fileOf table).take n).length ≤ fuel) (hroom : acc.length + table.length ≤ configMaxEntries) :
    parseLoop fuel ((fileOf table).take n) acc = acc ++ survivors n table := by
  induction table generalizing n fuel acc with
  | nil =>
    cases fuel <;> simp [parseLoop, fileOf, survivors]
  | cons e table ih =>
    obtain ⟨he, hclean⟩ := forall_mem_cons.mp hclean
    obtain ⟨hke, hkey⟩ := forall_mem_cons.mp hkey
    have hsplit : fileOf (e :: table) = entryLine e ++ 10 :: fileOf table := by simp [fileOf]
    rw [length_cons] at hroom
    rw [hsplit] at hfuel ⊢
    by_cases hzero : n = 0
    · subst hzero
      have hnone := parseLine_take he hke 0
      rw [if_pos (Nat.zero_le _), take_zero] at hnone
      simp [survivors, hnone]
    obtain ⟨fuel, rfl⟩ : ∃ f, fuel = f + 1 := by
      refine Nat.exists_eq_succ_of_ne_zero fun hf => hzero ?_
      rw [hf, Nat.le_zero, length_take, length_append, length_cons] at hfuel
      omega
    rw [survivors]
    split_ifs with hn
    · -- the file ends inside of this line
      rw [take_append_of_le_length hn] at hfuel ⊢
      have hdata : (entryLine e).take n ≠ [] := by
        rw [ne_eq, take_eq_nil_iff]
        exact not_or.mpr ⟨hzero, entryLine_ne_nil e⟩
      have hline := nextLine_last fun hmem => entryLine_nl he (mem_of_mem_take (i := n) hmem)
      rw [parseLoop_line hdata (by omega) hline, parseLoop_nil]
    · obtain ⟨m, rfl⟩ : ∃ m, n = (entryLine e).length + (m + 1) :=
        ⟨n - (entryLine e).length - 1, by omega⟩
      have htake : (entryLine e ++ 10 :: fileOf table).take ((entryLine e).length + (m + 1)) =
          entryLine e ++ 10 :: (fileOf table).take m := by
        rw [take_length_add_append, take_succ_cons]
      have hparse : parseLine (entryLine e) = some ⟨e.key, (stripCr e.val).take valMax⟩ := by
        rw [entryLine, parseLine_of_key he.key_eq, take_of_length_le hke]
      have hrest : (entryLine e).length + (m + 1) - (entryLine e).length - 1 = m := by omega
      rw [htake, length_append, length_cons] at hfuel
      rw [htake, parseLoop_line (by simp) (by omega) (nextLine_append (entryLine_nl he) _), hparse, hrest,
        ih hclean hkey (by omega) (by simp; omega)]
      simp

def written (table : List ConfigEntry) : List ConfigEntry := table.filter fun e => e.key ≠ []

lemma parse_serialise (hinv : ConfigTable table)
    (hclean : ∀ e ∈ written table, Delimited e) :
    parseConfig (serialise 4096 table) = survivors 4096 (written table) := by
  have hfile : serialise 4096 table = (fileOf (written table)).take 4096 := by
    simp [serialise, fileOf, entryLine, written]
  have hinv' := hinv.sublist (filter_sublist (p := fun e => decide (e.key ≠ [])))
  rw [parseConfig, hfile, parseLoop_file hclean (fun e he => (hinv'.key e he).2) le_rfl]
  · simp
  · rw [length_nil, Nat.zero_add]
    exact hinv'.room

def fileLength (table : List ConfigEntry) : Nat := (table.map fun e => e.key.length + e.val.length + 2).sum

lemma mem_survivors (hclean : ∀ e ∈ table, Delimited e)
    (hkey : ∀ e ∈ table, e.key.length ≤ keyMax) {n : Nat} (hx : x ∈ survivors n table) :
    ∃ e ∈ table, x.key = e.key ∧ x.val <+: e.val := by
  induction table generalizing n with
  | nil => simp [survivors] at hx
  | cons e table ih =>
    obtain ⟨he, hclean⟩ := forall_mem_cons.mp hclean
    obtain ⟨hke, hkey⟩ := forall_mem_cons.mp hkey
    rw [survivors] at hx
    split_ifs at hx with hn
    · rw [parseLine_take he hke] at hx
      split_ifs at hx with hcut
      · simp at hx
      · rw [toList_some, mem_singleton] at hx
        subst hx
        refine ⟨e, mem_cons_self, rfl, (List.take_prefix _ _).trans ?_⟩
        exact (stripCr_initial _).trans (List.take_prefix _ _)
    · rcases mem_cons.mp hx with rfl | hx
      · exact ⟨e, mem_cons_self, rfl, (List.take_prefix _ _).trans (stripCr_initial _)⟩
      · obtain ⟨e', he', hrest⟩ := ih hclean hkey hx
        exact ⟨e', mem_cons_of_mem e he', hrest⟩

lemma stripCr_eq_self {v : Bytes} : stripCr v = v ↔ v.getLast? ≠ some 13 := by
  unfold stripCr
  split_ifs with h
  · simp only [h, ne_eq, not_true_eq_false, iff_false]
    intro heq
    have hlen := congrArg List.length heq
    rw [length_dropLast] at hlen
    have : v ≠ [] := fun hv => by simp [hv] at h
    have := length_pos_iff.mpr this
    omega
  · simp [h]

lemma survivors_eq_self (hinv : ConfigTable table)
    (hclean : ∀ e ∈ table, Delimited e) (hcr : ∀ e ∈ table, e.val.getLast? ≠ some 13) {n : Nat}
    (hn : fileLength table ≤ n + 1) : survivors n table = table := by
  induction table generalizing n with
  | nil => rfl
  | cons e table ih =>
    have hke := (hinv.key e mem_cons_self).2
    have hve := (hinv.val e mem_cons_self).2
    have hself : stripCr e.val = e.val := stripCr_eq_self.mpr (hcr e mem_cons_self)
    have hline : (entryLine e).length = e.key.length + e.val.length + 1 := by simp [entryLine]; omega
    have hlen : fileLength (e :: table) = e.key.length + e.val.length + 2 + fileLength table := by
      simp [fileLength]
    rw [survivors]
    split_ifs with hcut
    · have hempty : table = [] := by
        cases table with
        | nil => rfl
        | cons e' table =>
          have : 2 ≤ fileLength (e' :: table) := by simp [fileLength]; omega
          omega
      subst hempty
      rw [parseLine_take (hclean e mem_cons_self) hke, if_neg (by omega), toList_some,
        take_of_length_le (by omega : e.val.length ≤ n - e.key.length - 1), hself,
        take_of_length_le hve]
    · rw [ih (hinv.sublist (sublist_cons_self e table)) (fun e' he' => hclean e' (mem_cons_of_mem e he'))
        (fun e' he' => hcr e' (mem_cons_of_mem e he')) (by omega), hself, take_of_length_le hve]

lemma storable_of_survivors (hinv : ConfigTable table)
    (hclean : ∀ e ∈ table, Delimited e) {n : Nat}
    (hall : ∀ e ∈ table, ∃ x ∈ survivors n table, x.key = e.key ∧ x.val = e.val) :
    (∀ e ∈ table, e.val.getLast? ≠ some 13) ∧ fileLength table ≤ n + 1 := by
  induction table generalizing n with
  | nil => simp [fileLength]
  | cons e table ih =>
    obtain ⟨he, hclean'⟩ := forall_mem_cons.mp hclean
    have hke := (hinv.key e mem_cons_self).2
    have hinv' := hinv.sublist (sublist_cons_self e table)
    have hline : (entryLine e).length = e.key.length + e.val.length + 1 := by simp [entryLine]; omega
    have hlen : fileLength (e :: table) = e.key.length + e.val.length + 2 + fileLength table := by
      simp [fileLength]
    have hother : ∀ e' ∈ table, e'.key ≠ e.key := by
      intro e' he' heq
      have hnodup := hinv.distinct
      rw [map_cons, nodup_cons] at hnodup
      exact hnodup.1 (heq ▸ mem_map_of_mem he')
    have hkeep : ∀ w : Bytes, w <+: e.val → (stripCr w).take valMax = e.val → w = e.val ∧ e.val.getLast? ≠ some 13 := by
      intro w hw heq
      have hprefix := (List.take_prefix valMax (stripCr w)).trans (stripCr_initial w)
      rw [heq] at hprefix
      obtain rfl := hprefix.eq_of_length (le_antisymm hprefix.length_le hw.length_le)
      refine ⟨rfl, stripCr_eq_self.mp ?_⟩
      refine (stripCr_initial e.val).eq_of_length (le_antisymm (stripCr_initial e.val).length_le ?_)
      calc e.val.length = ((stripCr e.val).take valMax).length := by rw [heq]
        _ ≤ (stripCr e.val).length := length_take_le' _ _
    by_cases hcut : n ≤ (entryLine e).length
    · simp only [survivors, if_pos hcut, parseLine_take he hke] at hall
      obtain ⟨x, hx, -, hxval⟩ := hall e mem_cons_self
      split_ifs at hall hx with hkeycut
      · simp at hx
      · rw [toList_some, mem_singleton] at hx
        subst hx
        obtain ⟨htake, hcr⟩ := hkeep _ (List.take_prefix _ _) hxval
        have hempty : table = [] := by
          refine eq_nil_iff_forall_not_mem.mpr fun e' he' => ?_
          obtain ⟨x, hx, hxkey, -⟩ := hall e' (mem_cons_of_mem e he')
          rw [toList_some, mem_singleton] at hx
          subst hx
          exact hother e' he' hxkey.symm
        subst hempty
        have hfull := congrArg List.length htake
        rw [length_take] at hfull
        refine ⟨by simpa using hcr, ?_⟩
        have hnil : fileLength [] = 0 := rfl
        omega
    · simp only [survivors, if_neg hcut] at hall
      have htail : ∀ x ∈ survivors (n - (entryLine e).length - 1) table, x.key ≠ e.key := by
        intro x hx heq
        obtain ⟨e', he', hkey, -⟩ := mem_survivors hclean' (fun e' he' => (hinv'.key e' he').2) hx
        exact hother e' he' (hkey.symm.trans heq)
      obtain ⟨x, hx, hxkey, hxval⟩ := hall e mem_cons_self
      rcases mem_cons.mp hx with rfl | hx
      · obtain ⟨hcr, hrest⟩ := ih hinv' hclean' fun e' he' => by
          obtain ⟨y, hy, hykey, hyval⟩ := hall e' (mem_cons_of_mem e he')
          rcases mem_cons.mp hy with rfl | hy
          · exact absurd hykey.symm (hother e' he')
          · exact ⟨y, hy, hykey, hyval⟩
        refine ⟨forall_mem_cons.mpr ⟨(hkeep e.val prefix_rfl hxval).2, hcr⟩, ?_⟩
        omega
      · exact absurd hxkey (htail x hx)

lemma parseLine_clean (h : parseLine line = some x)
    (hnl : (10 : UInt8) ∉ line) : (61 : UInt8) ∉ x.key ∧ (10 : UInt8) ∉ x.key ∧ (10 : UInt8) ∉ x.val := by
  rw [parseLine_eq] at h
  cases hf : (stripCr line).findIdx? (· == 61) with
  | none => simp [hf] at h
  | some i =>
    rw [hf] at h
    obtain rfl := some.inj h
    have hsub := (stripCr_initial line).subset
    refine ⟨fun hmem => ?_, fun hmem => ?_, fun hmem => ?_⟩
    · obtain ⟨hlt, -, hbefore⟩ := List.findIdx?_eq_some_iff_getElem.mp hf
      obtain ⟨j, hj, heq⟩ := getElem_of_mem (mem_of_mem_take hmem)
      rw [length_take] at hj
      rw [getElem_take] at heq
      simpa [heq] using hbefore j (by omega)
    · exact hnl (hsub (mem_of_mem_take (mem_of_mem_take hmem)))
    · exact hnl (hsub (mem_of_mem_drop (mem_of_mem_take hmem)))

lemma parseLoop_clean {fuel : Nat} {data : Bytes}
    (hx : x ∈ parseLoop fuel data acc) :
    x ∈ acc ∨ ((61 : UInt8) ∉ x.key ∧ (10 : UInt8) ∉ x.key ∧ (10 : UInt8) ∉ x.val) := by
  induction fuel generalizing data acc with
  | zero => exact Or.inl hx
  | succ fuel ih =>
    rw [parseLoop] at hx
    split_ifs at hx with hstop
    · exact Or.inl hx
    · have hnl : (10 : UInt8) ∉ (nextLine data).1 := fun hmem => by
        simpa using all_eq_true.mp (all_takeWhile (l := data)) _ hmem
      cases hp : parseLine (nextLine data).1 with
      | none => exact ih (by simpa [hp] using hx)
      | some y =>
        rcases ih (by simpa [hp] using hx : x ∈ parseLoop fuel (nextLine data).2 (acc ++ [y])) with hacc | hclean
        · rcases mem_append.mp hacc with hacc | hy
          · exact Or.inl hacc
          · rw [mem_singleton.mp hy]
            exact Or.inr (parseLine_clean hp hnl)
        · exact Or.inr hclean

/-- The tables that survive: every entry has a key and is delimited, no value ends in a carriage
return, and at most the last newline does not fit. -/
def Storable (table : List ConfigEntry) : Prop :=
  (∀ e ∈ table, Delimited e ∧ e.val.getLast? ≠ some 13) ∧ fileLength table ≤ 4097

/-- After a reboot every key has the value that it had before, for exactly these tables. -/
theorem config_survives_iff (ops : List ConfigOp) :
    (∀ key : Str, configGet (parseConfig (serialise 4096 (run configStep [] ops))) key =
      configGet (run configStep [] ops) key) ↔ Storable (run configStep [] ops) := by
  have hinv := configRun_inv ops
  generalize run configStep [] ops = table at hinv
  constructor
  · intro h
    -- what is read back for an entry of the table
    have hback : ∀ e ∈ table, ∃ x ∈ parseConfig (serialise 4096 table),
        strOrEmpty x.key = e.key ∧ strOrEmpty x.val = e.val := by
      intro e he
      have hget := h ⟨e.key, (hinv.key e he).1⟩
      rw [configGet_mem hinv he, configGet, map_eq_some_iff] at hget
      obtain ⟨x, hx, hval⟩ := hget
      exact ⟨x, mem_of_find?_eq_some hx, by simpa using find?_some hx, hval⟩
    have hsub : ∀ (b : UInt8) (s : Bytes), b ∉ s → b ∉ strOrEmpty s := by
      intro b s hb
      unfold strOrEmpty
      split_ifs
      · exact hb
      · simp
    have hdelim : ∀ e ∈ table, (61 : UInt8) ∉ e.key ∧ (10 : UInt8) ∉ e.key ∧ (10 : UInt8) ∉ e.val := by
      intro e he
      obtain ⟨x, hx, hkey, hval⟩ := hback e he
      obtain ⟨h1, h2, h3⟩ := (parseLoop_clean hx).resolve_left (by simp)
      exact ⟨hkey ▸ hsub _ _ h1, hkey ▸ hsub _ _ h2, hval ▸ hsub _ _ h3⟩
    have hwclean : ∀ e ∈ written table, Delimited e := by
      intro e he
      obtain ⟨hmem, hne⟩ := mem_filter.mp he
      obtain ⟨h1, h2, h3⟩ := hdelim e hmem
      exact ⟨by simpa using hne, h1, h2, h3⟩
    have hwinv : ConfigTable (written table) := hinv.sublist filter_sublist
    rw [parse_serialise hinv hwclean] at hback
    have hfrom := fun x hx => mem_survivors hwclean (fun e he => (hwinv.key e he).2) (n := 4096) (x := x) hx
    have hnonempty : ∀ e ∈ table, e.key ≠ [] := by
      intro e he hnil
      obtain ⟨x, hx, hkey, -⟩ := hback e he
      obtain ⟨e', he', hkey', -⟩ := hfrom x hx
      rw [hkey', strOrEmpty_valid (hwinv.key e' he').1, hnil] at hkey
      exact (hwclean e' he').nonempty hkey
    have hwritten : written table = table :=
      filter_eq_self.mpr fun e he => by simpa using hnonempty e he
    rw [hwritten] at hback hfrom hwclean
    obtain ⟨hcr, hlen⟩ := storable_of_survivors hinv hwclean (n := 4096) fun e he => by
      obtain ⟨x, hx, hkey, hval⟩ := hback e he
      obtain ⟨e', he', hkey', hprefix⟩ := hfrom x hx
      rw [hkey', strOrEmpty_valid (hinv.key e' he').1] at hkey
      obtain rfl := inj_on_of_nodup_map hinv.distinct he' he hkey
      refine ⟨x, hx, hkey', ?_⟩
      by_cases hvalid : utf8Valid x.val = true
      · rwa [strOrEmpty_valid hvalid] at hval
      · -- a value that was cut inside of a character reads as the empty string
        rw [strOrEmpty, if_neg hvalid] at hval
        rw [← hval] at hprefix ⊢
        exact prefix_nil.mp hprefix
    exact ⟨fun e he => ⟨hwclean e he, hcr e he⟩, hlen⟩
  · rintro ⟨hentries, hlen⟩ key
    have hclean := fun e he => (hentries e he).1
    have hwritten : written table = table :=
      filter_eq_self.mpr fun e he => by simpa using (hclean e he).nonempty
    rw [parse_serialise hinv (by rw [hwritten]; exact hclean), hwritten,
      survivors_eq_self hinv hclean (fun e he => (hentries e he).2) hlen]

theorem config_value_cut :
    configGet (run configStep [] [.set ⟨ascii "k", by decide⟩ ⟨ascii "a\nb", by decide⟩]) (ascii "k") =
        some (ascii "a\nb") ∧
      configGet (parseConfig (serialise 4096 (run configStep []
        [.set ⟨ascii "k", by decide⟩ ⟨ascii "a\nb", by decide⟩]))) (ascii "k") = some (ascii "a") := by
  decide

end Aeglos.Proofs
