import Aeglos.Library.Asn1
import Aeglos.Proofs.X509Totality

/-!
# The parser on well-formed certificates

An X.509 certificate as a tree of its fields, its bytes, and what `parse_cert` reads from them.
-/

namespace Aeglos.X509

open Slices Asn1 List

structure Attribute where
  oid : Bytes
  tag : UInt8
  value : Bytes

structure GeneralName where
  tag : UInt8
  value : Bytes

inductive Extension
  | subjectAltName (critical : Bool) (names : List GeneralName)
  | other (oid : Bytes) (critical : Bool) (value : Bytes) (notSan : oid ≠ oidSan)

structure TimeField where
  tag : UInt8
  value : Bytes

/-- The subject is a list of relative distinguished names, each a set of attributes. -/
structure Certificate where
  version : Option Bytes
  serialNumber : Bytes
  signature : Bytes
  issuer : Bytes
  notBefore : TimeField
  notAfter : TimeField
  subject : List (List Attribute)
  publicKey : Bytes
  issuerId : Option Bytes
  subjectId : Option Bytes
  extensions : Option (List Extension)
  signatureAlgorithm : Bytes
  signatureValue : Bytes

def Attribute.der (a : Attribute) : Bytes := tlv tagSequence (tlv tagOid a.oid ++ tlv a.tag a.value)

def rdnDer (rdn : List Attribute) : Bytes := tlv tagSet (rdn.flatMap Attribute.der)

def GeneralName.der (n : GeneralName) : Bytes := tlv n.tag n.value

def TimeField.der (t : TimeField) : Bytes := tlv t.tag t.value

def criticalDer (critical : Bool) : Bytes := if critical then tlv 0x01 [0xFF] else []

def extensionDer (oid : Bytes) (critical : Bool) (value : Bytes) : Bytes :=
  tlv tagSequence (tlv tagOid oid ++ (criticalDer critical ++ tlv 0x04 value))

def Extension.der : Extension → Bytes
  | .subjectAltName critical names => extensionDer oidSan critical (tlv tagSequence (names.flatMap GeneralName.der))
  | .other oid critical value _ => extensionDer oid critical value

def extensionsDer : Option (List Extension) → Bytes
  | none => []
  | some exts => tlv tagCtx3 (tlv tagSequence (exts.flatMap Extension.der))

def Certificate.tbs (c : Certificate) : Bytes :=
  optionalTlv tagCtx0 c.version ++ (tlv tagInteger c.serialNumber ++ (tlv tagSequence c.signature ++
    (tlv tagSequence c.issuer ++ (tlv tagSequence (c.notBefore.der ++ c.notAfter.der) ++
      (tlv tagSequence (c.subject.flatMap rdnDer) ++ (tlv tagSequence c.publicKey ++
        (optionalTlv 0x81 c.issuerId ++ (optionalTlv 0x82 c.subjectId ++ extensionsDer c.extensions))))))))

def Certificate.der (c : Certificate) : Bytes :=
  tlv tagSequence (tlv tagSequence c.tbs ++ (tlv tagSequence c.signatureAlgorithm ++ tlv 0x03 c.signatureValue))

def textTags : List UInt8 := [tagUtf8str, tagPrintstr, tagT61str, tagIa5str]

def textCn (attrs : List Attribute) : Option Bytes :=
  (attrs.find? fun a => decide (a.oid = oidCn ∧ a.tag ∈ textTags)).map Attribute.value

def GeneralName.dnsName (n : GeneralName) : Option Bytes := if n.tag = tagDnsname then some n.value else none

def Extension.dnsNames : Extension → List Bytes
  | .subjectAltName _ names => names.filterMap GeneralName.dnsName
  | .other _ _ _ _ => []

def Certificate.dnsNames (c : Certificate) : List Bytes := (c.extensions.getD []).flatMap Extension.dnsNames

section Walking

structure Der.Ahead (d : Der) (rest : Bytes) : Prop where
  rest : d.data.drop d.pos = rest
  pos : d.pos ≤ d.data.length
  fits : d.data.length < 2 ^ 32

variable {d : Der} {tag : UInt8} {content rest tail : Bytes}

lemma Der.ahead_sub {data : Bytes} (h : data.length < 2 ^ 32) : (Der.sub data).Ahead data := ⟨rfl, Nat.zero_le _, h⟩

lemma Der.ahead_tlv (h : (tlv tag content).length < 2 ^ 32) : (Der.sub (tlv tag content)).Ahead (tlv tag content ++ []) := by
  rw [append_nil]
  exact Der.ahead_sub h

lemma Der.Ahead.length (h : d.Ahead rest) : rest.length = d.data.length - d.pos := by
  rw [← h.rest, length_drop]

lemma Der.Ahead.remaining_iff (h : d.Ahead rest) : d.remaining ↔ rest ≠ [] := by
  have hlength := h.length
  have hpos := h.pos
  rw [Der.remaining, ← length_pos_iff]
  omega

lemma Der.Ahead.lt (h : d.Ahead (tlv tag content ++ tail)) : content.length < 2 ^ 32 := by
  have hlength := h.length
  have hfits := h.fits
  rw [length_append, length_tlv] at hlength
  omega

lemma Der.Ahead.move {a : Bytes} (h : d.Ahead (a ++ tail)) : Der.Ahead ⟨d.data, d.pos + a.length⟩ tail := by
  have hlength := h.length
  have hpos := h.pos
  rw [length_append] at hlength
  refine ⟨?_, by dsimp only; omega, h.fits⟩
  rw [← drop_drop, h.rest, drop_left]

lemma Der.Ahead.head {b : UInt8} (h : d.Ahead (b :: tail)) : d.data[d.pos]? = some b := by
  rw [← List.head?_drop, h.rest]
  rfl

lemma Der.Ahead.peek (h : d.Ahead (tlv tag content ++ tail)) : d.peekTag = some (some tag) := by
  rw [Der.peekTag, if_pos (h.remaining_iff.mpr (by simp [tlv])), h.head]
  rfl

lemma Der.Ahead.peek_nil (h : d.Ahead []) : d.peekTag = some none := by
  rw [Der.peekTag, if_neg fun hin => h.remaining_iff.mp hin rfl]

lemma and_127 {k : Nat} (hk : k ≤ 4) : (UInt8.ofNat (128 + k) &&& 0x7F).toNat = k := by
  interval_cases k <;> rfl

lemma not_lt_128 {k : Nat} (hk : k ≤ 4) : ¬ UInt8.ofNat (128 + k) < 0x80 := by
  interval_cases k <;> decide

lemma Der.Ahead.readLen {n : Nat} (h : d.Ahead (lengthOctets n ++ tail)) (hn : n < 2 ^ 32) :
    d.readLen = some (some n, ⟨d.data, d.pos + (lengthOctets n).length⟩) := by
  have hfits := h.fits
  have hpos := h.pos
  have hlength := h.length
  rw [length_append] at hlength
  rw [Der.readLen]
  by_cases hshort : n < 128
  · rw [lengthOctets, if_pos hshort] at h hlength ⊢
    have hb : (UInt8.ofNat n).toNat = n := UInt8.toNat_ofNat_of_lt' (by simp only [UInt8.size]; omega)
    have hlt : UInt8.ofNat n < 0x80 := by
      rw [UInt8.lt_iff_toNat_lt, hb]
      exact hshort
    rw [length_singleton] at hlength ⊢
    rw [if_neg (by omega), h.head, Der.advance_eq (by omega)]
    simp only [Option.bind_eq_bind, Option.bind_some]
    rw [if_pos hlt, hb]
    rfl
  · have hle : (bigEndian n).length ≤ 4 := length_bigEndian_le hn
    have hpos' : 0 < (bigEndian n).length := length_bigEndian_pos (by omega)
    rw [lengthOctets, if_neg hshort] at h hlength ⊢
    rw [length_cons] at hlength ⊢
    have hvalue : beValue 0 ((d.data.drop (d.pos + 1)).take (bigEndian n).length) = n := by
      rw [← drop_drop, h.rest]
      simpa [beValue, ofBigEndian] using ofBigEndian_bigEndian n
    have hbytes := Der.lenBytes_eq (d := ⟨d.data, d.pos + 1⟩) (n := (bigEndian n).length) 0 (by dsimp only; omega)
      (by dsimp only; omega)
    rw [if_neg (by omega), h.head, Der.advance_eq (by omega)]
    simp only [Option.bind_eq_bind, Option.bind_some]
    rw [if_neg (not_lt_128 hle), and_127 hle, checked_eq_some (by omega), Option.bind_some, if_neg (by omega), hbytes,
      hvalue, Option.bind_some, Nat.add_assoc, Nat.add_comm 1]
    rfl

lemma Der.Ahead.next (h : d.Ahead (tlv tag content ++ tail)) :
    ∃ d', d.nextTlv = some (some (tag, content), d') ∧ d'.Ahead tail := by
  have hfits := h.fits
  have hpos := h.pos
  have hlength := h.length
  have hlt := h.lt
  have hmove := h.move
  rw [length_append, length_tlv] at hlength
  have htag : d.data[d.pos]? = some tag := h.head
  -- in front of the length, and then in front of the content
  have hlen : Der.Ahead ⟨d.data, d.pos + 1⟩ (lengthOctets content.length ++ (content ++ tail)) := by
    rw [← append_assoc]
    exact Der.Ahead.move (a := [tag]) h
  have hcontent := hlen.move
  refine ⟨_, ?_, hmove⟩
  rw [Der.nextTlv, if_neg (by omega), htag, Der.advance_eq (by omega)]
  simp only [Option.bind_eq_bind, Option.bind_some, hlen.readLen hlt]
  rw [checked_eq_some (by omega), Option.bind_some, if_neg (by omega), slice_eq_some (by omega) (by omega),
    hcontent.rest, Nat.add_sub_cancel_left, take_left, length_tlv]
  simp only [Option.bind_some, Nat.add_assoc]
  rfl

lemma Der.Ahead.expect (h : d.Ahead (tlv tag content ++ tail)) :
    ∃ d', d.expect tag = some (some (content, d')) ∧ d'.Ahead tail := by
  obtain ⟨d', hnext, htail⟩ := h.next
  refine ⟨d', ?_, htail⟩
  rw [Der.expect, hnext]
  simp

lemma Der.Ahead.skip (h : d.Ahead (tlv tag content ++ tail)) : ∃ d', d.skip = some d' ∧ d'.Ahead tail := by
  obtain ⟨d', hnext, htail⟩ := h.next
  refine ⟨d', ?_, htail⟩
  rw [Der.skip, hnext]
  rfl

lemma Der.Ahead.skipIf {t : UInt8} {o : Option Bytes} (h : d.Ahead (optionalTlv t o ++ (tlv tag content ++ tail)))
    (ht : tag ≠ t) : ∃ d', d.skipIf t = some d' ∧ d'.Ahead (tlv tag content ++ tail) := by
  cases o with
  | none =>
    refine ⟨d, ?_, h⟩
    rw [Der.skipIf, Der.Ahead.peek h]
    simp [ht]
  | some version =>
    obtain ⟨d', hskip, htail⟩ := Der.Ahead.skip h
    refine ⟨d', ?_, htail⟩
    rw [Der.skipIf, Der.Ahead.peek h]
    simpa using hskip

end Walking

section Names

variable {d : Der} {turns : Nat} {info : CertInfo} {attrs : List Attribute}

lemma textCn_cons_of_text {a : Attribute} (h : a.oid = oidCn ∧ a.tag ∈ textTags) :
    textCn (a :: attrs) = some a.value := by
  simp [textCn, h]

lemma textCn_cons_of_not {a : Attribute} (h : ¬(a.oid = oidCn ∧ a.tag ∈ textTags)) :
    textCn (a :: attrs) = textCn attrs := by
  rw [textCn, find?_cons_of_neg (by simpa using h)]
  rfl

lemma textCn_append (attrs rest : List Attribute) : textCn (attrs ++ rest) = (textCn attrs).or (textCn rest) := by
  rw [textCn, textCn, textCn, find?_append, Option.map_or]

lemma cnOfRdn_eq (h : d.Ahead (attrs.flatMap Attribute.der))
    (hturns : (attrs.flatMap Attribute.der).length < turns) : cnOfRdn turns d = some ((textCn attrs).map some) := by
  induction attrs generalizing d turns with
  | nil =>
    obtain ⟨turns, rfl⟩ : ∃ t, turns = t + 1 := ⟨turns - 1, by simp at hturns; omega⟩
    rw [cnOfRdn, if_neg fun hin => h.remaining_iff.mp hin rfl]
    rfl
  | cons a attrs ih =>
    obtain ⟨turns, rfl⟩ : ∃ t, turns = t + 1 := ⟨turns - 1, by omega⟩
    rw [flatMap_cons] at h hturns
    obtain ⟨d', hnext, htail⟩ := Der.Ahead.next h
    rw [length_append, Attribute.der, length_tlv] at hturns
    have hrest := ih htail (by omega : _ < turns)
    have hatv : (Der.sub (tlv tagOid a.oid ++ tlv a.tag a.value)).Ahead (tlv tagOid a.oid ++ (tlv a.tag a.value ++ [])) := by
      rw [append_nil]
      exact Der.ahead_sub (Der.Ahead.lt h)
    obtain ⟨atv, hoid, hvalue⟩ := hatv.next
    obtain ⟨atv', hval, -⟩ := hvalue.next
    rw [cnOfRdn, if_pos (h.remaining_iff.mpr (by simp [Attribute.der, tlv])), hnext]
    simp only [Option.bind_eq_bind, Option.bind_some, hoid, hval, hrest]
    by_cases hcn : a.oid = oidCn
    · by_cases htag : a.tag ∈ textTags
      · rw [textCn_cons_of_text ⟨hcn, htag⟩]
        rw [textTags] at htag
        simp only [hcn, htag, ne_eq, not_true_eq_false, or_self, if_false, if_true]
        rfl
      · rw [textCn_cons_of_not fun hboth => htag hboth.2]
        rw [textTags] at htag
        simp only [hcn, htag, ne_eq, not_true_eq_false, or_self, if_false]
    · rw [textCn_cons_of_not fun hboth => hcn hboth.1]
      simp [hcn]

lemma cnOfName_eq {name : List (List Attribute)} (h : d.Ahead (name.flatMap rdnDer))
    (hturns : (name.flatMap rdnDer).length < turns) : cnOfName turns d = some (textCn name.flatten) := by
  induction name generalizing d turns with
  | nil =>
    obtain ⟨turns, rfl⟩ : ∃ t, turns = t + 1 := ⟨turns - 1, by simp at hturns; omega⟩
    rw [cnOfName, if_neg fun hin => h.remaining_iff.mp hin rfl]
    rfl
  | cons rdn name ih =>
    obtain ⟨turns, rfl⟩ : ∃ t, turns = t + 1 := ⟨turns - 1, by omega⟩
    rw [flatMap_cons] at h hturns
    obtain ⟨d', hnext, htail⟩ := Der.Ahead.next h
    rw [length_append, rdnDer, length_tlv] at hturns
    have hrest := ih htail (by omega : _ < turns)
    have hrdn := cnOfRdn_eq (Der.ahead_sub (Der.Ahead.lt h)) (Nat.lt_succ_self _)
    rw [cnOfName, if_pos (h.remaining_iff.mpr (by simp [rdnDer, tlv])), hnext]
    simp only [Option.bind_eq_bind, Option.bind_some, hrdn, hrest, ne_eq, not_true_eq_false, if_false]
    rw [flatten_cons, textCn_append]
    cases textCn rdn <;> rfl

def CertInfo.withNames (info : CertInfo) (names : List Bytes) : CertInfo :=
  { info with san := (info.san ++ names).take 8 }

lemma CertInfo.withNames_nil (h : info.san.length ≤ 8) : info.withNames [] = info := by
  rw [CertInfo.withNames, append_nil, take_of_length_le h]

lemma CertInfo.withNames_of_full (names : List Bytes) (h : info.san.length = 8) : info.withNames names = info := by
  rw [CertInfo.withNames, take_append_of_le_length h.ge, take_of_length_le h.le]

lemma CertInfo.withNames_append (names rest : List Bytes) :
    (info.withNames names).withNames rest = info.withNames (names ++ rest) := by
  have hlists : ∀ l : List Bytes, (l.take 8 ++ rest).take 8 = (l ++ rest).take 8 := by
    intro l
    have hroom : 8 - min 8 l.length = 8 - l.length := by omega
    rw [take_append, take_append, take_take, Nat.min_self, length_take, hroom]
  rw [CertInfo.withNames, CertInfo.withNames, CertInfo.withNames]
  dsimp only
  rw [hlists, append_assoc]

lemma CertInfo.length_withNames (names : List Bytes) : (info.withNames names).san.length ≤ 8 := by
  rw [CertInfo.withNames, length_take]
  exact Nat.min_le_left _ _

lemma sanNames_eq {names : List GeneralName} (h : d.Ahead (names.flatMap GeneralName.der))
    (hturns : (names.flatMap GeneralName.der).length < turns) (hroom : info.san.length ≤ 8) :
    sanNames turns d info = some (info.withNames (names.filterMap GeneralName.dnsName)) := by
  induction names generalizing d turns info with
  | nil =>
    obtain ⟨turns, rfl⟩ : ∃ t, turns = t + 1 := ⟨turns - 1, by simp at hturns; omega⟩
    rw [sanNames, if_neg fun hin => h.remaining_iff.mp hin.1 rfl, filterMap_nil, CertInfo.withNames_nil hroom]
  | cons n names ih =>
    obtain ⟨turns, rfl⟩ : ∃ t, turns = t + 1 := ⟨turns - 1, by omega⟩
    rw [flatMap_cons] at h hturns
    obtain ⟨d', hnext, htail⟩ := Der.Ahead.next h
    rw [length_append, GeneralName.der, length_tlv] at hturns
    have hremaining : d.remaining := h.remaining_iff.mpr (by simp [GeneralName.der, tlv])
    rw [sanNames]
    by_cases hfull : info.san.length < 8
    · rw [if_pos ⟨hremaining, hfull⟩, hnext]
      simp only [Option.bind_eq_bind, Option.bind_some, CertInfo.addSan, if_pos hfull]
      by_cases hdns : n.tag = tagDnsname
      · have hone : info.withNames [n.value] = { info with san := info.san ++ [n.value] } := by
          rw [CertInfo.withNames, take_of_length_le]
          rw [length_append]
          exact hfull
        have hrest := ih htail (by omega : _ < turns) (info.length_withNames [n.value])
        have hname : n.dnsName = some n.value := if_pos hdns
        rw [if_pos hdns, ← hone, hrest, CertInfo.withNames_append, filterMap_cons_some hname]
        rfl
      · have hname : n.dnsName = none := if_neg hdns
        rw [if_neg hdns, ih htail (by omega) hroom, filterMap_cons_none hname]
    · rw [if_neg fun hin => hfull hin.2, CertInfo.withNames_of_full _ (by omega)]

lemma extractSan_eq {names : List GeneralName} (hfits : (tlv tagSequence (names.flatMap GeneralName.der)).length < 2 ^ 32)
    (hroom : info.san.length ≤ 8) :
    extractSan (tlv tagSequence (names.flatMap GeneralName.der)) info
      = some (info.withNames (names.filterMap GeneralName.dnsName)) := by
  have h := Der.ahead_tlv hfits
  obtain ⟨d', hnext, -⟩ := h.next
  rw [extractSan, hnext]
  simp only [Option.bind_eq_bind, Option.bind_some, ne_eq, not_true_eq_false, if_false]
  exact sanNames_eq (Der.ahead_sub h.lt) (Nat.lt_succ_self _) hroom

lemma parseExtension_eq {oid value : Bytes} {critical : Bool}
    (hfits : (tlv tagOid oid ++ (criticalDer critical ++ tlv 0x04 value)).length < 2 ^ 32) :
    parseExtension (tlv tagOid oid ++ (criticalDer critical ++ tlv 0x04 value)) info
      = if oid = oidSan then extractSan value info else some info := by
  have h := Der.ahead_sub hfits
  obtain ⟨ext, hoid, hext⟩ := h.next
  have hflag : ∃ o, criticalDer critical = optionalTlv 0x01 o := by
    cases critical with
    | false => exact ⟨none, rfl⟩
    | true => exact ⟨some [0xFF], rfl⟩
  obtain ⟨o, ho⟩ := hflag
  rw [ho, ← append_nil (tlv 0x04 value)] at hext
  obtain ⟨ext', hskip, hext'⟩ := hext.skipIf (by decide)
  obtain ⟨last, hvalue, -⟩ := hext'.next
  rw [parseExtension, hoid]
  simp only [Option.bind_eq_bind, Option.bind_some, hskip, hvalue, ne_eq, not_true_eq_false, if_false]
  rfl

lemma Extension.parse_eq {e : Extension} {d : Der} {tail : Bytes} (h : d.Ahead (e.der ++ tail)) :
    ∃ body d', d.nextTlv = some (some (tagSequence, body), d') ∧ d'.Ahead tail ∧
      ∀ info : CertInfo, info.san.length ≤ 8 → parseExtension body info = some (info.withNames e.dnsNames) := by
  cases e with
  | subjectAltName critical names =>
    obtain ⟨d', hnext, htail⟩ := Der.Ahead.next h
    refine ⟨_, d', hnext, htail, fun info hroom => ?_⟩
    have hlt := Der.Ahead.lt h
    rw [parseExtension_eq hlt, if_pos rfl, extractSan_eq _ hroom]
    · rfl
    · rw [length_append, length_append, length_tlv 4] at hlt
      omega
  | other oid critical value notSan =>
    obtain ⟨d', hnext, htail⟩ := Der.Ahead.next h
    refine ⟨_, d', hnext, htail, fun info hroom => ?_⟩
    rw [parseExtension_eq (Der.Ahead.lt h), if_neg notSan, Extension.dnsNames, CertInfo.withNames_nil hroom]

lemma extensionLoop_eq {exts : List Extension} (h : d.Ahead (exts.flatMap Extension.der))
    (hturns : (exts.flatMap Extension.der).length < turns) (hroom : info.san.length ≤ 8) :
    extensionLoop turns d info = some (info.withNames (exts.flatMap Extension.dnsNames)) := by
  induction exts generalizing d turns info with
  | nil =>
    obtain ⟨turns, rfl⟩ : ∃ t, turns = t + 1 := ⟨turns - 1, by simp at hturns; omega⟩
    rw [extensionLoop, if_neg fun hin => h.remaining_iff.mp hin rfl, flatMap_nil, CertInfo.withNames_nil hroom]
  | cons e exts ih =>
    obtain ⟨turns, rfl⟩ : ∃ t, turns = t + 1 := ⟨turns - 1, by omega⟩
    rw [flatMap_cons] at h hturns
    have hpos : 0 < e.der.length := by
      cases e <;> simp [Extension.der, extensionDer, tlv]
    obtain ⟨body, d', hnext, htail, hparse⟩ := Extension.parse_eq h
    rw [length_append] at hturns
    rw [extensionLoop, if_pos (h.remaining_iff.mpr (by
      intro hnil
      rw [(append_eq_nil_iff.mp hnil).1] at hpos
      exact absurd hpos (by decide))), hnext]
    simp only [Option.bind_eq_bind, Option.bind_some, ne_eq, not_true_eq_false, if_false, hparse info hroom]
    rw [ih htail (by omega) (info.length_withNames _), CertInfo.withNames_append, flatMap_cons]

lemma parseExtensions_eq {exts : List Extension} (hfits : (tlv tagSequence (exts.flatMap Extension.der)).length < 2 ^ 32)
    (hroom : info.san.length ≤ 8) :
    parseExtensions (tlv tagSequence (exts.flatMap Extension.der)) info
      = some (info.withNames (exts.flatMap Extension.dnsNames)) := by
  have h := Der.ahead_tlv hfits
  obtain ⟨d', hnext, -⟩ := h.next
  rw [parseExtensions, hnext]
  simp only [Option.bind_eq_bind, Option.bind_some, ne_eq, not_true_eq_false, if_false]
  exact extensionLoop_eq (Der.ahead_sub h.lt) (Nat.lt_succ_self _) hroom

end Names

section Certificate

variable {d : Der} {turns : Nat}

lemma skipToExtensions_optional {t : UInt8} {o : Option Bytes} {tail : Bytes} (h : d.Ahead (optionalTlv t o ++ tail))
    (ht : t ≠ tagCtx3) (hturns : (optionalTlv t o ++ tail).length < turns) :
    ∃ turns' d', skipToExtensions turns d = skipToExtensions turns' d' ∧ d'.Ahead tail ∧ tail.length < turns' := by
  cases o with
  | none => exact ⟨turns, d, rfl, h, hturns⟩
  | some content =>
    obtain ⟨turns, rfl⟩ : ∃ n, turns = n + 1 := ⟨turns - 1, by omega⟩
    obtain ⟨d', hskip, htail⟩ := Der.Ahead.skip h
    rw [optionalTlv, length_append, length_tlv] at hturns
    refine ⟨turns, d', ?_, htail, by omega⟩
    rw [skipToExtensions, Der.Ahead.peek h]
    simp [ht, hskip]

lemma skipToExtensions_last {exts : Option (List Extension)} (h : d.Ahead (extensionsDer exts)) (hturns : 0 < turns) :
    skipToExtensions turns d = some d := by
  obtain ⟨turns, rfl⟩ : ∃ n, turns = n + 1 := ⟨turns - 1, by omega⟩
  cases exts with
  | none =>
    rw [skipToExtensions, Der.Ahead.peek_nil h]
    rfl
  | some exts =>
    rw [extensionsDer, ← append_nil (tlv _ _)] at h
    rw [skipToExtensions, h.peek]
    simp

def Certificate.info (c : Certificate) (notBefore notAfter : Nat) : CertInfo :=
  ⟨textCn c.subject.flatten, c.dnsNames.take 8, notBefore, notAfter⟩

lemma parseCert_eq {c : Certificate} {notBefore notAfter : Nat} (hfits : c.der.length < 2 ^ 32)
    (hbefore : parseTime 0 c.notBefore.tag c.notBefore.value = some notBefore)
    (hafter : parseTime (2 ^ 64 - 1) c.notAfter.tag c.notAfter.value = some notAfter) :
    parseCert c.der = some (some (c.info notBefore notAfter)) := by
  have hcert := Der.ahead_tlv hfits
  obtain ⟨d₀, hd₀, -⟩ := hcert.expect
  have hparts := Der.ahead_sub hcert.lt
  obtain ⟨d₁, hd₁, -⟩ := hparts.expect
  have htbs : (Der.sub c.tbs).Ahead c.tbs := Der.ahead_sub hparts.lt
  obtain ⟨tbs₀, hversion, htbs₀⟩ := Der.Ahead.skipIf htbs (by decide)
  obtain ⟨tbs₁, hserial, htbs₁⟩ := htbs₀.expect
  obtain ⟨tbs₂, hsignature, htbs₂⟩ := htbs₁.expect
  obtain ⟨tbs₃, hissuer, htbs₃⟩ := htbs₂.expect
  obtain ⟨tbs₄, hvalidity, htbs₄⟩ := htbs₃.expect
  have hdates : (Der.sub (c.notBefore.der ++ c.notAfter.der)).Ahead (c.notBefore.der ++ c.notAfter.der) :=
    Der.ahead_sub htbs₃.lt
  obtain ⟨validity, hnb, hvalidity'⟩ := Der.Ahead.next hdates
  rw [TimeField.der, ← append_nil (tlv _ _)] at hvalidity'
  obtain ⟨last, hna, -⟩ := hvalidity'.next
  obtain ⟨tbs₅, hsubject, htbs₅⟩ := htbs₄.expect
  have hcn : extractCn (c.subject.flatMap rdnDer) = some (textCn c.subject.flatten) :=
    cnOfName_eq (Der.ahead_sub htbs₄.lt) (Nat.lt_succ_self _)
  obtain ⟨tbs₆, hkey, htbs₆⟩ := htbs₅.expect
  have hleft : (optionalTlv 0x81 c.issuerId ++ (optionalTlv 0x82 c.subjectId ++ extensionsDer c.extensions)).length
      < c.tbs.length + 1 := by
    simp only [Certificate.tbs, length_append]
    omega
  obtain ⟨turns₇, tbs₇, hissuerId, htbs₇, hleft₇⟩ := skipToExtensions_optional htbs₆ (by decide) hleft
  obtain ⟨turns₈, tbs₈, hsubjectId, htbs₈, hleft₈⟩ := skipToExtensions_optional htbs₇ (by decide) hleft₇
  have hlast := skipToExtensions_last htbs₈ (by omega : 0 < turns₈)
  rw [parseCert, Certificate.der]
  simp only [hd₀, hd₁, hversion, hserial, hsignature, hissuer, hvalidity, hnb, hbefore, hna, hafter, hsubject, hcn, hkey,
    hissuerId, hsubjectId, hlast, Option.bind_eq_bind, Option.bind_some]
  rw [Certificate.info, Certificate.dnsNames]
  cases hexts : c.extensions with
  | none =>
    rw [hexts] at htbs₈
    rw [Der.Ahead.peek_nil htbs₈]
    rfl
  | some exts =>
    rw [hexts, extensionsDer, ← append_nil (tlv tagCtx3 _)] at htbs₈
    obtain ⟨last, hnext, -⟩ := htbs₈.next
    rw [htbs₈.peek, Option.bind_some, if_pos rfl, hnext]
    simp only [Option.bind_some]
    have hroom : (⟨textCn c.subject.flatten, CertInfo.empty.san, notBefore, notAfter⟩ : CertInfo).san.length ≤ 8 :=
      Nat.zero_le 8
    rw [parseExtensions_eq htbs₈.lt hroom]
    rfl

end Certificate

end Aeglos.X509
