import Mathlib.Data.Nat.Digits.Lemmas
import Mathlib.Tactic.IntervalCases

/-!
# Elements of the distinguished encoding rules

A tag, the length in the shortest form, and the content.
-/

namespace Asn1

open List

def ofBigEndian (bytes : List UInt8) : Nat := bytes.foldl (fun n b => n * 256 + b.toNat) 0

def bigEndian (n : Nat) : List UInt8 := ((Nat.digits 256 n).map UInt8.ofNat).reverse

def lengthOctets (n : Nat) : List UInt8 :=
  if n < 128 then [UInt8.ofNat n] else UInt8.ofNat (128 + (bigEndian n).length) :: bigEndian n

def tlv (tag : UInt8) (content : List UInt8) : List UInt8 := tag :: (lengthOctets content.length ++ content)

def optionalTlv (tag : UInt8) : Option (List UInt8) → List UInt8
  | none => []
  | some content => tlv tag content

lemma foldr_map_ofNat {digits : List Nat} (hdigits : ∀ d ∈ digits, d < 256) :
    (digits.map UInt8.ofNat).foldr (fun b n => n * 256 + b.toNat) 0 = Nat.ofDigits 256 digits := by
  induction digits with
  | nil => rfl
  | cons d digits ih =>
    have hd : (UInt8.ofNat d).toNat = d := UInt8.toNat_ofNat_of_lt' (hdigits d mem_cons_self)
    have hrest := ih fun d' hd' => hdigits d' (mem_cons_of_mem d hd')
    rw [map_cons, foldr_cons, hrest, hd, Nat.ofDigits_cons]
    ring

lemma ofBigEndian_bigEndian (n : Nat) : ofBigEndian (bigEndian n) = n := by
  rw [ofBigEndian, bigEndian, foldl_reverse, foldr_map_ofNat fun d hd => Nat.digits_lt_base (by decide) hd,
    Nat.ofDigits_digits]

lemma length_bigEndian_le {n k : Nat} (h : n < 256 ^ k) : (bigEndian n).length ≤ k := by
  rw [bigEndian, length_reverse, length_map]
  exact (Nat.digits_length_le_iff (by decide) n).mpr h

lemma length_bigEndian_pos {n : Nat} (h : n ≠ 0) : 0 < (bigEndian n).length := by
  rw [bigEndian, length_reverse, length_map]
  exact length_pos_of_ne_nil (Nat.digits_ne_nil_iff_ne_zero.mpr h)

@[simp] lemma length_tlv (tag : UInt8) (content : List UInt8) :
    (tlv tag content).length = 1 + (lengthOctets content.length).length + content.length := by
  rw [tlv, length_cons, length_append]
  omega

end Asn1
