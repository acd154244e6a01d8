import Mathlib.Tactic

/-!
# Byte strings

`str` values are byte strings that pass `utf8Valid`, and all offsets are byte offsets.
-/

namespace Aeglos

abbrev Bytes := List UInt8

def ascii (s : String) : Bytes := s.toList.map fun c => UInt8.ofNat c.toNat

def fromLe : Bytes → Nat
  | [] => 0
  | b :: bs => b.toNat + 256 * fromLe bs

def toLe (n : Nat) : Nat → Bytes
  | 0 => []
  | width + 1 => UInt8.ofNat n :: toLe (n / 256) width

@[simp] lemma length_toLe (n width : Nat) : (toLe n width).length = width := by
  induction width generalizing n with
  | zero => rfl
  | succ width ih => simp [toLe, ih]

lemma fromLe_toLe (n width : Nat) : fromLe (toLe n width) = n % 256 ^ width := by
  induction width generalizing n with
  | zero => simp [toLe, fromLe, Nat.mod_one]
  | succ width ih =>
    rw [toLe, fromLe, ih, Nat.pow_succ', Nat.mod_mul]
    simp

def toAsciiLowercase (b : UInt8) : UInt8 := if 65 ≤ b ∧ b ≤ 90 then b + 32 else b

def toAsciiUppercase (b : UInt8) : UInt8 := if 97 ≤ b ∧ b ≤ 122 then b - 32 else b

def isContinuation (b : UInt8) : Bool := decide (0x80 ≤ b ∧ b ≤ 0xBF)

def secondOfThree (a b : UInt8) : Bool :=
  if a = 0xE0 then decide (0xA0 ≤ b ∧ b ≤ 0xBF)
  else if a = 0xED then decide (0x80 ≤ b ∧ b ≤ 0x9F)
  else isContinuation b

def secondOfFour (a b : UInt8) : Bool :=
  if a = 0xF0 then decide (0x90 ≤ b ∧ b ≤ 0xBF)
  else if a = 0xF4 then decide (0x80 ≤ b ∧ b ≤ 0x8F)
  else isContinuation b

def utf8Valid : Bytes → Bool
  | [] => true
  | a :: t =>
    if a < 0x80 then utf8Valid t
    else match t with
      | [] => false
      | b :: t =>
        if 0xC2 ≤ a ∧ a ≤ 0xDF then isContinuation b && utf8Valid t
        else match t with
          | [] => false
          | c :: t =>
            if 0xE0 ≤ a ∧ a ≤ 0xEF then secondOfThree a b && isContinuation c && utf8Valid t
            else match t with
              | [] => false
              | d :: t => decide (0xF0 ≤ a ∧ a ≤ 0xF4) && secondOfFour a b && isContinuation c &&
                  isContinuation d && utf8Valid t

/-- `String::from_utf8_lossy`: a longest start of a sequence that is not continued as it has to
be becomes U+FFFD. -/
def utf8Lossy : Bytes → Bytes
  | [] => []
  | a :: t =>
    if a < 0x80 then a :: utf8Lossy t
    else match t with
      | [] => [0xEF, 0xBF, 0xBD]
      | b :: t =>
        if 0xC2 ≤ a ∧ a ≤ 0xDF ∧ isContinuation b then a :: b :: utf8Lossy t
        else if (0xE0 ≤ a ∧ a ≤ 0xEF ∧ secondOfThree a b) ∨ (0xF0 ≤ a ∧ a ≤ 0xF4 ∧ secondOfFour a b) then
          match t with
          | [] => [0xEF, 0xBF, 0xBD]
          | c :: t =>
            if ¬isContinuation c then 0xEF :: 0xBF :: 0xBD :: utf8Lossy (c :: t)
            else if a ≤ 0xEF then a :: b :: c :: utf8Lossy t
            else match t with
              | [] => [0xEF, 0xBF, 0xBD]
              | d :: t =>
                if isContinuation d then a :: b :: c :: d :: utf8Lossy t
                else 0xEF :: 0xBF :: 0xBD :: utf8Lossy (d :: t)
        else 0xEF :: 0xBF :: 0xBD :: utf8Lossy (b :: t)

def strOrEmpty (bytes : Bytes) : Bytes := if utf8Valid bytes then bytes else []

def whitespace : List Bytes :=
  [[9], [10], [11], [12], [13], [32], [0xC2, 0x85], [0xC2, 0xA0], [0xE1, 0x9A, 0x80],
    [0xE2, 0x80, 0x80], [0xE2, 0x80, 0x81], [0xE2, 0x80, 0x82], [0xE2, 0x80, 0x83], [0xE2, 0x80, 0x84],
    [0xE2, 0x80, 0x85], [0xE2, 0x80, 0x86], [0xE2, 0x80, 0x87], [0xE2, 0x80, 0x88], [0xE2, 0x80, 0x89],
    [0xE2, 0x80, 0x8A], [0xE2, 0x80, 0xA8], [0xE2, 0x80, 0xA9], [0xE2, 0x80, 0xAF], [0xE2, 0x81, 0x9F],
    [0xE3, 0x80, 0x80]]

def trimFront (drops : List Bytes) : Nat → Bytes → Bytes
  | 0, s => s
  | fuel + 1, s =>
    match drops.find? fun d => d.isPrefixOf s with
    | none => s
    | some d => trimFront drops fuel (s.drop d.length)

def trim (s : Bytes) : Bytes :=
  let front := trimFront whitespace s.length s
  (trimFront (whitespace.map List.reverse) front.length front.reverse).reverse

def trimSlashes (s : Bytes) : Bytes := s.dropWhile fun b => b == 47

def rfind (b : UInt8) (s : Bytes) : Option Nat :=
  (s.reverse.findIdx? fun c => c == b).map fun i => s.length - 1 - i

def stripOr (p s : Bytes) : Bytes := if p.isPrefixOf s then s.drop p.length else s

end Aeglos
