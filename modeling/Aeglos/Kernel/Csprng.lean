import Aeglos.Kernel.Bytes

/-!
# The random number generator

`csprng.rs` after `init`, with a history that the code does not read.
-/

namespace Aeglos.Csprng

abbrev Words := Fin 16 → BitVec 32

def sigma : Fin 4 → BitVec 32 := ![0x61707865, 0x3320646e, 0x79622d32, 0x6b206574]

def quarterRound (a b c d : Fin 16) (x : Words) : Words :=
  let x := Function.update x a (x a + x b)
  let x := Function.update x d ((x d ^^^ x a).rotateLeft 16)
  let x := Function.update x c (x c + x d)
  let x := Function.update x b ((x b ^^^ x c).rotateLeft 12)
  let x := Function.update x a (x a + x b)
  let x := Function.update x d ((x d ^^^ x a).rotateLeft 8)
  let x := Function.update x c (x c + x d)
  Function.update x b ((x b ^^^ x c).rotateLeft 7)

def doubleRound (x : Words) : Words :=
  let x := quarterRound 3 7 11 15 (quarterRound 2 6 10 14 (quarterRound 1 5 9 13 (quarterRound 0 4 8 12 x)))
  quarterRound 3 4 9 14 (quarterRound 2 7 8 13 (quarterRound 1 6 11 12 (quarterRound 0 5 10 15 x)))

def chacha20Block (state : Words) : Bytes :=
  (List.finRange 16).flatMap fun i => toLe (doubleRound^[10] state i + state i).toNat 4

structure Served where
  block : Nat
  offset : Nat
  byte : UInt8

structure Drbg where
  state : Words
  keystream : Bytes
  pos : Nat
  blocks : List Words
  served : List Served

namespace Drbg

def init (d : Drbg) (seed : Nat → BitVec 32) (t sp : BitVec 64) : Drbg where
  state := ![sigma 0, sigma 1, sigma 2, sigma 3, seed 0, seed 1, seed 2, seed 3, seed 4, seed 5, seed 6, seed 7, 0, 0,
    t.setWidth 32 ^^^ (sp >>> 16).setWidth 32, (t >>> 32).setWidth 32 ^^^ sp.setWidth 32]
  keystream := d.keystream
  pos := 64
  blocks := []
  served := []

def reseed (d : Drbg) (extra : Nat → BitVec 32) : Drbg :=
  { d with
    state := fun i =>
      if 4 ≤ i.val ∧ i.val < 12 then d.state i ^^^ extra (i.val - 4) else if i = 14 then d.state i + 1 else d.state i
    pos := 64 }

def increment (s : Words) : Words :=
  let s := Function.update s 12 (s 12 + 1)
  if s 12 = 0 then Function.update s 13 (s 13 + 1) else s

def refill (d : Drbg) : Drbg :=
  { d with keystream := chacha20Block d.state, state := increment d.state, pos := 0, blocks := d.blocks ++ [d.state] }

def nextByte (d : Drbg) : UInt8 × Drbg :=
  let d := if d.pos ≥ 64 then d.refill else d
  let b := d.keystream.getD d.pos 0
  (b, { d with pos := d.pos + 1, served := d.served ++ [⟨d.blocks.length - 1, d.pos, b⟩] })

def fillBytes : Nat → Drbg → Bytes × Drbg
  | 0, d => ([], d)
  | n + 1, d => (d.nextByte.1 :: (fillBytes n d.nextByte.2).1, (fillBytes n d.nextByte.2).2)

end Drbg

end Aeglos.Csprng
