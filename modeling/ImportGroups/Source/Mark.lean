import ImportGroups.Text.Utf8

/-!
Places in a Go source.

A spot is a byte offset with the number of line feeds before it. A mark is a spot together with the
bytes that follow it, so reading goes from mark to mark.
-/

namespace ImportGroups.Source

open Text (Bytes)

structure Spot where
  offset : Nat
  line : Nat
  deriving DecidableEq, Repr, Inhabited

structure Mark extends Spot where
  rest : Bytes
  deriving DecidableEq, Repr, Inhabited

def lineFeed : UInt8 := 0x0A

namespace Mark

def step (m : Mark) : Mark :=
  match m.rest with
  | [] => m
  | b :: bs => ⟨⟨m.offset + 1, if b == lineFeed then m.line + 1 else m.line⟩, bs⟩

def advance : Nat → Mark → Mark
  | 0, m => m
  | n + 1, m => advance n m.step

def ofSource (source : Bytes) : Mark := ⟨⟨0, 0⟩, source⟩

end Mark

end ImportGroups.Source
