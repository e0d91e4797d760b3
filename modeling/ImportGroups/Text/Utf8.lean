/-!
Reading UTF-8.

A byte string is read piece by piece. A piece is either the encoding of one character or the longest
run of bytes that starts such an encoding and cannot be continued, at least one byte long. Strict
reading refuses the second kind, lenient reading writes U+FFFD for it, and lossy reading drops it.
-/

namespace ImportGroups.Text

abbrev Bytes := List UInt8

/-- What stands at the head of a byte string: a character, or bytes that encode none. `rest` is what
follows. -/
structure Utf8Piece where
  char? : Option Char
  rest : Bytes
  deriving Repr

def Utf8Piece.char (n : Nat) (rest : Bytes) : Utf8Piece := ⟨some (Char.ofNat n), rest⟩

def Utf8Piece.invalid (rest : Bytes) : Utf8Piece := ⟨none, rest⟩

def isContinuation (b : UInt8) : Bool := 0x80 ≤ b && b ≤ 0xBF

/-- The low six bits of a continuation byte. -/
def payload (b : UInt8) : Nat := b.toNat % 64

/-- Which second bytes a first byte `a` of a sequence of three admits: no overlong forms and no
surrogates. -/
def secondOfThree (a b : UInt8) : Bool :=
  if a == 0xE0 then 0xA0 ≤ b && b ≤ 0xBF
  else if a == 0xED then 0x80 ≤ b && b ≤ 0x9F
  else isContinuation b

/-- Which second bytes a first byte `a` of a sequence of four admits: no overlong forms and nothing
past U+10FFFF. -/
def secondOfFour (a b : UInt8) : Bool :=
  if a == 0xF0 then 0x90 ≤ b && b ≤ 0xBF
  else if a == 0xF4 then 0x80 ≤ b && b ≤ 0x8F
  else isContinuation b

def utf8Piece (a : UInt8) (bs : Bytes) : Utf8Piece :=
  if a < 0x80 then .char a.toNat bs
  else if 0xC2 ≤ a && a ≤ 0xDF then
    match bs with
    | b :: bs' =>
      if isContinuation b then .char (a.toNat % 32 * 64 + payload b) bs'
      else .invalid bs
    | [] => .invalid bs
  else if 0xE0 ≤ a && a ≤ 0xEF then
    match bs with
    | b :: bs' =>
      if secondOfThree a b then
        match bs' with
        | c :: bs'' =>
          if isContinuation c then
            .char ((a.toNat % 16 * 64 + payload b) * 64 + payload c) bs''
          else .invalid bs'
        | [] => .invalid bs'
      else .invalid bs
    | [] => .invalid bs
  else if 0xF0 ≤ a && a ≤ 0xF4 then
    match bs with
    | b :: bs' =>
      if secondOfFour a b then
        match bs' with
        | c :: bs'' =>
          if isContinuation c then
            match bs'' with
            | d :: bs''' =>
              if isContinuation d then
                .char (((a.toNat % 8 * 64 + payload b) * 64 + payload c) * 64 + payload d) bs'''
              else .invalid bs''
            | [] => .invalid bs''
          else .invalid bs'
        | [] => .invalid bs'
      else .invalid bs
    | [] => .invalid bs
  else .invalid bs

theorem utf8Piece_rest_length (a : UInt8) (bs : Bytes) :
    (utf8Piece a bs).rest.length ≤ bs.length := by
  unfold utf8Piece
  repeat' split
  all_goals simp only [Utf8Piece.char, Utf8Piece.invalid, List.length_cons]; omega

/-- The pieces of a byte string: a character, or `none` for bytes that encode none. -/
def utf8Pieces : Bytes → List (Option Char)
  | [] => []
  | a :: bs => (utf8Piece a bs).char? :: utf8Pieces (utf8Piece a bs).rest
termination_by bs => bs.length
decreasing_by exact Nat.lt_succ_of_le (utf8Piece_rest_length a bs)

def decodeUtf8? (bs : Bytes) : Option String :=
  ((utf8Pieces bs).mapM id).map String.ofList

/-- Reading with U+FFFD for bytes that encode no character. -/
def decodeUtf8Lenient (bs : Bytes) : String :=
  .ofList ((utf8Pieces bs).map (·.getD '�'))

/-- Reading without the bytes that encode no character. -/
def decodeUtf8Lossy (bs : Bytes) : String :=
  .ofList ((utf8Pieces bs).filterMap id)

def encodeUtf8 (s : String) : Bytes := s.toUTF8.data.toList

end ImportGroups.Text
