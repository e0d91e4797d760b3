import ImportGroups.Text.Utf8

/-!
Binary data written in base 64.

Characters outside the alphabet are passed over. Padding counts only where it completes a group of
four characters, and what follows such padding is not read.
-/

namespace ImportGroups.Text

def sixBits? (c : Char) : Option Nat :=
  if 'A' ≤ c && c ≤ 'Z' then some (c.toNat - 'A'.toNat)
  else if 'a' ≤ c && c ≤ 'z' then some (c.toNat - 'a'.toNat + 26)
  else if '0' ≤ c && c ≤ '9' then some (c.toNat - '0'.toNat + 52)
  else if c == '+' then some 62
  else if c == '/' then some 63
  else none

/-- The bytes of a group of four characters that has begun: `count` of them were read and make up
the number `bits`. The last bits of an unfinished group are lost. -/
def groupBytes (count bits : Nat) : Bytes :=
  match count with
  | 2 => [.ofNat (bits / 16)]
  | 3 => [.ofNat (bits / 1024), .ofNat (bits / 4)]
  | 4 => [.ofNat (bits / 65536), .ofNat (bits / 256), .ofNat bits]
  | _ => []

/-- The bytes that the rest of a text stands for; `none` if a group is left unfinished. `padding` is
the number of padding marks since the last character of the alphabet. -/
def decodeGroups? (count bits padding : Nat) : List Char → Option Bytes
  | [] => if count == 0 then some [] else none
  | c :: cs =>
    if c == '=' then
      if count < 2 then decodeGroups? count bits padding cs
      else if 4 ≤ count + padding + 1 then some (groupBytes count bits)
      else decodeGroups? count bits (padding + 1) cs
    else
      match sixBits? c with
      | none => decodeGroups? count bits padding cs
      | some n =>
        let bits := 64 * bits + n
        if count == 3 then (decodeGroups? 0 0 0 cs).map (groupBytes 4 bits ++ ·)
        else decodeGroups? (count + 1) bits 0 cs

def decodeBase64? (cs : List Char) : Option Bytes :=
  if cs.all (·.toNat < 0x80) then decodeGroups? 0 0 0 cs else none

end ImportGroups.Text
