import ImportGroups.Text.Printable
import ImportGroups.Text.Utf8

/-!
Quoted text.

A text is shown between single quotes, or between double quotes when it holds a single quote and no
double quote. Backslash and the quote in use are written with a backslash before them, line feed,
carriage return and tab by their letters, and every other character that is not printable by its
code point in hexadecimal, in the shortest of three widths. Bytes are shown in the same way, with a
letter in front, and only those of ASCII as characters.
-/

namespace ImportGroups.Text

/-- `n` in hexadecimal, with zeros in front up to `width` digits. -/
def hexDigits (width n : Nat) : List Char :=
  let digits := Nat.toDigits 16 n
  List.replicate (width - digits.length) '0' ++ digits

def quoteChar (quote c : Char) : List Char :=
  if c == quote || c == '\\' then ['\\', c]
  else if c == '\n' then ['\\', 'n']
  else if c == '\r' then ['\\', 'r']
  else if c == '\t' then ['\\', 't']
  else if isPrintable c then [c]
  else if c.toNat < 0x100 then '\\' :: 'x' :: hexDigits 2 c.toNat
  else if c.toNat < 0x10000 then '\\' :: 'u' :: hexDigits 4 c.toNat
  else '\\' :: 'U' :: hexDigits 8 c.toNat

def quoteFor (cs : List Char) : Char :=
  if cs.contains '\'' && !cs.contains '"' then '"' else '\''

def quote (s : String) : String :=
  let q := quoteFor s.toList
  .ofList (q :: s.toList.flatMap (quoteChar q) ++ [q])

def quoteBytes (bytes : Bytes) : String :=
  let cs := bytes.map fun b => Char.ofNat b.toNat
  let q := quoteFor cs
  let shown := fun (c : Char) =>
    if c.toNat < 0x7F then quoteChar q c else '\\' :: 'x' :: hexDigits 2 c.toNat
  .ofList ('b' :: q :: cs.flatMap shown ++ [q])

end ImportGroups.Text
