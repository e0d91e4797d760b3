import ImportGroups.Text.Quoted

/-!
JSON texts.

Objects and lists have one member a line, two blanks deeper than the line of their bracket; empty
ones have their brackets side by side. Only quotes, backslashes and control characters are escaped.
-/

namespace ImportGroups.Text

inductive Json where
  | num (n : Nat)
  | str (s : String)
  | list (items : List Json)
  | object (fields : List (String × Json))

namespace Json

def escape (c : Char) : String :=
  if c == '"' then "\\\""
  else if c == '\\' then "\\\\"
  else if c == '\n' then "\\n"
  else if c == '\r' then "\\r"
  else if c == '\t' then "\\t"
  else if c.toNat == 0x08 then "\\b"
  else if c.toNat == 0x0C then "\\f"
  else if c.toNat < 0x20 then "\\u" ++ .ofList (hexDigits 4 c.toNat)
  else c.toString

def quoted (s : String) : String :=
  "\"" ++ String.join (s.toList.map escape) ++ "\""

def lineStart (depth : Nat) : String := "\n" ++ "".pushn ' ' (2 * depth)

mutual

def render (depth : Nat) : Json → String
  | num n => toString n
  | str s => quoted s
  | list [] => "[]"
  | list items =>
    "[" ++ ",".intercalate (renderItems (depth + 1) items) ++ lineStart depth ++ "]"
  | object [] => "\x7b\x7d"
  | object fields =>
    "\x7b" ++ ",".intercalate (renderFields (depth + 1) fields) ++ lineStart depth ++ "\x7d"

def renderItems (depth : Nat) : List Json → List String
  | [] => []
  | x :: xs => (lineStart depth ++ x.render depth) :: renderItems depth xs

def renderFields (depth : Nat) : List (String × Json) → List String
  | [] => []
  | (k, x) :: rest =>
    (lineStart depth ++ quoted k ++ ": " ++ x.render depth) :: renderFields depth rest

end

def toText (j : Json) : String := j.render 0

end Json

end ImportGroups.Text
