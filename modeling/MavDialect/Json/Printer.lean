-- Writing JSON text, in one line without blanks or over several lines with two blanks for each
-- level.  Strings escape the quote, the backslash and control characters and nothing else.
import MavDialect.Json.Basic
import MavDialect.Text.Numeral

namespace MavDialect.Json

/-! ## Scalars -/

/-- A control character as four hexadecimal digits in lower case. -/
def hexEscape (c : Char) : List Char :=
  ['\\', 'u', '0', '0', Nat.digitChar (c.toNat / 16), Nat.digitChar (c.toNat % 16)]

/-- One character of a string literal. -/
def escape (c : Char) : List Char :=
  if c = '"' then ['\\', '"']
  else if c = '\\' then ['\\', '\\']
  else if c = '\n' then ['\\', 'n']
  else if c = '\r' then ['\\', 'r']
  else if c = '\t' then ['\\', 't']
  else if c = '\x08' then ['\\', 'b']
  else if c = '\x0c' then ['\\', 'f']
  else if c < ' ' then hexEscape c
  else [c]

/-- The string literal that denotes a text. -/
def quoted (cs : List Char) : List Char := '"' :: cs.flatMap escape ++ ['"']

/-- A literal that denotes no text is written as a lone surrogate. -/
def quotedOr : Option String → List Char
  | some text => quoted text.toList
  | none => "\"\\ud800\"".toList

def Scalar.print : Scalar → List Char
  | .null => "null".toList
  | .bool true => "true".toList
  | .bool false => "false".toList
  | .int n => Text.decimal n
  | .decimal literal => literal
  | .string text => quotedOr text

/-! ## One line -/

mutual

def printCompact : Json → List Char
  | .scalar s => s.print
  | .array items => '[' :: printItems items ++ [']']
  | .object members => '\x7b' :: printMembers members ++ ['\x7d']

/-- Values with a comma between neighbours. -/
def printItems : List Json → List Char
  | [] => []
  | [v] => printCompact v
  | v :: w :: rest => printCompact v ++ ',' :: printItems (w :: rest)

/-- Keys and values with a comma between neighbours. -/
def printMembers : List (Option String × Json) → List Char
  | [] => []
  | [(key, v)] => quotedOr key ++ ':' :: printCompact v
  | (key, v) :: w :: rest =>
    quotedOr key ++ ':' :: printCompact v ++ ',' :: printMembers (w :: rest)

end

/-! ## Several lines -/

/-- A new line, and two blanks for each level. -/
def newLine (level : Nat) : List Char := '\n' :: List.replicate (2 * level) ' '

mutual

def printIndented (level : Nat) : Json → List Char
  | .scalar s => s.print
  | .array [] => ['[', ']']
  | .array (v :: rest) =>
    '[' :: indentItems (level + 1) (v :: rest) ++ newLine level ++ [']']
  | .object [] => ['\x7b', '\x7d']
  | .object (m :: rest) =>
    '\x7b' :: indentMembers (level + 1) (m :: rest) ++ newLine level ++ ['\x7d']

/-- Values on lines of their own, with a comma between neighbours. -/
def indentItems (level : Nat) : List Json → List Char
  | [] => []
  | [v] => newLine level ++ printIndented level v
  | v :: w :: rest =>
    newLine level ++ printIndented level v ++ ',' :: indentItems level (w :: rest)

/-- Keys and values on lines of their own, with a comma between neighbours. -/
def indentMembers (level : Nat) : List (Option String × Json) → List Char
  | [] => []
  | [(key, v)] => newLine level ++ quotedOr key ++ ':' :: ' ' :: printIndented level v
  | (key, v) :: w :: rest =>
    newLine level ++ quotedOr key ++ ':' :: ' ' :: printIndented level v ++
      ',' :: indentMembers level (w :: rest)

end

/-- The value in one line. -/
def compact (v : Json) : String := String.ofList (printCompact v)

/-- The value over several lines. -/
def pretty (v : Json) : String := String.ofList (printIndented 0 v)

/-- A text as a string literal. -/
def quote (text : String) : String := String.ofList (quoted text.toList)

end MavDialect.Json
