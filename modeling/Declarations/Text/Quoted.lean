/-
  Declarations/Text/Quoted.lean
  =============================
  **Text between quotation marks, as diagnostics show it.**

  A quotation mark, a backslash and the four common control characters are
  written with a backslash and a letter; any other character that would not be
  seen as itself (`isHidden`) is written as `\u{…}` around its hexadecimal
  number; all else stands for itself.
-/
import Declarations.Text.Hidden

namespace Declarations.Text

/-- How one character is shown between quotation marks. -/
def showChar (c : Char) : List Char :=
  match c with
  | '"' => ['\\', '"']
  | '\\' => ['\\', '\\']
  | '\n' => ['\\', 'n']
  | '\r' => ['\\', 'r']
  | '\t' => ['\\', 't']
  | '\x00' => ['\\', '0']
  | c =>
    if isHidden c then ['\\', 'u', '\x7b'] ++ Nat.toDigits 16 c.toNat ++ ['\x7d'] else [c]

/-- A text between quotation marks. -/
def quote (s : String) : String := String.ofList (['"'] ++ s.toList.flatMap showChar ++ ['"'])

end Declarations.Text
