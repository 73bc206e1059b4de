import Mathlib

/-!
How Rust's `{:?}` writes a string.

The standard library decides from its Unicode tables which characters beyond ASCII are
written as they are. The blocks that hold none of these are listed; a mark that combines
with another character, or a code point not assigned yet, is taken as written outside them.
-/

namespace Brenn.Lib

/-- Controls, spaces, combining marks, format characters and private use, as ranges. -/
def unprinted : List (Nat × Nat) :=
  [(0x7f, 0xa0), (0xad, 0xad), (0x300, 0x36f), (0x2000, 0x200f), (0x2028, 0x202f), (0x205f, 0x206f), (0x3000, 0x3000),
    (0xe000, 0xf8ff), (0xfe00, 0xfe0f), (0xfeff, 0xfeff), (0xfff0, 0xfffb), (0xfffe, 0xffff), (0xe0000, 0x10ffff)]

def debugChar (c : Char) : List Char :=
  match c.toNat with
  | 0x00 => ['\x5c', '0']
  | 0x09 => ['\x5c', 't']
  | 0x0a => ['\x5c', 'n']
  | 0x0d => ['\x5c', 'r']
  | 0x22 => ['\x5c', '\x22']
  | 0x5c => ['\x5c', '\x5c']
  | code =>
    if code < 0x20 ∨ unprinted.any (fun range => range.1 ≤ code && code ≤ range.2) then
      ['\x5c', 'u', '\x7b'] ++ Nat.toDigits 16 code ++ ['\x7d']
    else [c]

def debugText (text : String) : String := String.ofList ('\x22' :: text.toList.flatMap debugChar ++ ['\x22'])

example : debugText "a\x1b\x22" = "\x22a\x5cu\x7b1b\x7d\x5c\x22\x22" := by decide

end Brenn.Lib
