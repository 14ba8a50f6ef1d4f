import GuildSandbox.Text.Blank

set_option autoImplicit false
set_option relaxedAutoImplicit false

namespace GuildSandbox.Text

/-- The inclusive code point ranges of characters that are shown by number. -/
def unseenRanges : List (Nat × Nat) :=
  [(0x00, 0x1f), (0x7f, 0xa0), (0xad, 0xad), (0x300, 0x36f), (0x483, 0x489), (0x591, 0x5bd),
   (0x600, 0x605), (0x610, 0x61a), (0x61c, 0x61c), (0x64b, 0x65f), (0x670, 0x670),
   (0x6dd, 0x6dd), (0x70f, 0x70f), (0x1680, 0x1680), (0x180b, 0x180f), (0x1ab0, 0x1ace),
   (0x1dc0, 0x1dff), (0x2000, 0x200f), (0x2028, 0x202f), (0x205f, 0x206f), (0x20d0, 0x20f0),
   (0x3000, 0x3000), (0x302a, 0x302f), (0x3099, 0x309a), (0xd800, 0xf8ff), (0xfe00, 0xfe0f),
   (0xfe20, 0xfe2f), (0xfeff, 0xfeff), (0xff9e, 0xff9f), (0xfff0, 0xfffb), (0xfffe, 0xffff),
   (0xe0000, 0x10ffff)]

def isUnseen (c : Char) : Bool :=
  unseenRanges.any fun (lo, hi) => lo ≤ c.toNat && c.toNat ≤ hi

def hexText (n : Nat) : List Char := (Nat.toDigits 16 n)

def quotedChar (mark : Char) (c : Char) : List Char :=
  if c = mark then ['\\', mark]
  else match c with
    | '\\' => ['\\', '\\']
    | '\t' => ['\\', 't']
    | '\n' => ['\\', 'n']
    | '\r' => ['\\', 'r']
    | '\x00' => ['\\', '0']
    | c => if isUnseen c then '\\' :: 'u' :: '\x7b' :: (hexText c.toNat ++ ['\x7d']) else [c]

def quoted (mark : Char) (cs : List Char) : List Char :=
  mark :: (cs.flatMap (quotedChar mark) ++ [mark])

end GuildSandbox.Text
