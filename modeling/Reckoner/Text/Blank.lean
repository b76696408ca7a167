/-!
# Blank characters

The characters that count as white space between words, and trimming and splitting at them.
-/

namespace Reckoner.Text

/-- The white space characters of Unicode, with the four separators U+001C to U+001F. -/
def isBlank (c : Char) : Bool :=
  let n := c.toNat
  (0x9 ≤ n && n ≤ 0xd) || (0x1c ≤ n && n ≤ 0x20) || n = 0x85 || n = 0xa0 || n = 0x1680 ||
    (0x2000 ≤ n && n ≤ 0x200a) || n = 0x2028 || n = 0x2029 || n = 0x202f || n = 0x205f || n = 0x3000

/-- Tab, line feed, vertical tab, form feed, carriage return and space. -/
def isAsciiBlank (c : Char) : Bool := (0x9 ≤ c.toNat && c.toNat ≤ 0xd) || c = ' '

/-- Drops what satisfies `p` at both ends. -/
def trimmedBy (p : Char → Bool) (cs : List Char) : List Char :=
  ((cs.dropWhile p).reverse.dropWhile p).reverse

def strip (s : String) : String := String.ofList (trimmedBy isBlank s.toList)

/-- The maximal blank-free pieces, in order. -/
def words : List Char → List (List Char)
  | [] => []
  | c :: cs =>
    if isBlank c then words cs
    else match cs, words cs with
      | d :: _, w :: ws => if isBlank d then [c] :: w :: ws else (c :: w) :: ws
      | _, ws => [c] :: ws

/-- The first `n` characters. -/
def take (s : String) (n : Nat) : String := String.ofList (s.toList.take n)

example : strip "\u3000 1 + 1\x1c" = "1 + 1" := by decide +kernel
example : words " recall  12\t3".toList = ["recall".toList, "12".toList, "3".toList] := by decide +kernel

end Reckoner.Text
