/-!
# Lines of a text

In a file a line ends at a line feed, at a carriage return, or at the pair of both (`lines`); in typed
input only a line feed ends it (`feedLines`). A last line without an end counts unless it is empty.
-/

namespace Reckoner.Text

/-- The lines of a text without their ends. -/
def lines : List Char → List (List Char)
  | [] => []
  | '\r' :: '\n' :: cs => [] :: lines cs
  | c :: cs =>
    if c = '\n' || c = '\r' then [] :: lines cs
    else match lines cs with
      | [] => [[c]]
      | l :: ls => (c :: l) :: ls

/-- The lines of a text that end at line feeds. -/
def feedLines : List Char → List (List Char)
  | [] => []
  | c :: cs =>
    if c = '\n' then [] :: feedLines cs
    else match feedLines cs with
      | [] => [[c]]
      | l :: ls => (c :: l) :: ls

example : lines "a\r\nb\r\rc\n".toList = [['a'], ['b'], [], ['c']] := by decide +kernel

end Reckoner.Text
