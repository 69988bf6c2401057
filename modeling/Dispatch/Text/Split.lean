/-
Pieces of text between separators.

Paths are split at every slash, queries at every ampersand.  A text with `n` separators has
`n + 1` pieces, some of which may be empty.
-/
namespace Dispatch.Text

/-- The pieces of a text between the occurrences of a character. -/
def pieces (separator : Char) : List Char → List (List Char)
  | [] => [[]]
  | c :: rest =>
    if c = separator then [] :: pieces separator rest
    else match pieces separator rest with
      | [] => [[c]]
      | p :: ps => (c :: p) :: ps

/-- What stands before and after the first occurrence of a character. -/
def cutAt (separator : Char) (cs : List Char) : List Char × Option (List Char) :=
  match cs.dropWhile (· ≠ separator) with
  | [] => (cs, none)
  | _ :: rest => (cs.takeWhile (· ≠ separator), some rest)

/-- Every separator makes one more piece. -/
theorem length_pieces (separator : Char) (cs : List Char) :
    (pieces separator cs).length = cs.count separator + 1 := by
  induction cs with
  | nil => rfl
  | cons c rest ih =>
    by_cases h : c = separator
    · simp [pieces, h, ih]
    · simp only [pieces, if_neg h, List.count_cons_of_ne h]
      cases hp : pieces separator rest with
      | nil => simp [hp] at ih
      | cons p ps => simpa [hp] using ih

example : pieces '/' "a//b".toList = ["a".toList, [], "b".toList] := by decide

end Dispatch.Text
