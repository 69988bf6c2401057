/-
Percent escapes.

A byte may be written as a percent sign and two hexadecimal digits.  A percent sign that is
not followed by two of them stands for itself.  What comes out is read as UTF-8.
-/
import Dispatch.Text.Utf8
import Dispatch.Uuid

namespace Dispatch.Http

/-- The byte that two hexadecimal digits stand for. -/
def escapedByte? (a b : UInt8) : Option UInt8 :=
  match hexValue? (Char.ofNat a.toNat), hexValue? (Char.ofNat b.toNat) with
  | some x, some y => some (UInt8.ofNat (16 * x.val + y.val))
  | _, _ => none

/-- The percent sign. -/
def percentByte : UInt8 := 0x25

/-- Bytes with their escapes undone. -/
def unescape : List UInt8 → List UInt8
  | c :: a :: b :: rest =>
    if c = percentByte then
      match escapedByte? a b with
      | some x => x :: unescape rest
      | none => c :: unescape (a :: b :: rest)
    else c :: unescape (a :: b :: rest)
  | bs => bs

/-- A text with its escapes undone, if the result is a text. -/
def unescapeText? (cs : List Char) : Option String :=
  Text.utf8? (unescape (String.ofList cs).toUTF8.toList)

/-- Without a percent sign nothing is escaped. -/
theorem unescape_of_not_mem {bs : List UInt8} (h : percentByte ∉ bs) : unescape bs = bs := by
  fun_induction unescape bs with
  | case1 c a b rest hc => simp_all
  | case2 c a b rest hc => simp_all
  | case3 c a b rest hc ih =>
    rw [ih]
    exact fun hm => h (List.mem_cons_of_mem _ hm)
  | case4 => rfl

end Dispatch.Http
