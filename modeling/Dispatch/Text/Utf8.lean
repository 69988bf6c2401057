/-
Bytes as text.

Bytes come from outside in two places, in an escaped path and in the environment, and they
need not be UTF-8.  Whatever text is encoded is read back as it was.
-/
namespace Dispatch.Text

/-- The text that bytes stand for, if they are UTF-8. -/
def utf8? (bs : List UInt8) : Option String := String.fromUTF8? bs.toByteArray

end Dispatch.Text
