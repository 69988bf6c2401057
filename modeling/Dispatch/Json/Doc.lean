/-
JSON as far as it could be read.

A record is refused for one of two reasons: its text is not JSON, or it is JSON of the
wrong shape.  When a text has both faults the one that comes first decides, so the tree
read from a text does not give up at the first flaw.  It ends there: the flaw is a leaf
`broken`, the arrays and objects around it stay open, and what stands before it can
still be looked at.

What may stand at the place of a key is read like any value; only a string makes sense
there, and nothing after anything else is looked at.
-/
import Dispatch.Json.Token

namespace Dispatch.Json

/-- Whether an array or an object has been read to its end. -/
inductive Ending where
  | closed
  | broken
  deriving DecidableEq, Repr

/-- A value as far as it could be read. -/
inductive Doc where
  | null
  | bool (b : Bool)
  | number (n : Numeral)
  /-- a string, with its text unless an escape in it stands for half a character -/
  | string (s : Option String)
  | array (items : List Doc) (ending : Ending)
  /-- keys with their values; a key is a string in anything well formed -/
  | object (entries : List (Doc × Doc)) (ending : Ending)
  /-- here the text stops being JSON -/
  | broken

namespace Doc

mutual

/-- Reads a value; what follows it is known only if it is unbroken. -/
def value : (steps : Nat) → List Token → Doc × Option (List Token)
  | 0, _ => (broken, none)
  | steps + 1, ts =>
    match ts with
    | .null :: rest => (null, some rest)
    | .bool b :: rest => (bool b, some rest)
    | .number n :: rest => (number n, some rest)
    | .string s :: rest => (string s, some rest)
    | .openBracket :: .closeBracket :: rest => (array [] .closed, some rest)
    | .openBracket :: rest =>
      let (items, ending, after) := elements steps rest
      (array items ending, after)
    | .openBrace :: .closeBrace :: rest => (object [] .closed, some rest)
    | .openBrace :: rest =>
      let (entries, ending, after) := members steps rest
      (object entries ending, after)
    | _ => (broken, none)

/-- Reads the elements of an array up to its bracket. -/
def elements : (steps : Nat) → List Token → List Doc × Ending × Option (List Token)
  | 0, _ => ([], .broken, none)
  | steps + 1, ts =>
    match value steps ts with
    | (d, some (.closeBracket :: rest)) => ([d], .closed, some rest)
    | (d, some (.comma :: rest)) =>
      let (ds, ending, after) := elements steps rest
      (d :: ds, ending, after)
    | (d, _) => ([d], .broken, none)

/-- Reads the entries of an object up to its brace. -/
def members : (steps : Nat) → List Token → List (Doc × Doc) × Ending × Option (List Token)
  | 0, _ => ([], .broken, none)
  | steps + 1, ts =>
    match value steps ts with
    | (string s, some (.colon :: rest)) =>
      match value steps rest with
      | (d, some (.closeBrace :: rest)) => ([(string s, d)], .closed, some rest)
      | (d, some (.comma :: rest)) =>
        let (entries, ending, after) := members steps rest
        ((string s, d) :: entries, ending, after)
      | (d, _) => ([(string s, d)], .broken, none)
    | (k, _) => ([(k, broken)], .broken, none)

end

/-- Reads the first value of a text; what follows it is known only if it is unbroken. -/
def ofChars (cs : List Char) : Doc × Option (List Token) :=
  let ts := Token.scan cs
  value (2 * ts.length + 1) ts

mutual

/-- Whether the text of a value made sense throughout. -/
def isWellFormed : Doc → Bool
  | broken => false
  | array items ending => allWellFormed items && ending == .closed
  | object entries ending => entriesWellFormed entries && ending == .closed
  | _ => true

/-- Whether all elements are well formed. -/
def allWellFormed : List Doc → Bool
  | [] => true
  | d :: rest => d.isWellFormed && allWellFormed rest

/-- Whether all entries have a string for a key and a well-formed value. -/
def entriesWellFormed : List (Doc × Doc) → Bool
  | [] => true
  | (string _, d) :: rest => d.isWellFormed && entriesWellFormed rest
  | _ => false

end
end Doc
end Dispatch.Json
