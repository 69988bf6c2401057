/-
Rehearsing failures of the match table.

For each kind of call a list of outcomes can be laid down in advance.  Every call takes the
next outcome of its kind: it goes through, or it fails without reaching the table, or the
table appears empty to it.  When the list is used up calls go through again.
-/
import Dispatch.Store.Steps

namespace Dispatch

/-- A kind of call that can be made to fail. -/
inductive StoreMethod where
  | find
  | get
  | batch
  | list
  | begin
  | insert
  | lock
  | commit
  | update
  deriving DecidableEq, Repr

namespace StoreMethod

/-- The name of a kind of call. -/
def name : StoreMethod → String
  | find => "find"
  | get => "get"
  | batch => "batch"
  | list => "list"
  | begin => "begin"
  | insert => "insert"
  | lock => "lock"
  | commit => "commit"
  | update => "update"

/-- The kind of call with the given name. -/
def ofName? (s : String) : Option StoreMethod :=
  [find, get, batch, list, begin, insert, lock, commit, update].find? fun m => m.name == s

end StoreMethod

/-- The kind of a call, if it can be made to fail. -/
def StoreCall.method? : StoreCall → Option StoreMethod
  | begin => some .begin
  | find _ _ => some .find
  | get _ => some .get
  | list _ _ => some .list
  | insert _ _ => some .insert
  | lock _ _ => some .lock
  | update _ _ _ _ _ => some .update
  | commit _ => some .commit
  | openBatch => some .batch
  | rollback _ | updateRow _ _ _ _ => none

/-- What is to come of a call. -/
inductive Rehearsed where
  | pass
  /-- nothing is found, or no row is changed -/
  | empty
  | fail (e : StoreError)

/-- The outcomes laid down for each kind of call. -/
abbrev Faults : Type := Table StoreMethod (List Rehearsed)

namespace Faults

/-- Lays down one more outcome. -/
def add (f : Faults) (m : StoreMethod) (r : Rehearsed) : Faults :=
  f.insert m ((f.find? m).getD [] ++ [r])

/-- Takes the next outcome for a kind of call. -/
def take (f : Faults) (m : StoreMethod) : Rehearsed × Faults :=
  match f.find? m with
  | some (r :: rest) => (r, f.insert m rest)
  | _ => (.pass, f)

end Faults

/-- The reply to a call that fails. -/
def StoreCall.failed? : (c : StoreCall) → StoreError → Option c.Reply
  | begin, e => some (.error e)
  | find _ _, e => some (.error e)
  | get _, e => some (.error e)
  | list _ _, e => some (.error e)
  | insert _ _, e => some (.error e)
  | lock _ _, e => some (.error e)
  | update _ _ _ _ _, e => some (.error e)
  | commit _, e => some (.error e)
  | openBatch, e => some (.error e)
  | rollback _, _ => none
  | updateRow _ _ _ _, _ => none

/-- The reply to a call that meets an empty table. -/
def StoreCall.empty? : (c : StoreCall) → Option c.Reply
  | find _ _ => some (.ok none)
  | update _ _ _ _ _ => some (.ok (0 : Nat))
  | _ => none

/-- Whether a call is already in line for its lock. -/
def StoreCall.isWaiting (c : StoreCall) (s : Store) : Bool :=
  match c with
  | lock t id | update t id _ _ _ | updateRow t id _ _ => s.locks.waitsFor t id
  | _ => false

/-- The outcome for a call, and what is left for later ones.  A call that is already in line
has had its outcome. -/
def Faults.outcome (f : Faults) (c : StoreCall) (s : Store) : Rehearsed × Faults :=
  match c.method? with
  | some m => if c.isWaiting s then (.pass, f) else f.take m
  | none => (.pass, f)

/-- The reply that an outcome lays down, unless the call goes through. -/
def Rehearsed.reply? (r : Rehearsed) (c : StoreCall) : Option c.Reply :=
  match r with
  | .pass => none
  | .empty => c.empty?
  | .fail e => c.failed? e

end Dispatch
