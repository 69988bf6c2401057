/-
Counting what happens.

The service counts creations and confirmations by outcome and the proposals that it rejects,
and keeps for each pool the number of available actors as it was last looked up.  The written
form lists the families by name and the samples of a family by label; a family with labels
appears once it has a sample.
-/
import Dispatch.Error
import Dispatch.Table

namespace Dispatch

/-- What comes of asking for a proposal. -/
inductive Creation where
  | created
  /-- the pair had an open proposal already -/
  | existing
  deriving DecidableEq, Repr

/-- What comes of a confirmation. -/
inductive Confirmation where
  /-- it was the second one -/
  | accepted
  | confirmed
  | failed (kind : ErrorKind)
  deriving DecidableEq, Repr

/-- The label of an outcome. -/
def Creation.label : Creation → String
  | created => "created"
  | existing => "existing"

/-- The label of an outcome. -/
def Confirmation.label : Confirmation → String
  | accepted => "accepted"
  | confirmed => "confirmed"
  | failed kind => kind.name

/-- Something to be counted. -/
inductive Observation where
  | creation (c : Creation)
  | confirmation (c : Confirmation)
  /-- proposals rejected because another one was accepted -/
  | rejections (n : Nat)
  /-- the number of actors available in a pool -/
  | poolSize (pool : Role) (n : Nat)

/-- All counts. -/
structure Metrics where
  creations : Table Creation Nat := ∅
  confirmations : Table Confirmation Nat := ∅
  rejections : Nat := 0
  poolSizes : Table Role Nat := ∅

namespace Metrics

/-- The count under a label, zero if there is none. -/
def count {κ : Type} [DecidableEq κ] (t : Table κ Nat) (k : κ) : Nat := (t.find? k).getD 0

/-- Takes an observation into the counts. -/
def record (m : Metrics) : Observation → Metrics
  | .creation c => { m with creations := m.creations.insert c (count m.creations c + 1) }
  | .confirmation c =>
    { m with confirmations := m.confirmations.insert c (count m.confirmations c + 1) }
  | .rejections n => { m with rejections := m.rejections + n }
  | .poolSize pool n => { m with poolSizes := m.poolSizes.insert pool n }

/-! ### The written form -/

/-- A family of counts: what it is, and its samples by label. -/
structure Family where
  name : String
  help : String
  type : String
  /-- what stands between the name and the label of a sample -/
  suffix : String := ""
  /-- the name of the label, if the samples have one -/
  label : String := ""
  samples : List (String × Nat)

/-- The lines of a family. -/
def Family.lines (f : Family) : List String :=
  if f.samples.isEmpty then []
  else s!"# HELP {f.name} {f.help}" :: s!"# TYPE {f.name} {f.type}" ::
    (f.samples.mergeSort fun a b => decide (a.1 ≤ b.1)).map fun (value, n) =>
      if f.label = "" then s!"{f.name}{f.suffix} {n}"
      else s!"{f.name}{f.suffix}\x7b{f.label}=\"{value}\"\x7d {n}"

/-- Samples by label. -/
def samples {κ : Type} (t : Table κ Nat) (label : κ → String) : List (String × Nat) :=
  t.entries.map fun e => (label e.1, e.2)

/-- All families, by name. -/
def families (m : Metrics) : List Family :=
  [{ name := "available_actors", help := "Actors currently open for matching", type := "gauge"
     label := "pool", samples := samples m.poolSizes Role.name },
   { name := "competing_rejected_total"
     help := "Open proposals rejected because a competing one was accepted", type := "counter"
     samples := [("", m.rejections)] },
   { name := "confirmation_latency_seconds"
     help := "Latency of the confirmation transaction in seconds", type := "histogram"
     suffix := "_count", label := "outcome"
     samples := samples m.confirmations Confirmation.label },
   { name := "confirmations_total", help := "Confirmation attempts by outcome", type := "counter"
     label := "outcome", samples := samples m.confirmations Confirmation.label },
   { name := "matches_created_total"
     help := "Match creation requests by outcome (created/existing)", type := "counter"
     label := "outcome", samples := samples m.creations Creation.label }]

/-- The written form, without how long anything took. -/
def lines (m : Metrics) : List String := m.families.flatMap Family.lines

end Metrics
end Dispatch
