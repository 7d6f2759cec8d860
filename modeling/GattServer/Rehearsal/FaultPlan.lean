/-
# Fault plans

In a rehearsal, calls on the bus can be made to fail without being carried out.  A plan is a list
of faults that are tried in order at each call.  A fault fits calls of one kind, all of them or
those about one subject.  It lets a number of fitting calls pass first, and may be used up after a
number of failures; the first fault that fits and does neither makes the call fail.
-/

import GattServer.Bus.Call

namespace GattServer

/-- A fault that calls may meet. -/
structure Fault where
  /-- The kind of call that fails. -/
  call : CallKind
  /-- The subject of the calls that fail; any if absent. -/
  subject : Option String
  /-- How many fitting calls pass before. -/
  skip : Nat
  /-- How often it strikes; without end if absent. -/
  times : Option Nat
  /-- What the call fails with. -/
  error : Error
  deriving DecidableEq

/-- Whether a fault fits a call. -/
def Fault.fits (f : Fault) (c : Call) : Bool :=
  f.call = c.kind && f.subject.all fun s => s = c.subject

/-- The faults that calls may meet, in the order in which they are tried. -/
abbrev FaultPlan := List Fault

/-- What a plan does to a call: the error it fails with, if any, and the plan from then on. -/
def FaultPlan.strike (c : Call) : FaultPlan → Option Error × FaultPlan
  | [] => (none, [])
  | f :: rest =>
    let later (f : Fault) : Option Error × FaultPlan :=
      let r := strike c rest
      (r.1, f :: r.2)
    if !f.fits c then later f
    else if 0 < f.skip then later { f with skip := f.skip - 1 }
    else
      match f.times with
      | some 0 => later f
      | some (n + 1) => (some f.error, { f with times := some n } :: rest)
      | none => (some f.error, f :: rest)

end GattServer
