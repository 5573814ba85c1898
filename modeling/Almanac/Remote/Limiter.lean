import Almanac.Data.Binary64
import Almanac.Failure

/-!
# Permits for requests

Every request takes a permit first. There is a slot for one permit, and a refill that puts a permit
into it, waits until every permit it put was used, rests for an interval, and begins again. The
first request starts both; closing drops both, whatever lies in the slot, and the next request
starts them afresh. A request that finds the slot empty waits in line, which cancelled work leaves
again.

Time is counted in units of `2 ^ -1074` seconds, so that the interval, a floating-point number, is a
whole number of them. No time passes within a step, but the refill and the line go on until
each of them has to wait.
-/

namespace Almanac.Remote

open Almanac.Data

/-- What the refill of the slot is at. -/
inductive Refill where
  /-- It is about to put a permit into the slot. -/
  | putting
  /-- It waits until every permit that it put was used. -/
  | joining
  /-- It rests for so many units of time, or without end. -/
  | resting (left : Option Nat)
deriving DecidableEq, Repr

/-- The issue of permits while it goes on. -/
structure Issue where
  /-- Does a permit lie in the slot? -/
  filled : Bool := false
  /-- How many permits were put into the slot and not used yet. -/
  unfinished : Nat := 0
  /-- How many requests wait in line. -/
  waiting : Nat := 0
  /-- How many permits were taken. -/
  taken : Nat := 0
  refill : Refill := .putting
deriving DecidableEq, Repr

namespace Issue

/-- The next move of the refill, if it does not have to wait. -/
def move (interval : Option Nat) (issue : Issue) : Issue :=
  match issue.refill with
  | .putting =>
      if issue.filled then issue
      else { issue with filled := true, unfinished := issue.unfinished + 1, refill := .joining }
  | .joining => if issue.unfinished = 0 then { issue with refill := .resting interval } else issue
  | .resting left => if left = some 0 then { issue with refill := .putting } else issue

/-- A permit is taken from the slot and used. -/
def take (issue : Issue) : Issue :=
  { issue with
    filled := false, unfinished := issue.unfinished - 1, taken := issue.taken + 1 }

def queueUp (issue : Issue) : Issue :=
  { issue with waiting := issue.waiting + 1 }

def leaveLine (issue : Issue) : Issue :=
  { issue with waiting := issue.waiting - 1 }

/-- The refill goes on until it has to wait. From a rest that is over it comes to the next permit,
which somebody has to take before it rests again. -/
def refilled (interval : Option Nat) (issue : Issue) : Issue :=
  ((issue.move interval).move interval).move interval

/-- The refill goes on, and so do up to so many requests that wait in line. -/
def serve (interval : Option Nat) : (requests : Nat) → Issue → Issue
  | 0, issue => issue.refilled interval
  | requests + 1, issue =>
      let issue := issue.refilled interval
      if issue.filled then serve interval requests issue.take.leaveLine else issue

def settle (interval : Option Nat) (issue : Issue) : Issue :=
  issue.serve interval issue.waiting

/-- A unit of time passes. -/
def tick (issue : Issue) : Issue :=
  match issue.refill with
  | .resting (some (left + 1)) => { issue with refill := .resting (some left) }
  | _ => issue

def elapse (interval : Option Nat) : (time : Nat) → Issue → Issue
  | 0, issue => issue
  | time + 1, issue => elapse interval time (issue.tick.settle interval)

end Issue

/-- The limiter of requests. -/
structure Limiter where
  /-- The interval between two permits, unless it has no end. -/
  interval : Option Nat
  /-- The issue of permits, once it was started. -/
  issue : Option Issue := none
  /-- How many permits were taken before the last closing. -/
  earlier : Nat := 0
deriving DecidableEq, Repr

namespace Limiter

def negativeInterval : Mishap :=
  .badValue "interval must not be negative"

/-- The units of time in an interval, unless it has no end. An undefined interval is over at
once. -/
def units? : Binary64 → Option Nat
  | .finite _ mantissa exponent => some (mantissa * Nat.pow 2 (exponent + 1074).toNat)
  | .undefined => some 0
  | .infinite _ => none

def ofInterval (interval : Binary64) : Except Mishap Limiter :=
  if interval.compareInt? 0 = some .lt then .error negativeInterval
  else .ok { interval := units? interval }

/-- What is asked of the limiter. -/
inductive Step where
  /-- A permit is asked for. -/
  | acquire
  /-- A permit is asked for by work that was cancelled before. -/
  | acquireCancelled
  /-- A permit is asked for by work that is cancelled if it has to wait. -/
  | acquireThenCancel
  | close
deriving DecidableEq, Repr

def Step.name : Step → Text
  | acquire => "acquire"
  | acquireCancelled => "acquire_cancelled"
  | acquireThenCancel => "acquire_then_cancel"
  | close => "close"

def Step.ofName? (name : Text) : Option Step :=
  [acquire, acquireCancelled, acquireThenCancel, close].find? fun step => step.name = name

/-- How a step ends. -/
inductive Outcome where
  | done
  /-- There is no permit yet, and the request waits in line. -/
  | waiting
  | cancelled
deriving DecidableEq, Repr

/-- How many permits were taken so far. -/
def granted (limiter : Limiter) : Nat :=
  limiter.earlier + limiter.issue.elim 0 Issue.taken

/-- The issue of permits, which is started if it was not. -/
def started (limiter : Limiter) : Issue :=
  (limiter.issue.getD {}).settle limiter.interval

/-- The limiter after the issue went on until it has to wait. -/
def goOn (limiter : Limiter) (issue : Issue) : Limiter :=
  { limiter with issue := some (issue.settle limiter.interval) }

/-- How a step ends, and the limiter after it. Work that was cancelled before does not queue up. -/
def step (limiter : Limiter) : Step → Outcome × Limiter
  | .acquire =>
      let issue := limiter.started
      if issue.filled then (.done, limiter.goOn issue.take)
      else (.waiting, limiter.goOn issue.queueUp)
  | .acquireCancelled => (.cancelled, limiter.goOn limiter.started)
  | .acquireThenCancel =>
      let issue := limiter.started
      if issue.filled then (.done, limiter.goOn issue.take)
      else (.cancelled, limiter.goOn issue.queueUp.leaveLine)
  | .close => (.done, { limiter with issue := none, earlier := limiter.granted })

def elapse (limiter : Limiter) (time : Nat) : Limiter :=
  { limiter with issue := limiter.issue.map (Issue.elapse limiter.interval time) }

/-- How steps end that come after some time each. -/
def run (limiter : Limiter) : List (Nat × Step) → List Outcome
  | [] => []
  | (time, step) :: rest =>
      let (outcome, next) := (limiter.elapse time).step step
      outcome :: run next rest

/-- The limiter after steps that come after some time each. -/
def after (limiter : Limiter) (steps : List (Nat × Step)) : Limiter :=
  steps.foldl (fun known (time, step) => ((known.elapse time).step step).2) limiter

end Limiter
end Almanac.Remote
