import NextTime.Library.LabelledRun
import Mathlib.Algebra.Order.Floor.Ring
import Mathlib.Data.Rat.Floor

/-
The bound on the upstream calls of one administrator: calls run, wait in order or are
refused, and each is charged when it starts. A step goes from one await to the next.
-/

namespace NextTime.LlmProxy

structure UpstreamCallLimits where
  maxConcurrent : Nat
  maxQueued : Nat
  budget : Nat
  windowMs : ℚ

structure Charge where
  at' : ℚ
  cost : Nat
deriving DecidableEq

/-- A call of `run`, with the state object it holds. -/
structure LimitedCall where
  id : Nat
  object : Nat
  cost : Nat
deriving DecidableEq

structure ActorState where
  running : Nat
  waiting : List LimitedCall
  charges : List Charge

def ActorState.empty : ActorState := ⟨0, [], []⟩

inductive UpstreamCallLimitError
  | busy (retryAfterSeconds : Nat)
  | budget (retryAfterSeconds : Nat)
deriving DecidableEq

/-! ### Charging -/

section
variable (limits : UpstreamCallLimits)

/-- The charges still inside the window. -/
def prune (at' : ℚ) (charges : List Charge) : List Charge :=
  charges.dropWhile fun charge => charge.at' ≤ at' - limits.windowMs

def spentOf (charges : List Charge) : Nat := (charges.map Charge.cost).sum

/-- The earliest moment enough of the window has rolled off for the cost to fit. -/
def retryAt (at' : ℚ) (cost : Nat) (freed : Int) : List Charge → ℚ
  | [] => at' + limits.windowMs
  | charge :: charges =>
      if (cost : Int) ≤ freed + charge.cost then charge.at' + limits.windowMs
      else retryAt at' cost (freed + charge.cost) charges

/-- `Math.max(1, Math.ceil(ms / 1000))`. -/
def secondsOf (ms : ℚ) : Nat := max 1 ⌈ms / 1000⌉.toNat

/-- The cost charged now, or the seconds until the window can take it. -/
def charge (at' : ℚ) (cost : Nat) (state : ActorState) : ActorState × Option Nat :=
  let charges := prune limits at' state.charges
  let spent := spentOf charges
  if limits.budget < spent + cost then
    ({ state with charges := charges },
      some (secondsOf (retryAt limits at' cost ((limits.budget : Int) - spent) charges - at')))
  else ({ state with charges := charges ++ [⟨at', cost⟩] }, none)

/-! ### One actor -/

/-- What the limiter holds for an actor: the state object in the map, the objects made so far,
the calls that were handed a slot and have not gone on, and the calls whose function runs. The
rest records the run: the calls that waited and that got their turn, in order, the functions
started and the calls refused. -/
structure ActorPart where
  current : Option Nat
  objects : List ActorState
  turned : List LimitedCall
  active : List LimitedCall
  calls : Nat
  queued : List LimitedCall
  turns : List LimitedCall
  started : List Charge
  refused : List (LimitedCall × UpstreamCallLimitError)

def ActorPart.new : ActorPart := ⟨none, [], [], [], 0, [], [], [], []⟩

namespace ActorPart

variable (part : ActorPart)

def object (index : Nat) : ActorState := part.objects.getD index .empty

def put (index : Nat) (state : ActorState) : ActorPart :=
  { part with objects := part.objects.set index state }

/-- `stateOf`. -/
def stateOf : ActorPart × Nat :=
  match part.current with
  | some index => (part, index)
  | none =>
      ({ part with
          current := some part.objects.length
          objects := part.objects ++ [.empty] }, part.objects.length)

def forgetIfIdle (index : Nat) : ActorPart :=
  let state := part.object index
  if state.running = 0 ∧ state.waiting = [] ∧ state.charges = [] then { part with current := none }
  else part

/-- `finally`: the slot goes to the first that waits, or is free. -/
def release (index : Nat) : ActorPart :=
  let state := part.object index
  match state.waiting with
  | next :: waiting =>
      { part.put index { state with waiting := waiting } with
        turned := part.turned ++ [next]
        turns := part.turns ++ [next] }.forgetIfIdle index
  | [] => (part.put index { state with running := state.running - 1 }).forgetIfIdle index

/-- A call that holds a slot is charged and starts its function, or is refused. -/
def enter (clock : ℚ) (call : LimitedCall) : ActorPart :=
  match charge limits clock call.cost (part.object call.object) with
  | (state, none) =>
      { part.put call.object state with
        active := part.active ++ [call]
        started := part.started ++ [⟨clock, call.cost⟩] }
  | (state, some seconds) =>
      { part.put call.object state with
        refused := part.refused ++ [(call, UpstreamCallLimitError.budget seconds)] }.release call.object

/-- `run`, up to its first await. -/
def run (clock : ℚ) (cost : Nat) : ActorPart :=
  let (part, index) := part.stateOf
  let state := part.object index
  let call : LimitedCall := ⟨part.calls, index, cost⟩
  let part := { part with calls := part.calls + 1 }
  if limits.maxConcurrent ≤ state.running then
    if limits.maxQueued ≤ state.waiting.length then
      { part with refused := part.refused ++ [(call, UpstreamCallLimitError.busy 5)] }
    else
      { part.put index { state with waiting := state.waiting ++ [call] } with
        queued := part.queued ++ [call] }
  else (part.put index { state with running := state.running + 1 }).enter limits clock call

/-- A call that was handed a slot goes on. -/
def resume (clock : ℚ) (call : LimitedCall) : Option ActorPart :=
  if call ∈ part.turned then
    some ({ part with turned := part.turned.erase call }.enter limits clock call)
  else none

/-- A function ends, by value or by error. -/
def finish (call : LimitedCall) : Option ActorPart :=
  if call ∈ part.active then
    some ({ part with active := part.active.erase call }.release call.object)
  else none

end ActorPart

/-! ### All actors -/

structure Limiter (Actor : Type) where
  clock : ℚ
  parts : Actor → ActorPart

inductive LimiterLabel (Actor : Type)
  | run (actor : Actor) (cost : Nat)
  | resume (actor : Actor) (call : LimitedCall)
  | finish (actor : Actor) (call : LimitedCall)
  | tick (clock : ℚ)

section
variable {Actor : Type} [DecidableEq Actor]

def Limiter.set (limiter : Limiter Actor) (actor : Actor) (part : ActorPart) : Limiter Actor :=
  { limiter with parts := fun other => if other = actor then part else limiter.parts other }

def Limiter.step (limiter : Limiter Actor) : LimiterLabel Actor → Option (Limiter Actor)
  | .run actor cost =>
      some (limiter.set actor ((limiter.parts actor).run limits limiter.clock cost))
  | .resume actor call =>
      ((limiter.parts actor).resume limits limiter.clock call).map (limiter.set actor)
  | .finish actor call => ((limiter.parts actor).finish call).map (limiter.set actor)
  | .tick clock => if limiter.clock ≤ clock then some { limiter with clock := clock } else none

/-- `createUpstreamCallLimiter`: no actor yet, at any time of the clock. -/
def upstreamCallLimiter : LabelledRun.System (Limiter Actor) (LimiterLabel Actor) where
  initial limiter := ∀ actor, limiter.parts actor = .new
  step := Limiter.step limits

end

end

end NextTime.LlmProxy
