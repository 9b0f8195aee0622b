import NextTime.Library.LabelledRun
import NextTime.Library.OwnProperties

/-
The file of Handle bindings and the calls that change it. A step goes from one await to the
next; between two of them other calls take theirs, containers start and stop, and Docker looks.
-/

namespace NextTime.WorkerSupervisor

open OwnProperties (assign without)

structure HandleBinding where
  handle : String
  sourceId : String
  containerId : Option String
  boundAt : Nat
deriving DecidableEq

/-- A binding as `bindExclusive` takes it: always for a container. -/
structure NewBinding where
  handle : String
  sourceId : String
  containerId : String
deriving DecidableEq

/-- A binding in memory: which object it is, besides what it holds. -/
structure Bound where
  object : Nat
  binding : HandleBinding
deriving DecidableEq

abbrev Entry := String × Bound

inductive BindingsFile
  | missing
  | invalid
  | holds (bindings : List (String × HandleBinding))
deriving DecidableEq

/-- `loadBindings`: a file that cannot be loaded is treated as empty. -/
def loadBindings : BindingsFile → List (String × HandleBinding)
  | .missing => []
  | .invalid => []
  | .holds bindings => bindings

def plain (bindings : List Entry) : List (String × HandleBinding) :=
  bindings.map fun entry => (entry.1, entry.2.binding)

/-- A `bindExclusive` that waits for Docker: what it read, and the answer once it is given. -/
structure BindCall where
  ip : String
  binding : NewBinding
  read : Bound
  holder : String
  answer : Option Bool
deriving DecidableEq

/-- A `retainLive` that waits for the first of the bindings left to judge. -/
structure RetainCall where
  left : List Entry
  dead : List Entry
deriving DecidableEq

inductive CallResult
  | waits
  | returned
  | threw
deriving DecidableEq

/-- `made` records every binding object, at its number; `gone` where Docker did not find a
container or a container stopped. -/
structure Supervisor where
  file : BindingsFile
  bindings : List Entry
  made : List Entry
  binds : List BindCall
  retains : List RetainCall
  runs : List (String × String)
  gone : List (String × String)
  result : CallResult

namespace Supervisor

variable (state : Supervisor)

/-- `commit`: the file is written first, and only then the view in memory is replaced. -/
def commit (lands : Bool) (next : List Entry) : Supervisor :=
  if lands then
    { state with file := .holds (plain next), bindings := next, result := .returned }
  else { state with result := .threw }

/-- `store.bind`. -/
def bind (ip : String) (binding : NewBinding) (now : Nat) (lands : Bool) : Supervisor :=
  let bound : Bound :=
    ⟨state.made.length, ⟨binding.handle, binding.sourceId, some binding.containerId, now⟩⟩
  { state with made := state.made ++ [(ip, bound)] }.commit lands (assign ip bound state.bindings)

/-- Who holds the address in the view, unless it is the container itself. -/
def holderOf (ip containerId : String) : Option (Bound × String) :=
  (state.bindings.lookup ip).bind fun bound =>
    bound.binding.containerId.bind fun holder =>
      if holder = containerId then none else some (bound, holder)

/-- `bindExclusive`, up to its await, or to its end when nobody holds the address. -/
def bindExclusive (ip : String) (binding : NewBinding) (now : Nat) (lands : Bool) : Supervisor :=
  match state.holderOf ip binding.containerId with
  | some (bound, holder) =>
      { state with
        binds := state.binds ++ [⟨ip, binding, bound, holder, none⟩], result := .waits }
  | none => state.bind ip binding now lands

/-- Docker looks where the holder runs. -/
def inspect (call : BindCall) : Option Supervisor :=
  if call ∈ state.binds ∧ call.answer = none then
    let isAt := decide ((call.holder, call.ip) ∈ state.runs)
    some { state with
      binds := state.binds.erase call ++ [{ call with answer := some isAt }]
      gone := if isAt then state.gone else state.gone ++ [(call.holder, call.ip)]
      result := .waits }
  else none

/-- `bindExclusive` behind its await: the address is held, or is bound. -/
def goOn (call : BindCall) (now : Nat) (lands : Bool) : Option Supervisor :=
  if call ∈ state.binds then
    let state := { state with binds := state.binds.erase call }
    match call.answer with
    | some true => some { state with result := .threw }
    | some false => some (state.bind call.ip call.binding now lands)
    | none => none
  else none

def unbind (ip containerId : String) (lands : Bool) : Supervisor :=
  match state.bindings.lookup ip with
  | none => { state with result := .returned }
  | some bound =>
      if bound.binding.containerId ≠ none ∧ bound.binding.containerId ≠ some containerId then
        { state with result := .returned }
      else state.commit lands (without ip state.bindings)

/-- The addresses that still hold the very binding that was judged. -/
def droppedOf (dead : List Entry) : List String :=
  (dead.filter fun entry =>
    decide ((state.bindings.lookup entry.1).map Bound.object = some entry.2.object)).map Prod.fst

/-- `retainLive` behind its last await. -/
def drop (dead : List Entry) (lands : Bool) : Supervisor :=
  if state.droppedOf dead = [] then { state with result := .returned }
  else
    state.commit lands
      (state.bindings.filter fun entry => decide (entry.1 ∉ state.droppedOf dead))

/-- `retainLive`, up to its first await. -/
def retainLive (lands : Bool) : Supervisor :=
  if state.bindings = [] then state.drop [] lands
  else { state with retains := state.retains ++ [⟨state.bindings, []⟩], result := .waits }

/-- `isLive` answers for the first of the bindings that are left. -/
def judge (call : RetainCall) (isLive lands : Bool) : Option Supervisor :=
  if call ∈ state.retains then
    match call.left with
    | [] => none
    | entry :: left =>
        let dead := if isLive then call.dead else call.dead ++ [entry]
        let state := { state with retains := state.retains.erase call }
        if left = [] then some (state.drop dead lands)
        else some { state with retains := state.retains ++ [⟨left, dead⟩], result := .waits }
  else none

end Supervisor

inductive SupervisorLabel
  | bindExclusive (ip : String) (binding : NewBinding) (now : Nat) (lands : Bool)
  | inspect (call : BindCall)
  | goOn (call : BindCall) (now : Nat) (lands : Bool)
  | inspectFails (call : BindCall)
  | unbind (ip containerId : String) (lands : Bool)
  | retainLive (lands : Bool)
  | judge (call : RetainCall) (isLive lands : Bool)
  | judgeFails (call : RetainCall)
  | start (containerId ip : String)
  | stop (containerId ip : String)

def Supervisor.step (state : Supervisor) : SupervisorLabel → Option Supervisor
  | .bindExclusive ip binding now lands => some (state.bindExclusive ip binding now lands)
  | .inspect call => state.inspect call
  | .goOn call now lands => state.goOn call now lands
  | .inspectFails call =>
      if call ∈ state.binds then
        some { state with binds := state.binds.erase call, result := .threw }
      else none
  | .unbind ip containerId lands => some (state.unbind ip containerId lands)
  | .retainLive lands => some (state.retainLive lands)
  | .judge call isLive lands => state.judge call isLive lands
  | .judgeFails call =>
      if call ∈ state.retains then
        some { state with retains := state.retains.erase call, result := .threw }
      else none
  | .start containerId ip =>
      -- Where a container is not running, it never runs again.
      if (containerId, ip) ∈ state.gone then none
      else some { state with runs := state.runs ++ [(containerId, ip)], result := .waits }
  | .stop containerId ip =>
      some { state with
        runs := state.runs.filter fun place => decide (place ≠ (containerId, ip))
        gone := state.gone ++ [(containerId, ip)]
        result := .waits }

/-- The entries of a file, each a new object. -/
def numbered (number : Nat) : List (String × HandleBinding) → List Entry
  | [] => []
  | (ip, binding) :: bindings => (ip, ⟨number, binding⟩) :: numbered (number + 1) bindings

/-- `createHandleBindingStore`, for any file and any containers running. -/
def Supervisor.started (file : BindingsFile) (runs : List (String × String)) : Supervisor where
  file := file
  bindings := numbered 0 (loadBindings file)
  made := numbered 0 (loadBindings file)
  binds := []
  retains := []
  runs := runs
  gone := []
  result := .waits

def handleBindings : LabelledRun.System Supervisor SupervisorLabel where
  initial state := ∃ file runs, ((loadBindings file).map Prod.fst).Nodup ∧
    state = Supervisor.started file runs
  step := Supervisor.step

end NextTime.WorkerSupervisor
