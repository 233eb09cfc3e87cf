/-
**The executor hooks.**

Two globals follow the statements that a backend executes: the stack of planned statements, pushed
when a statement starts and popped when it ends, and the frames of wrapped index scans. An error that
leaves a run, and the abort callbacks, clean up without knowing which statements they are for.

* `Session.step`: what the server does (start, run, end, subtransactions, aborts, in any nesting) and
  what the hooks do with it.
-/
import TurboHybrid.Library.Transition

namespace TurboHybrid.Executor

/-! ### Plan states and their wrappers -/

structure LimitState where
  noCount : Bool
  count : Int
  offset : Int
  deriving DecidableEq

def getLimitTupleTarget : Option LimitState → Int
  | none => -1
  | some limit =>
    if limit.noCount ∨ limit.count < 0 then -1
    else if 0 < limit.offset then limit.count + limit.offset else limit.count

/-- An index scan: its address, its executor function and whether its index is of this access
method. -/
structure IndexScanState where
  planstate : Nat
  execProcNode : Nat
  usesPgturbohybrid : Bool

/-- The plan states that the controller tells apart. -/
inductive PlanState where
  | null
  | limit (state : LimitState) (outer : PlanState)
  | indexScan (scan : IndexScanState) (outer inner : PlanState)
  | append (plans : List PlanState)
  | mergeAppend (plans : List PlanState)
  | result (noQual : Bool) (outer : PlanState)
  | subqueryScan (noQual : Bool) (subplan : PlanState)
  | gather (outer : PlanState)
  | gatherMerge (outer : PlanState)
  | other (outer inner : PlanState)

structure WrapperState where
  address : Nat
  planstate : Nat
  originalExecProcNode : Nat
  limitstate : Option LimitState
  deriving DecidableEq

/-- The wrapper states of a frame. Frames differ in their address, so each is told by the statement
it is pushed for. -/
structure WrapperFrame where
  queryDesc : Nat
  ownedWrapperStates : List WrapperState
  deriving DecidableEq

mutual

/-- The index scans of a plan that get a wrapper, with the limit above them. The addresses of the
wrapper states are the allocator's. -/
def wrapControlledIndexScans (palloc : Nat → Nat) :
    PlanState → Option LimitState → List WrapperState
  | .null, _ => []
  | .limit state outer, _ => wrapControlledIndexScans palloc outer (some state)
  | .indexScan scan outer inner, limitstate =>
    (if scan.usesPgturbohybrid then
      [⟨palloc scan.planstate, scan.planstate, scan.execProcNode, limitstate⟩] else []) ++
      (wrapControlledIndexScans palloc outer none ++ wrapControlledIndexScans palloc inner none)
  | .append plans, limitstate => wrapPlans palloc plans limitstate
  | .mergeAppend plans, limitstate => wrapPlans palloc plans limitstate
  | .result noQual outer, limitstate =>
    wrapControlledIndexScans palloc outer (if noQual then limitstate else none)
  | .subqueryScan noQual subplan, limitstate =>
    wrapControlledIndexScans palloc subplan (if noQual then limitstate else none)
  | .gather outer, limitstate => wrapControlledIndexScans palloc outer limitstate
  | .gatherMerge outer, limitstate => wrapControlledIndexScans palloc outer limitstate
  | .other outer inner, _ =>
    wrapControlledIndexScans palloc outer none ++ wrapControlledIndexScans palloc inner none

def wrapPlans (palloc : Nat → Nat) : List PlanState → Option LimitState → List WrapperState
  | [], _ => []
  | plan :: rest, limitstate =>
    wrapControlledIndexScans palloc plan limitstate ++ wrapPlans palloc rest limitstate

end

/-! ### The globals -/

structure QueryDesc where
  address : Nat
  plannedstmt : Nat
  deriving DecidableEq

/-- The globals of the hooks. The stack of planned statements has the newest one first, the frames
have it last. -/
structure Backend where
  plannedstmtStack : List (Option Nat)
  currentPlannedstmt : Option Nat
  execWrapperStates : List WrapperState
  execWrapperFrames : List WrapperFrame
  disableExecutorController : Bool

namespace Backend

def pushPlannedStmt (backend : Backend) (plannedstmt : Nat) : Backend :=
  { backend with
    plannedstmtStack := backend.currentPlannedstmt :: backend.plannedstmtStack
    currentPlannedstmt := some plannedstmt }

def popPlannedStmt (backend : Backend) : Backend :=
  match backend.plannedstmtStack with
  | [] => { backend with currentPlannedstmt := none }
  | previous :: rest =>
    { backend with plannedstmtStack := rest, currentPlannedstmt := previous }

def clearPlannedStmtStack (backend : Backend) : Backend :=
  { backend with plannedstmtStack := [], currentPlannedstmt := none }

def amExecutorStart (backend : Backend) (queryDesc : QueryDesc) : Backend :=
  backend.pushPlannedStmt queryDesc.plannedstmt

def amExecutorEnd (backend : Backend) : Backend := backend.popPlannedStmt

def amExecutorAbort (backend : Backend) : Backend := backend.clearPlannedStmtStack

def deleteWrapperState (states : List WrapperState) (state : WrapperState) : List WrapperState :=
  states.eraseP fun other => other.address == state.address

/-- The last frame is removed, whichever statement it is of. -/
def restorePrevious (backend : Backend) : Backend :=
  match backend.execWrapperFrames.getLast? with
  | none => { backend with execWrapperStates := [] }
  | some frame =>
    { backend with
      execWrapperStates := frame.ownedWrapperStates.foldl deleteWrapperState
        backend.execWrapperStates
      execWrapperFrames := backend.execWrapperFrames.dropLast }

/-- The frame of a statement and the scans that are wrapped for it. -/
def pushFrame (backend : Backend) (queryDesc : Nat) (wrapped : List WrapperState) : Backend :=
  { backend with
    execWrapperStates := backend.execWrapperStates ++ wrapped
    execWrapperFrames := backend.execWrapperFrames ++ [⟨queryDesc, wrapped⟩] }

def graphExecutorStart (backend : Backend) (queryDesc : Nat) (palloc : Nat → Nat)
    (plan : PlanState) : Backend :=
  if backend.disableExecutorController then backend
  else backend.pushFrame queryDesc (wrapControlledIndexScans palloc plan none)

def graphExecutorEnd (backend : Backend) : Backend := backend.restorePrevious

def executorEndHook (backend : Backend) : Backend := backend.graphExecutorEnd.amExecutorEnd

def executorRunCatch (backend : Backend) : Backend := backend.restorePrevious.amExecutorAbort

def findWrapperState (backend : Backend) (planstate : Nat) : Except String WrapperState :=
  match backend.execWrapperStates.find? fun state => state.planstate == planstate with
  | some state => .ok state
  | none => .error "missing pgturbohybrid graph scan wrapper state"

/-- A wrapped scan runs its original function under the limit of its own wrapper state. -/
def execIndexScanWithController (backend : Backend) (planstate : Nat) : Except String (Nat × Int) :=
  match backend.findWrapperState planstate with
  | .ok state => .ok (state.originalExecProcNode, getLimitTupleTarget state.limitstate)
  | .error message => .error message

end Backend

/-! ### The server -/

/-- Where a call of the executor stands: in the start hook, in the run hook or in neither. -/
inductive Phase where
  | starting
  | outside
  | running
  deriving DecidableEq

/-- A statement that is started and not ended, with the depth of its subtransaction and the scans
wrapped for it. -/
structure OpenStatement where
  queryDesc : QueryDesc
  level : Nat
  wrapped : Option (List WrapperState)

/-- A statement that is being executed, with the depth of the subtransaction of its call. -/
structure Call where
  queryDesc : QueryDesc
  phase : Phase
  level : Nat

/-- A backend: the globals of the hooks, the open statements (the newest first), the calls of the
executor (the innermost first) and the depth of the subtransaction. -/
structure Session where
  backend : Backend
  opened : List OpenStatement
  calls : List Call
  level : Nat

/-- Where an error is raised: the start hook cleans up by itself when it fails to push or to wrap. -/
inductive Raised where
  | elsewhere
  | pushing
  | wrapping (palloc : Nat → Nat) (plan : PlanState) (count : Nat)

inductive Action where
  | setDisable (disable : Bool)
  | start (queryDesc : QueryDesc)
  | started (palloc : Nat → Nat) (plan : PlanState)
  | run (address : Nat)
  | finishRun
  | pause
  | finish (address : Nat)
  | beginSub
  | commitSub
  | abortSub (raised : Raised)
  | abort (raised : Raised)

namespace Session

def idle (disable : Bool) : Session := ⟨⟨[], none, [], [], disable⟩, [], [], 0⟩

def wrappers (session : Session) : List WrapperState :=
  session.opened.flatMap fun statement => statement.wrapped.getD []

def Fresh (session : Session) (states : List WrapperState) : Prop :=
  ((session.wrappers ++ states).map WrapperState.address).Nodup ∧
    ((session.wrappers ++ states).map WrapperState.planstate).Nodup

instance (session : Session) (states : List WrapperState) : Decidable (session.Fresh states) :=
  inferInstanceAs (Decidable (_ ∧ _))

/-- What the start hook does around the step that fails. -/
def handle (session : Session) : Raised → Option Backend
  | .elsewhere => some session.backend
  | .pushing => some session.backend.amExecutorAbort
  | .wrapping palloc plan count =>
    let states := (wrapControlledIndexScans palloc plan none).take count
    match session.calls with
    | ⟨queryDesc, .starting, _⟩ :: _ =>
      if session.backend.disableExecutorController ∨ ¬session.Fresh states then none
      else some (session.backend.pushFrame queryDesc.address states).restorePrevious
    | _ => none

def leaveCall (backend : Backend) (call : Call) : Backend :=
  match call.phase with
  | .starting => backend.amExecutorEnd
  | .outside => backend
  | .running => backend.executorRunCatch

def left (session : Session) (level : Nat) : List Call :=
  session.calls.filter fun call => level ≤ call.level

/-- The statements that an abort down to a depth keeps open: those started further out and not in
use. -/
def survivors (session : Session) (level : Nat) : List OpenStatement :=
  session.opened.filter fun statement => statement.level < level ∧
    ¬(session.left level).any fun call => call.queryDesc.address == statement.queryDesc.address

/-- An abort down to a depth: the error leaves the calls, and the callback clears the stack. -/
def abortTo (session : Session) (level : Nat) (raised : Raised) : Option Session :=
  (session.handle raised).map fun backend =>
    ⟨((session.left level).foldl leaveCall backend).clearPlannedStmtStack,
      session.survivors level, session.calls.filter fun call => call.level < level, level - 1⟩

/-- The statement of an address is executed by some call. -/
def inUse (session : Session) (address : Nat) : Bool :=
  session.calls.any fun call => call.queryDesc.address == address

/-- The innermost call is of the statement and not in a hook. -/
def atRest (session : Session) (address : Nat) : Bool :=
  session.calls.head?.any fun call => call.queryDesc.address == address && call.phase == .outside

/-- The statement is open and nothing is wrapped for it yet. -/
def unwrapped (session : Session) (address : Nat) : Bool :=
  session.opened.any fun statement =>
    statement.queryDesc.address == address && statement.wrapped.isNone

def setWrapped (statements : List OpenStatement) (address : Nat)
    (wrapped : Option (List WrapperState)) : List OpenStatement :=
  statements.map fun statement =>
    if statement.queryDesc.address = address then { statement with wrapped } else statement

def wrappedFor (session : Session) (palloc : Nat → Nat) (plan : PlanState) :
    Option (List WrapperState) :=
  if session.backend.disableExecutorController then none
  else some (wrapControlledIndexScans palloc plan none)

/-- One step of a backend, where the server allows it. -/
def step (session : Session) : Action → Option Session
  | .setDisable disable =>
    some { session with backend := { session.backend with disableExecutorController := disable } }
  | .start queryDesc =>
    if session.opened.any fun statement => statement.queryDesc.address == queryDesc.address then none
    else some { session with
      backend := session.backend.amExecutorStart queryDesc
      opened := ⟨queryDesc, session.level, none⟩ :: session.opened
      calls := ⟨queryDesc, .starting, session.level⟩ :: session.calls }
  | .started palloc plan =>
    match session.calls with
    | ⟨queryDesc, .starting, level⟩ :: outer =>
      let wrapped := session.wrappedFor palloc plan
      if session.Fresh (wrapped.getD []) ∧ session.unwrapped queryDesc.address then
        some { session with
          backend := session.backend.graphExecutorStart queryDesc.address palloc plan
          opened := setWrapped session.opened queryDesc.address wrapped
          calls := ⟨queryDesc, .outside, level⟩ :: outer }
      else none
    | _ => none
  | .run address =>
    match session.opened.find? fun statement => statement.queryDesc.address == address with
    | none => none
    | some statement =>
      if session.atRest address then
        some { session with calls := session.calls.modifyHead fun call => { call with phase := .running } }
      else if session.inUse address then none
      else some { session with
        calls := ⟨statement.queryDesc, .running, session.level⟩ :: session.calls }
  | .finishRun =>
    match session.calls with
    | ⟨queryDesc, .running, level⟩ :: outer =>
      some { session with calls := ⟨queryDesc, .outside, level⟩ :: outer }
    | _ => none
  | .pause =>
    match session.calls with
    | ⟨_, .outside, _⟩ :: outer => some { session with calls := outer }
    | _ => none
  | .finish address =>
    if session.opened.any fun statement => statement.queryDesc.address == address then
      if session.atRest address then
        some { session with
          backend := session.backend.executorEndHook
          opened := session.opened.filter fun statement => statement.queryDesc.address ≠ address
          calls := session.calls.tail }
      else if session.inUse address then none
      else some { session with
        backend := session.backend.executorEndHook
        opened := session.opened.filter fun statement => statement.queryDesc.address ≠ address }
    else none
  | .beginSub => some { session with level := session.level + 1 }
  | .commitSub =>
    if 0 < session.level ∧ session.calls.all fun call => call.level < session.level then
      some { session with
        opened := session.opened.map fun statement =>
          { statement with level := min statement.level (session.level - 1) }
        level := session.level - 1 }
    else none
  | .abortSub raised => if 0 < session.level then session.abortTo session.level raised else none
  | .abort raised => session.abortTo 0 raised

/-! ### What the steps do -/

variable {session next : Session}

/-- The steps that concern neither global leave the open statements as they are. -/
def Keeps (session next : Session) : Prop :=
  next.backend = session.backend ∧ next.opened = session.opened

theorem step_start {queryDesc : QueryDesc}
    (stepped : session.step (.start queryDesc) = some next) :
    (∀ statement ∈ session.opened, statement.queryDesc.address ≠ queryDesc.address) ∧
      next.backend = session.backend.amExecutorStart queryDesc ∧
      next.opened = ⟨queryDesc, session.level, none⟩ :: session.opened := by
  simp only [step] at stepped
  split_ifs at stepped with known
  obtain rfl := Option.some.inj stepped
  refine ⟨fun statement member same => known ?_, rfl, rfl⟩
  exact List.any_eq_true.mpr ⟨statement, member, beq_iff_eq.mpr same⟩

theorem step_started {palloc : Nat → Nat} {plan : PlanState}
    (stepped : session.step (.started palloc plan) = some next) :
    ∃ queryDesc level outer, session.calls = ⟨queryDesc, .starting, level⟩ :: outer ∧
      session.Fresh ((session.wrappedFor palloc plan).getD []) ∧
      (∃ statement ∈ session.opened,
        statement.queryDesc.address = queryDesc.address ∧ statement.wrapped = none) ∧
      next.backend = session.backend.graphExecutorStart queryDesc.address palloc plan ∧
      next.opened = setWrapped session.opened queryDesc.address (session.wrappedFor palloc plan) ∧
      next.calls = ⟨queryDesc, .outside, level⟩ :: outer := by
  simp only [step] at stepped
  split at stepped
  · rename_i queryDesc level outer calls
    split_ifs at stepped with allowed
    obtain rfl := Option.some.inj stepped
    obtain ⟨statement, member, waits⟩ := List.any_eq_true.mp allowed.2
    obtain ⟨same, unwrapped⟩ := Bool.and_eq_true_iff.mp waits
    exact ⟨queryDesc, level, outer, calls, allowed.1, ⟨statement, member, beq_iff_eq.mp same,
      Option.isNone_iff_eq_none.mp unwrapped⟩, rfl, rfl, rfl⟩
  · cases stepped

theorem step_run {address : Nat} (stepped : session.step (.run address) = some next) :
    session.Keeps next := by
  simp only [step] at stepped
  split at stepped
  · cases stepped
  · split_ifs at stepped <;> obtain rfl := Option.some.inj stepped <;> exact ⟨rfl, rfl⟩

theorem step_finishRun (stepped : session.step .finishRun = some next) : session.Keeps next := by
  simp only [step] at stepped
  split at stepped
  · obtain rfl := Option.some.inj stepped
    exact ⟨rfl, rfl⟩
  · cases stepped

theorem step_pause (stepped : session.step .pause = some next) : session.Keeps next := by
  simp only [step] at stepped
  split at stepped
  · obtain rfl := Option.some.inj stepped
    exact ⟨rfl, rfl⟩
  · cases stepped

theorem step_finish {address : Nat} (stepped : session.step (.finish address) = some next) :
    (∃ statement ∈ session.opened, statement.queryDesc.address = address) ∧
      next.backend = session.backend.executorEndHook ∧
      next.opened =
        session.opened.filter fun statement => statement.queryDesc.address ≠ address := by
  simp only [step] at stepped
  split_ifs at stepped with there atRest inUse
  all_goals
    obtain rfl := Option.some.inj stepped
    obtain ⟨statement, member, same⟩ := List.any_eq_true.mp there
    exact ⟨⟨statement, member, beq_iff_eq.mp same⟩, rfl, rfl⟩

theorem step_commitSub (stepped : session.step .commitSub = some next) :
    next.backend = session.backend ∧
      next.opened = session.opened.map fun statement =>
        { statement with level := min statement.level (session.level - 1) } := by
  simp only [step] at stepped
  split_ifs at stepped
  obtain rfl := Option.some.inj stepped
  exact ⟨rfl, rfl⟩

theorem step_abortSub {raised : Raised} (stepped : session.step (.abortSub raised) = some next) :
    session.abortTo session.level raised = some next := by
  simp only [step] at stepped
  split_ifs at stepped
  exact stepped

theorem abortTo_eq {level : Nat} {raised : Raised}
    (aborted : session.abortTo level raised = some next) :
    ∃ backend, session.handle raised = some backend ∧
      next.backend = ((session.left level).foldl leaveCall backend).clearPlannedStmtStack ∧
      next.opened = session.survivors level := by
  obtain ⟨backend, handled, rfl⟩ := Option.map_eq_some_iff.mp aborted
  exact ⟨backend, handled, rfl, rfl⟩

theorem survivors_top : session.survivors 0 = [] :=
  List.filter_eq_nil_iff.mpr fun statement _ => by simp

end Session

end TurboHybrid.Executor
