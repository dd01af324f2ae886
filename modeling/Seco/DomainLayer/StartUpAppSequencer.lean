import Mathlib.Data.List.Induction
import Seco.General.OperationQueues
import Seco.General.Settling
import Seco.DomainLayer.MainFlowCoordinator

namespace Seco

open Runs

inductive ConcurrentOperation.State where
  | ready
  | executing
  | finished
  deriving DecidableEq

def ConcurrentOperation.State.keyPath : ConcurrentOperation.State → String
  | .ready => "isReady"
  | .executing => "isExecuting"
  | .finished => "isFinished"

-- `observed` is what the observers of `isFinished` read when they were last told of a change
structure ConcurrentOperation where
  state : ConcurrentOperation.State := .ready
  observed : Bool := false
  deriving DecidableEq

namespace ConcurrentOperation

def isReady (superIsReady : Bool) (operation : ConcurrentOperation) : Bool :=
  superIsReady && operation.state == .ready

def isExecuting (operation : ConcurrentOperation) : Bool := operation.state == .executing

def isFinished (operation : ConcurrentOperation) : Bool := operation.state == .finished

def didChangeValue (key : String) (operation : ConcurrentOperation) : ConcurrentOperation :=
  if key = "isFinished" then { operation with observed := operation.isFinished } else operation

def setState (newValue : State) (operation : ConcurrentOperation) : ConcurrentOperation :=
  (({ operation with state := newValue }).didChangeValue operation.state.keyPath).didChangeValue
    newValue.keyPath

def Observed (operation : ConcurrentOperation) : Prop :=
  operation.observed = operation.isFinished

variable {operation : ConcurrentOperation} {newValue : State}

@[simp] theorem setState_state : (operation.setState newValue).state = newValue := by
  cases newValue <;> cases h : operation.state <;>
    simp [setState, didChangeValue, State.keyPath, h]

@[simp] theorem isFinished_setState :
    (operation.setState newValue).isFinished = (newValue == .finished) := by
  simp [isFinished]

-- a change to or from `finished` names the key its observers wait for
theorem Observed.setState (h : operation.Observed) : (operation.setState newValue).Observed := by
  cases newValue <;> cases hs : operation.state <;>
    simp_all [Observed, ConcurrentOperation.setState, didChangeValue, State.keyPath, isFinished]

end ConcurrentOperation

inductive StartUpOperation where
  | requestNotificationPermissionOp
  | presentMainAppOperation
  deriving DecidableEq

inductive StartUpCall where
  | requestAuthorization
  | authorized
  | start (keyWindow : Bool)
  deriving DecidableEq

structure StartUp where
  operation : StartUpOperation → ConcurrentOperation := fun _ => {}
  started : List StartUpOperation := []
  mainQueue : List StartUpOperation := []
  authorizing : Nat := 0
  keyWindow : Bool
  rootViewController : Bool := false
  viewControllers : List ViewController := []
  onGetIssueSubscription : Nat := 0
  calls : List StartUpCall := []

inductive StartUpEvent where
  | startOperation (operation : StartUpOperation)
  | runBlock
  | requestAuthorization (granted error : Bool)
  | window (isKey : Bool)
  deriving DecidableEq

def StartUpEvent.own : StartUpEvent → Bool
  | .window _ => false
  | _ => true

namespace StartUpAppSequencer

def operations : List StartUpOperation :=
  [.requestNotificationPermissionOp, .presentMainAppOperation]

def addDependency (dependencies : StartUpOperation → List StartUpOperation)
    (operation dependency : StartUpOperation) : StartUpOperation → List StartUpOperation :=
  Function.update dependencies operation (dependencies operation ++ [dependency])

def dependencies : StartUpOperation → List StartUpOperation :=
  addDependency (fun _ => []) .presentMainAppOperation .requestNotificationPermissionOp

def start (keyWindow : Bool) : StartUp := { keyWindow := keyWindow }

end StartUpAppSequencer

namespace StartUp

open StartUpAppSequencer

def superIsReady (s : StartUp) (operation : StartUpOperation) : Bool :=
  (dependencies operation).all fun dependency => (s.operation dependency).observed

def finish (operation : StartUpOperation) (s : StartUp) : StartUp :=
  { s with
    operation := Function.update s.operation operation
      ((s.operation operation).setState .finished) }

-- `main()` of either operation only dispatches its block to the main queue
def main (operation : StartUpOperation) (s : StartUp) : StartUp :=
  { s with mainQueue := s.mainQueue ++ [operation] }

def presentTransactionsList (s : StartUp) : StartUp :=
  let subscribed := { s with onGetIssueSubscription := s.onGetIssueSubscription + 1 }
  if s.keyWindow then
    { subscribed with viewControllers := [.routesVC], rootViewController := true }
  else subscribed

def coordinatorStart (s : StartUp) : StartUp :=
  presentTransactionsList { s with calls := s.calls ++ [.start s.keyWindow] }

def block (s : StartUp) : StartUpOperation → StartUp
  | .requestNotificationPermissionOp =>
    { s with authorizing := s.authorizing + 1, calls := s.calls ++ [.requestAuthorization] }
  | .presentMainAppOperation => s.coordinatorStart.finish .presentMainAppOperation

-- the handler looks at neither the answer nor the error
def completion (_granted _error : Bool) (s : StartUp) : StartUp :=
  finish .requestNotificationPermissionOp { s with calls := s.calls ++ [.authorized] }

def step (s : StartUp) : StartUpEvent → Option StartUp
  | .startOperation operation =>
    if operation ∈ operations ∧ operation ∉ s.started ∧
        (s.operation operation).isReady (s.superIsReady operation) = true then
      some ({ s with started := operation :: s.started }.main operation)
    else none
  | .runBlock =>
    match s.mainQueue with
    | [] => none
    | operation :: mainQueue => some ({ s with mainQueue := mainQueue }.block operation)
  | .requestAuthorization granted error =>
    match s.authorizing with
    | 0 => none
    | authorizing + 1 => some ({ s with authorizing := authorizing }.completion granted error)
  | .window isKey => some { s with keyWindow := isKey }

def stage (s : StartUp) (operation : StartUpOperation) : OperationQueues.Stage :=
  if (s.operation operation).isFinished then .done
  else if operation ∈ s.started then .running
  else .pending

def inFlight (s : StartUp) : StartUpOperation → Nat
  | .requestNotificationPermissionOp =>
    s.mainQueue.count .requestNotificationPermissionOp + s.authorizing
  | .presentMainAppOperation => s.mainQueue.count .presentMainAppOperation

structure Consistent (s : StartUp) : Prop where
  observed : ∀ operation, (s.operation operation).Observed
  executing : ∀ operation, (s.operation operation).isExecuting = false
  started : ∀ operation, (s.operation operation).isFinished = true → operation ∈ s.started
  ordered : OperationQueues.Ordered dependencies s.stage
  running : ∀ operation,
    s.inFlight operation = if s.stage operation = .running then 1 else 0
  calls : s.calls =
    (if s.authorizing = 1 ∨ s.stage .requestNotificationPermissionOp = .done then
      [.requestAuthorization] else []) ++
    (if s.stage .requestNotificationPermissionOp = .done then [.authorized] else []) ++
    (if s.stage .presentMainAppOperation = .done then [.start s.rootViewController] else [])
  root : s.viewControllers = if s.rootViewController then [.routesVC] else []
  presented : s.rootViewController = true → s.stage .presentMainAppOperation = .done
  subscriptions : s.onGetIssueSubscription =
    if s.stage .presentMainAppOperation = .done then 1 else 0

variable {s t : StartUp} {operation other : StartUpOperation}

theorem stage_eq_done :
    s.stage operation = .done ↔ (s.operation operation).isFinished = true := by
  rw [stage]
  split
  · simp_all
  · split <;> simp_all

theorem stage_eq_pending : s.stage operation = .pending ↔
    (s.operation operation).isFinished = false ∧ operation ∉ s.started := by
  rw [stage]
  split
  · simp_all
  · split <;> simp_all

theorem stage_finish :
    (s.finish operation).stage = Function.update s.stage operation .done := by
  funext other
  by_cases h : other = operation
  · subst h
    simp [stage, finish]
  · have hs : (s.finish operation).operation other = s.operation other :=
      Function.update_of_ne h _ _
    rw [Function.update_of_ne h, stage, hs]
    rfl

theorem stage_main (h : (s.operation operation).isFinished = false) :
    (({ s with started := operation :: s.started } : StartUp).main operation).stage =
      Function.update s.stage operation .running := by
  funext other
  by_cases ho : other = operation
  · subst ho
    simp [stage, main, h]
  · simp [stage, main, ho]

theorem Consistent.ready_iff (h : s.Consistent) :
    (s.operation operation).isReady (s.superIsReady operation) = true ↔
      (∀ dependency ∈ dependencies operation, s.stage dependency = .done) ∧
        (s.operation operation).isFinished = false := by
  have hstate : (s.operation operation).state = .ready ↔
      (s.operation operation).isFinished = false := by
    have he := h.executing operation
    cases hs : (s.operation operation).state <;>
      simp_all [ConcurrentOperation.isExecuting, ConcurrentOperation.isFinished]
  have hobserved : ∀ dependency, (s.operation dependency).observed = true ↔
      s.stage dependency = .done := by
    intro dependency
    rw [stage_eq_done, h.observed dependency]
  simp [ConcurrentOperation.isReady, superIsReady, hstate, hobserved]

theorem step_startOperation (h : s.Consistent) :
    s.step (.startOperation operation) = some t ↔
      OperationQueues.step operations dependencies s.stage (.start operation) = some t.stage ∧
        t = ({ s with started := operation :: s.started } : StartUp).main operation := by
  rw [step, OperationQueues.step_start, stage_eq_pending]
  constructor
  · intro hs
    split at hs
    next hr =>
      obtain ⟨ho, hn, hready⟩ := hr
      obtain ⟨hd, hf⟩ := h.ready_iff.mp hready
      obtain rfl := Option.some.inj hs
      exact ⟨⟨ho, ⟨hf, hn⟩, hd, stage_main hf⟩, rfl⟩
    next => cases hs
  · rintro ⟨⟨ho, ⟨hf, hn⟩, hd, -⟩, rfl⟩
    rw [if_pos ⟨ho, hn, h.ready_iff.mpr ⟨hd, hf⟩⟩]

theorem step_runBlock : s.step .runBlock = some t ↔
    ∃ operation mainQueue, s.mainQueue = operation :: mainQueue ∧
      t = ({ s with mainQueue := mainQueue } : StartUp).block operation := by
  rw [step]
  split
  next h => simp [h]
  next operation mainQueue h =>
    constructor
    · intro hs
      exact ⟨operation, mainQueue, h, (Option.some.inj hs).symm⟩
    · rintro ⟨operation', mainQueue', h', rfl⟩
      obtain ⟨rfl, rfl⟩ := List.cons.inj (h.symm.trans h')
      rfl

theorem step_requestAuthorization {granted error : Bool} :
    s.step (.requestAuthorization granted error) = some t ↔
      ∃ authorizing, s.authorizing = authorizing + 1 ∧
        t = ({ s with authorizing := authorizing } : StartUp).completion granted error := by
  rw [step]
  split
  next h => simp [h]
  next authorizing h => simp [h, eq_comm]

theorem consistent_start (keyWindow : Bool) : (StartUpAppSequencer.start keyWindow).Consistent where
  observed := fun _ => rfl
  executing := fun _ => rfl
  started := by simp [StartUpAppSequencer.start, ConcurrentOperation.isFinished]
  ordered := fun operation h => absurd (stage_eq_pending.mpr ⟨rfl, by simp [start]⟩) h
  running := fun operation => by cases operation <;> rfl
  calls := rfl
  root := rfl
  presented := by simp [StartUpAppSequencer.start]
  subscriptions := rfl

theorem Consistent.running_of_inFlight (h : s.Consistent) (hp : 0 < s.inFlight operation) :
    s.stage operation = .running ∧ s.inFlight operation = 1 := by
  have ho := h.running operation
  split at ho
  next hr => exact ⟨hr, ho⟩
  next => omega

theorem Consistent.authorized_of_present (h : s.Consistent)
    (hp : s.stage .presentMainAppOperation ≠ .pending) :
    s.stage .requestNotificationPermissionOp = .done :=
  h.ordered _ hp _ (by simp [dependencies, addDependency])

theorem Consistent.present_pending (h : s.Consistent)
    (hr : s.stage .requestNotificationPermissionOp ≠ .done) :
    s.stage .presentMainAppOperation = .pending := by
  by_contra hp
  exact hr (h.authorized_of_present hp)

theorem inFlight_main : (({ s with started := operation :: s.started } : StartUp).main
    operation).inFlight other = s.inFlight other + if other = operation then 1 else 0 := by
  cases other <;> cases operation <;> simp [inFlight, main]; omega

theorem Consistent.startOperation (h : s.Consistent)
    (ht : s.step (.startOperation operation) = some t) : t.Consistent := by
  obtain ⟨ha, rfl⟩ := (step_startOperation h).mp ht
  obtain ⟨-, hp, -, hstage⟩ := OperationQueues.step_start.mp ha
  have hdone : ∀ other, Function.update s.stage operation .running other = .done ↔
      s.stage other = .done := by
    intro other
    by_cases ho : other = operation
    · simp [ho, hp]
    · simp [Function.update_of_ne ho]
  refine ⟨h.observed, h.executing, fun other hf => ?_, OperationQueues.step_ordered ha h.ordered,
    fun other => ?_, ?_, h.root, fun hr => ?_, ?_⟩
  · exact List.mem_cons_of_mem _ (h.started other hf)
  · have ho := h.running other
    rw [hstage, inFlight_main, ho]
    by_cases hoo : other = operation
    · simp [hoo, hp]
    · simp [hoo]
  · rw [hstage]
    simp only [hdone]
    exact h.calls
  · rw [hstage, hdone]
    exact h.presented hr
  · rw [hstage]
    simp only [hdone]
    exact h.subscriptions

theorem forall_finish {P : ConcurrentOperation → Prop} (h : ∀ other, P (s.operation other))
    (hf : P ((s.operation operation).setState .finished)) (other : StartUpOperation) :
    P ((s.finish operation).operation other) := by
  simp only [finish, Function.update_apply]
  split
  · exact hf
  · exact h other

variable {mainQueue : List StartUpOperation} {authorizing : Nat}

theorem Consistent.requestBlock (h : s.Consistent)
    (hq : s.mainQueue = .requestNotificationPermissionOp :: mainQueue) :
    (({ s with mainQueue := mainQueue } : StartUp).block
      .requestNotificationPermissionOp).Consistent := by
  have hin : s.inFlight .requestNotificationPermissionOp =
      mainQueue.count .requestNotificationPermissionOp + 1 + s.authorizing := by
    simp [inFlight, hq]
  obtain ⟨hr, h1⟩ := h.running_of_inFlight (by omega :
    0 < s.inFlight .requestNotificationPermissionOp)
  have ha : s.authorizing = 0 := by omega
  have hp := h.present_pending (by simp [hr])
  have hcalls := h.calls
  simp only [ha, hr, hp] at hcalls
  refine ⟨h.observed, h.executing, h.started, h.ordered, fun other => ?_, ?_, h.root,
    h.presented, h.subscriptions⟩
  · refine Eq.trans ?_ (h.running other)
    cases other <;> simp [inFlight, block, hq]
    omega
  · have hstage : (({ s with mainQueue := mainQueue } : StartUp).block
        .requestNotificationPermissionOp).stage = s.stage := rfl
    rw [hstage, hr, hp]
    simp [block, ha, hcalls]

@[simp] theorem coordinatorStart_eq : s.coordinatorStart =
    { s with
      calls := s.calls ++ [.start s.keyWindow]
      onGetIssueSubscription := s.onGetIssueSubscription + 1
      viewControllers := if s.keyWindow then [.routesVC] else s.viewControllers
      rootViewController := s.keyWindow || s.rootViewController } := by
  cases h : s.keyWindow <;> simp [coordinatorStart, presentTransactionsList, h]

theorem Consistent.finished (h : s.Consistent) (hr : s.stage operation = .running)
    (ht : t.operation = (s.finish operation).operation) (hst : t.started = s.started) :
    t.stage = Function.update s.stage operation .done ∧
      (∀ other, (t.operation other).Observed) ∧
      (∀ other, (t.operation other).isExecuting = false) ∧
      (∀ other, (t.operation other).isFinished = true → other ∈ t.started) ∧
      OperationQueues.Ordered dependencies t.stage := by
  have hstage : t.stage = Function.update s.stage operation .done := by
    rw [← stage_finish]
    funext other
    simp only [stage, ht, hst]
    rfl
  have hstep : OperationQueues.step operations dependencies s.stage (.finish operation) =
      some t.stage :=
    OperationQueues.step_finish.mpr ⟨by cases operation <;> simp [operations], hr, hstage⟩
  refine ⟨hstage, ?_, ?_, fun other hf => ?_, OperationQueues.step_ordered hstep h.ordered⟩
  · rw [ht]
    exact forall_finish h.observed (h.observed operation).setState
  · rw [ht]
    exact forall_finish (P := fun operation => operation.isExecuting = false) h.executing
      (by simp [ConcurrentOperation.isExecuting])
  · rw [hst]
    by_cases ho : other = operation
    · subst ho
      by_contra hn
      simp [stage, hn] at hr
      split at hr <;> cases hr
    · rw [ht] at hf
      exact h.started other (by simpa [finish, Function.update_of_ne ho] using hf)

theorem Consistent.presentBlock (h : s.Consistent)
    (hq : s.mainQueue = .presentMainAppOperation :: mainQueue) :
    (({ s with mainQueue := mainQueue } : StartUp).block
      .presentMainAppOperation).Consistent := by
  have hin : s.inFlight .presentMainAppOperation =
      mainQueue.count .presentMainAppOperation + 1 := by
    simp [inFlight, hq]
  obtain ⟨hp, h1⟩ := h.running_of_inFlight (by omega : 0 < s.inFlight .presentMainAppOperation)
  have hr := h.authorized_of_present (by simp [hp])
  have hroot : s.rootViewController = false := by
    by_contra hn
    have hd := h.presented (by simpa using hn)
    simp [hp] at hd
  obtain ⟨hstage, hob, hex, hst, hord⟩ :=
    h.finished (t := ({ s with mainQueue := mainQueue } : StartUp).block .presentMainAppOperation)
      hp (by simp [block, finish]) (by simp [block, finish])
  refine ⟨hob, hex, hst, hord, fun other => ?_, ?_, ?_, fun _ => ?_, ?_⟩
  · rw [hstage]
    have ho := h.running other
    cases other
    · rw [Function.update_of_ne (by decide), ← ho]
      simp [inFlight, block, finish, hq]
    · have h0 : mainQueue.count .presentMainAppOperation = 0 := by omega
      simp [inFlight, block, finish, h0]
  · rw [hstage]
    have hc := h.calls
    simp [hr, hp] at hc
    simp [hr, hc, block, finish, hroot]
  · have hv := h.root
    simp [hroot] at hv
    simp [block, finish, hroot, hv]
  · rw [hstage]
    simp
  · rw [hstage]
    have hs := h.subscriptions
    simp [hp] at hs
    simp [block, finish, hs]

theorem Consistent.completion (h : s.Consistent) (ha : s.authorizing = authorizing + 1)
    (granted error : Bool) :
    (({ s with authorizing := authorizing } : StartUp).completion granted error).Consistent := by
  have hin : s.inFlight .requestNotificationPermissionOp =
      s.mainQueue.count .requestNotificationPermissionOp + (authorizing + 1) := by
    simp [inFlight, ha]
  obtain ⟨hr, h1⟩ := h.running_of_inFlight (by omega :
    0 < s.inFlight .requestNotificationPermissionOp)
  have hp := h.present_pending (by simp [hr])
  have h0 : authorizing = 0 := by omega
  subst h0
  obtain ⟨hstage, hob, hex, hst, hord⟩ :=
    h.finished (t := ({ s with authorizing := 0 } : StartUp).completion granted error)
      hr (by simp [StartUp.completion, finish]) (by simp [StartUp.completion, finish])
  refine ⟨hob, hex, hst, hord, fun other => ?_, ?_, h.root, fun hroot => ?_, ?_⟩
  · rw [hstage]
    have ho := h.running other
    cases other
    · simp [inFlight, StartUp.completion, finish]
      omega
    · rw [Function.update_of_ne (by decide), ← ho]
      simp [inFlight, StartUp.completion, finish]
  · rw [hstage]
    have hc := h.calls
    simp [hr, hp, ha] at hc
    simp [hp, hc, StartUp.completion, finish]
  · have hd := h.presented hroot
    simp [hp] at hd
  · rw [hstage]
    exact h.subscriptions.trans (by simp [hp])

theorem step_consistent {event : StartUpEvent} (h : s.Consistent)
    (ht : s.step event = some t) : t.Consistent := by
  cases event with
  | startOperation operation => exact h.startOperation ht
  | runBlock =>
    obtain ⟨operation, mainQueue, hq, rfl⟩ := step_runBlock.mp ht
    cases operation with
    | requestNotificationPermissionOp => exact h.requestBlock hq
    | presentMainAppOperation => exact h.presentBlock hq
  | requestAuthorization granted error =>
    obtain ⟨authorizing, ha, rfl⟩ := step_requestAuthorization.mp ht
    exact h.completion ha granted error
  | window isKey =>
    obtain rfl := Option.some.inj ht
    exact ⟨h.observed, h.executing, h.started, h.ordered, h.running, h.calls, h.root,
      h.presented, h.subscriptions⟩

theorem run_consistent {es : List StartUpEvent} {keyWindow : Bool}
    (h : run step es (StartUpAppSequencer.start keyWindow) = some t) : t.Consistent :=
  run_invariant (fun _ _ _ => step_consistent) (consistent_start keyWindow) h

def steps : StartUpOperation → Nat
  | .requestNotificationPermissionOp => 2
  | .presentMainAppOperation => 1

def allSteps : List StartUpOperation → Nat
  | [] => 0
  | operation :: rest => steps operation + allSteps rest

theorem allSteps_concat (queue : List StartUpOperation) :
    allSteps (queue ++ [operation]) = allSteps queue + steps operation := by
  induction queue with
  | nil => simp [allSteps]
  | cons head queue ih =>
    simp only [List.cons_append, allSteps, ih]
    omega

def unstarted (started : List StartUpOperation) (operation : StartUpOperation) : Nat :=
  if operation ∈ started then 0 else steps operation + 1

def work (s : StartUp) : Nat :=
  unstarted s.started .requestNotificationPermissionOp +
    unstarted s.started .presentMainAppOperation + allSteps s.mainQueue + s.authorizing

theorem step_work {event : StartUpEvent} (h : s.Consistent) (ht : s.step event = some t) :
    (if event.own then 1 else 0) + t.work = s.work + 0 := by
  cases event with
  | startOperation operation =>
    obtain ⟨ha, rfl⟩ := (step_startOperation h).mp ht
    obtain ⟨-, hp, -, -⟩ := OperationQueues.step_start.mp ha
    have hn := (stage_eq_pending.mp hp).2
    cases operation <;>
      simp [work, unstarted, main, StartUpEvent.own, hn, steps, allSteps_concat] <;> omega
  | runBlock =>
    obtain ⟨operation, mainQueue, hq, rfl⟩ := step_runBlock.mp ht
    cases operation <;>
      simp [work, block, finish, StartUpEvent.own, hq, allSteps, steps] <;> omega
  | requestAuthorization granted error =>
    obtain ⟨authorizing, ha, rfl⟩ := step_requestAuthorization.mp ht
    simp [work, completion, finish, StartUpEvent.own, ha]
    omega
  | window isKey =>
    obtain rfl := Option.some.inj ht
    simp [work, StartUpEvent.own]

theorem acyclic : WellFounded fun dependency operation => dependency ∈ dependencies operation := by
  have hsub : Subrelation (fun dependency operation => dependency ∈ dependencies operation)
      (InvImage (· < ·) fun operation : StartUpOperation => 3 - steps operation) := by
    intro dependency operation hd
    cases dependency <;> cases operation <;> simp_all [dependencies, addDependency, InvImage, steps]
  exact hsub.wf (InvImage.wf _ wellFounded_lt)

theorem progress (h : s.Consistent) (hn : ¬ OperationQueues.Complete operations s.stage) :
    ∃ event t, event.own = true ∧ s.step event = some t := by
  have hc : ∀ operation ∈ operations, ∀ dependency ∈ dependencies operation,
      dependency ∈ operations := by
    intro _ _ dependency _
    cases dependency <;> simp [operations]
  obtain ⟨event, stage, ha⟩ := OperationQueues.progress acyclic hc hn
  cases event with
  | start operation =>
    obtain ⟨ho, hp, hd, -⟩ := OperationQueues.step_start.mp ha
    have hf := (stage_eq_pending.mp hp).1
    refine ⟨.startOperation operation, _, rfl, (step_startOperation h).mpr ⟨?_, rfl⟩⟩
    exact OperationQueues.step_start.mpr ⟨ho, hp, hd, stage_main hf⟩
  | finish operation =>
    obtain ⟨-, hr, -⟩ := OperationQueues.step_finish.mp ha
    have hin := h.running operation
    rw [if_pos hr] at hin
    cases hq : s.mainQueue with
    | cons head mainQueue =>
      exact ⟨.runBlock, _, rfl, step_runBlock.mpr ⟨head, mainQueue, hq, rfl⟩⟩
    | nil =>
      cases operation with
      | requestNotificationPermissionOp =>
        have ha : s.authorizing = 0 + 1 := by simpa [inFlight, hq] using hin
        exact ⟨.requestAuthorization true false, _, rfl,
          step_requestAuthorization.mpr ⟨0, ha, rfl⟩⟩
      | presentMainAppOperation => simp [inFlight, hq] at hin

theorem Consistent.calls_cases (h : s.Consistent) :
    s.calls = [] ∨ s.calls = [.requestAuthorization] ∨
      s.calls = [.requestAuthorization, .authorized] ∨
      s.calls = [.requestAuthorization, .authorized, .start s.rootViewController] := by
  have hcalls := h.calls
  by_cases hr : s.stage .requestNotificationPermissionOp = .done
  · by_cases hp : s.stage .presentMainAppOperation = .done
    · simp [hcalls, hr, hp]
    · simp [hcalls, hr, hp]
  · have hp := h.present_pending hr
    by_cases ha : s.authorizing = 1
    · simp [hcalls, hr, hp, ha]
    · simp [hcalls, hr, hp, ha]

theorem Consistent.complete (h : s.Consistent)
    (hc : OperationQueues.Complete operations s.stage) :
    s.calls = [.requestAuthorization, .authorized, .start s.rootViewController] ∧
      s.mainQueue = [] ∧ s.authorizing = 0 := by
  have hr := hc .requestNotificationPermissionOp (by simp [operations])
  have hp := hc .presentMainAppOperation (by simp [operations])
  have hir := h.running .requestNotificationPermissionOp
  have hip := h.running .presentMainAppOperation
  simp only [inFlight, hr, hp, reduceCtorEq, if_false, Nat.add_eq_zero_iff,
    List.count_eq_zero] at hir hip
  refine ⟨by simpa [hr, hp] using h.calls, ?_, hir.2⟩
  refine List.eq_nil_iff_forall_not_mem.mpr fun operation => ?_
  cases operation with
  | requestNotificationPermissionOp => exact hir.1
  | presentMainAppOperation => exact hip

theorem Consistent.complete_iff (h : s.Consistent) :
    OperationQueues.Complete operations s.stage ↔ s.work = 0 := by
  constructor
  · intro hc
    obtain ⟨-, hq, ha⟩ := h.complete hc
    have hst : ∀ operation, operation ∈ s.started := fun operation =>
      h.started operation (stage_eq_done.mp (hc operation (by cases operation <;> simp [operations])))
    simp [work, unstarted, allSteps, hq, ha, hst]
  · intro hw
    by_contra hn
    obtain ⟨event, t, ho, ht⟩ := progress h hn
    have hs := step_work h ht
    rw [if_pos ho] at hs
    omega

theorem settling : Settling step StartUpEvent.own (fun _ => 0) work Consistent where
  keeps := step_consistent
  balance := step_work
  outside _ := rfl
  progress h hw := progress h fun hc => hw (h.complete_iff.mp hc)

theorem step_rootViewController {event : StartUpEvent} (ht : s.step event = some t) :
    t.rootViewController = true ↔ s.rootViewController = true ∨
      (event = .runBlock ∧ s.mainQueue.head? = some .presentMainAppOperation ∧
        s.keyWindow = true) := by
  cases event with
  | startOperation operation =>
    rw [step] at ht
    split at ht
    · obtain rfl := Option.some.inj ht
      simp [main]
    · cases ht
  | runBlock =>
    obtain ⟨operation, mainQueue, hq, rfl⟩ := step_runBlock.mp ht
    cases operation <;> simp [block, finish, hq, or_comm]
  | requestAuthorization granted error =>
    obtain ⟨authorizing, -, rfl⟩ := step_requestAuthorization.mp ht
    simp [completion, finish]
  | window isKey =>
    obtain rfl := Option.some.inj ht
    simp

def Presents (es : List StartUpEvent) (s : StartUp) : Prop :=
  ∃ earlier later u, es = earlier ++ .runBlock :: later ∧ run step earlier s = some u ∧
    u.mainQueue.head? = some .presentMainAppOperation ∧ u.keyWindow = true

theorem presents_concat {es : List StartUpEvent} {event : StartUpEvent} {u : StartUp}
    (hu : run step es s = some u) : Presents (es ++ [event]) s ↔ Presents es s ∨
      (event = .runBlock ∧ u.mainQueue.head? = some .presentMainAppOperation ∧
        u.keyWindow = true) := by
  constructor
  · rintro ⟨earlier, later, v, he, hv, hh, hk⟩
    cases later using List.reverseRecOn with
    | nil =>
      obtain ⟨rfl, hlast⟩ := List.append_inj' he rfl
      obtain rfl : u = v := Option.some.inj (hu.symm.trans hv)
      exact .inr ⟨(List.cons.inj hlast).1, hh, hk⟩
    | append_singleton later last _ =>
      rw [← List.cons_append, ← List.append_assoc] at he
      exact .inl ⟨earlier, later, v, (List.append_inj' he rfl).1, hv, hh, hk⟩
  · rintro (⟨earlier, later, v, rfl, hv, hh, hk⟩ | ⟨rfl, hh, hk⟩)
    · exact ⟨earlier, later ++ [event], v, by simp, hv, hh, hk⟩
    · exact ⟨es, [], u, rfl, hu, hh, hk⟩

theorem run_rootViewController {es : List StartUpEvent} {keyWindow : Bool}
    (h : run step es (StartUpAppSequencer.start keyWindow) = some t) :
    t.rootViewController = true ↔ Presents es (StartUpAppSequencer.start keyWindow) := by
  induction es using List.reverseRecOn generalizing t with
  | nil =>
    obtain rfl := Option.some.inj h
    simp [Presents, StartUpAppSequencer.start]
  | append_singleton es event ih =>
    obtain ⟨u, hu, ht⟩ := run_concat.mp h
    rw [step_rootViewController ht, ih hu, presents_concat hu]

theorem start_presents_after_authorization {es : List StartUpEvent} {keyWindow : Bool}
    (h : run step es (StartUpAppSequencer.start keyWindow) = some t) :
    t.calls <+: [.requestAuthorization, .authorized, .start t.rootViewController] ∧
      (t.viewControllers = [.routesVC] ↔ Presents es (StartUpAppSequencer.start keyWindow)) ∧
      t.onGetIssueSubscription ≤ 1 ∧
      ∀ operation, (t.operation operation).isExecuting = false := by
  have hc : t.Consistent := run_consistent h
  refine ⟨?_, ?_, ?_, hc.executing⟩
  · rcases hc.calls_cases with he | he | he | he <;> simp [he]
  · rw [← run_rootViewController h, hc.root]
    cases t.rootViewController <;> simp
  · rw [hc.subscriptions]
    split <;> omega

def launch : List StartUpEvent :=
  [.startOperation .requestNotificationPermissionOp, .runBlock, .requestAuthorization false true,
    .window true, .startOperation .presentMainAppOperation, .runBlock]

theorem start_presents_launch :
    ∃ t, run step launch (StartUpAppSequencer.start false) = some t ∧
      t.calls <+: [.requestAuthorization, .authorized, .start true] ∧
      t.viewControllers = [.routesVC] ∧ Presents launch (StartUpAppSequencer.start false) ∧
      t.onGetIssueSubscription ≤ 1 ∧
      ∀ operation, (t.operation operation).isExecuting = false := by
  have hrun : run step launch (StartUpAppSequencer.start false) = some _ := rfl
  obtain ⟨hcalls, hpresents, hsubscription, hexecuting⟩ := start_presents_after_authorization hrun
  exact ⟨_, hrun, hcalls, rfl, hpresents.mp rfl, hsubscription, hexecuting⟩

theorem start_completes {es : List StartUpEvent} {keyWindow : Bool}
    (h : run step es (StartUpAppSequencer.start keyWindow) = some t) :
    es.countP StartUpEvent.own ≤ 5 ∧
      ((∀ event, event.own = true → t.step event = none) ↔ es.countP StartUpEvent.own = 5) ∧
      (es.countP StartUpEvent.own = 5 →
        t.calls = [.requestAuthorization, .authorized, .start t.rootViewController] ∧
          t.mainQueue = [] ∧ t.authorizing = 0 ∧
          ∀ operation, (t.operation operation).isFinished = true) := by
  have hc : t.Consistent := run_consistent h
  have hw : es.countP StartUpEvent.own + t.work = 5 + (es.map fun _ => 0).sum :=
    settling.run (consistent_start keyWindow) h
  have hnone : (es.map fun _ => 0).sum = 0 := by simp
  have hz : es.countP StartUpEvent.own = 5 ↔ t.work = 0 := by omega
  refine ⟨by omega, ?_, fun h5 => ?_⟩
  · rw [hz, settling.at_rest_iff hc]
  · have hdone := hc.complete_iff.mpr (hz.mp h5)
    obtain ⟨hcalls, hq, ha⟩ := hc.complete hdone
    refine ⟨hcalls, hq, ha, fun operation => stage_eq_done.mp (hdone operation ?_)⟩
    cases operation <;> simp [operations]

theorem start_completes_launch :
    ∃ t, run step launch (StartUpAppSequencer.start false) = some t ∧
      launch.countP StartUpEvent.own = 5 ∧ (∀ event, event.own = true → t.step event = none) ∧
      t.calls = [.requestAuthorization, .authorized, .start true] ∧
      t.mainQueue = [] ∧ t.authorizing = 0 ∧
      ∀ operation, (t.operation operation).isFinished = true := by
  have hrun : run step launch (StartUpAppSequencer.start false) = some _ := rfl
  obtain ⟨-, hrest, hdone⟩ := start_completes hrun
  exact ⟨_, hrun, rfl, hrest.mpr rfl, hdone rfl⟩

end StartUp

end Seco
