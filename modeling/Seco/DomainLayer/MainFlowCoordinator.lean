import Seco.General.Runs
import Seco.ViewLayer.FormView

namespace Seco

open Program

structure Form where
  id : Nat
  issueUI : IssueUI
  isWrongFilled : Bool := false
  deriving DecidableEq

inductive ViewController where
  | routesVC
  | formVC (form : Form)
  deriving DecidableEq

def ViewController.form : ViewController → Option Nat
  | .routesVC => none
  | .formVC form => some form.id

@[simp] theorem ViewController.form_routesVC : ViewController.routesVC.form = none := rfl

@[simp] theorem ViewController.form_formVC (form : Form) :
    (ViewController.formVC form).form = some form.id := rfl

def popViewController : List ViewController → List ViewController
  | [] => []
  | [root] => [root]
  | _ :: below => below

-- `saved` and `left` record the forms whose OK was accepted and those left with Back
structure MainFlowCoordinator where
  world : World Main
  viewControllers : List ViewController := [.routesVC]
  presented : Nat := 0
  saved : List Nat := []
  left : List Nat := []

inductive UserEvent where
  | accessoryTap (route : String)
  | edit (issueUI : IssueUI)
  | ok
  | back
  | runBlock (now : Date)
  deriving DecidableEq

namespace MainFlowCoordinator

def withMain (f : Main → Main) (s : MainFlowCoordinator) : MainFlowCoordinator :=
  { s with world := { s.world with client := f s.world.client } }

def dequeued (queue : List Block) (s : MainFlowCoordinator) : MainFlowCoordinator :=
  s.withMain fun main => { main with queue := queue }

def presentIssue (now : Date) (s : MainFlowCoordinator) (issue : Issue) : MainFlowCoordinator :=
  { s with
    viewControllers := .formVC ⟨s.presented, IssueUI.initIssue now issue, false⟩ ::
      s.viewControllers
    presented := s.presented + 1 }

def sinkIssues (now : Date) (s : MainFlowCoordinator) : MainFlowCoordinator :=
  s.world.client.view.onGetIssueInternalPublisher.foldl (presentIssue now)
    (s.withMain fun main =>
      { main with view := { main.view with onGetIssueInternalPublisher := [] } })

-- a form's own subscription pops whatever is on top
def dismissed (s : MainFlowCoordinator) : MainFlowCoordinator :=
  { s with viewControllers := popViewController s.viewControllers }

def runBlock (now : Date) (s : MainFlowCoordinator) : Block → MainFlowCoordinator
  | .fetchedIssue route issue =>
    sinkIssues now (s.withMain fun main =>
      { main with view := RoutesPresenter.fetchedIssue route issue main.view })
  | .dismiss _ => s.dismissed

variable (count : String → Nat) (c : Call)

def edited (issueUI : IssueUI) (form : Form) : Form :=
  { form with issueUI := { issueUI with route := form.issueUI.route } }

def accepted (form : Form) (below : List ViewController) (isWrongFilled : Bool)
    (world : World Main) (s : MainFlowCoordinator) : MainFlowCoordinator :=
  { s with
    world := world
    viewControllers := .formVC { form with isWrongFilled := isWrongFilled } :: below
    saved := if isWrongFilled then s.saved else form.id :: s.saved }

def step (s : MainFlowCoordinator) : UserEvent → Option MainFlowCoordinator
  | .accessoryTap route =>
    match (RoutesPresenter.fetchIssue c route).run s.world with
    | .ok ((), world) => some { s with world := world }
    | .error _ => none
  | .edit issueUI =>
    match s.viewControllers with
    | .formVC form :: below =>
      some { s with viewControllers := .formVC (edited issueUI form) :: below }
    | _ => none
  | .ok =>
    match s.viewControllers with
    | .formVC form :: below =>
      match (FormView.action count c form.id form.issueUI).run s.world with
      | .ok (isWrongFilled, world) => some (s.accepted form below isWrongFilled world)
      | .error _ => none
    | _ => none
  | .back =>
    match s.viewControllers with
    | .formVC form :: below =>
      some { s with viewControllers := below, left := form.id :: s.left }
    | _ => none
  | .runBlock now =>
    match s.world.client.queue with
    | [] => none
    | block :: queue => some ((s.dequeued queue).runBlock now block)

variable {count c} {s t : MainFlowCoordinator}

theorem step_accessoryTap {route : String} (hi : Idle c s.world)
    (h : step count c s (.accessoryTap route) = some t) :
    t = { s with world := s.world.fetching route } := by
  obtain ⟨id, hw⟩ := hi
  simpa [step, (fetchIssue_run hw route : _ = _), eq_comm] using h

theorem step_edit {issueUI : IssueUI} (h : step count c s (.edit issueUI) = some t) :
    ∃ form below, s.viewControllers = .formVC form :: below ∧
      t = { s with viewControllers := .formVC (edited issueUI form) :: below } := by
  simp only [step] at h
  split at h
  next form below hv => exact ⟨form, below, hv, (Option.some.inj h).symm⟩
  next => cases h

theorem step_ok (hi : Idle c s.world) (hc : c.commits = true)
    (h : step count c s .ok = some t) :
    ∃ form below, s.viewControllers = .formVC form :: below ∧
      (t = s.accepted form below true s.world ∨
        t = s.accepted form below false
          (s.world.saved form.id (Issue.initIssueUI form.issueUI))) := by
  obtain ⟨id, hw⟩ := hi
  simp only [step] at h
  split at h
  next form below hv =>
    refine ⟨form, below, hv, ?_⟩
    cases hf : FormView.isFormProperlyFilled count form.issueUI with
    | false =>
      rw [(action_rejects hf : _ = _)] at h
      exact .inl (Option.some.inj h).symm
    | true =>
      rw [(action_run hw hc hf : _ = _)] at h
      exact .inr (Option.some.inj h).symm
  next => cases h

theorem step_ok_accepts {id : Nat} {form : Form} {below : List ViewController}
    (hv : s.viewControllers = .formVC form :: below) (hw : Held c id none s.world)
    (hc : c.commits = true) (hf : FormView.isFormProperlyFilled count form.issueUI = true) :
    step count c s .ok = some (s.accepted form below false
      (s.world.saved form.id (Issue.initIssueUI form.issueUI))) := by
  simp only [step, hv]
  rw [(action_run hw hc hf : _ = _)]

theorem step_back (h : step count c s .back = some t) :
    ∃ form below, s.viewControllers = .formVC form :: below ∧
      t = { s with viewControllers := below, left := form.id :: s.left } := by
  simp only [step] at h
  split at h
  next form below hv => exact ⟨form, below, hv, (Option.some.inj h).symm⟩
  next => cases h

theorem step_runBlock {now : Date} (h : step count c s (.runBlock now) = some t) :
    ∃ block queue, s.world.client.queue = block :: queue ∧
      t = (s.dequeued queue).runBlock now block := by
  simp only [step] at h
  split at h
  next => cases h
  next block queue hq => exact ⟨block, queue, hq, (Option.some.inj h).symm⟩

theorem runBlock_fetchedIssue {now : Date} {route : String} {issue : Option Issue}
    {queue : List Block} (hp : s.world.client.view.onGetIssueInternalPublisher = []) :
    (s.dequeued queue).runBlock now (.fetchedIssue route issue) =
      presentIssue now ((s.dequeued queue).withMain fun main => { main with
        view := { main.view.removeActivityIndicator with onGetIssueInternalPublisher := [] } })
        (RoutesPresenter.uwpIssue route issue) := by
  simp [runBlock, sinkIssues, dequeued, withMain, RoutesPresenter.fetchedIssue,
    RoutesVC.onGetIssue, RoutesVC.removeActivityIndicator, hp]

end MainFlowCoordinator

end Seco
