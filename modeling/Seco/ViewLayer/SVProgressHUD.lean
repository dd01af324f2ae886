import Mathlib.Data.List.Induction
import Seco.General.Settling
import Seco.ViewLayer.RoutesPresenter

namespace Seco

open Runs

inductive HUDOperation where
  | showProgress
  | dismissWithDelay
  deriving DecidableEq

-- `fadeOuts` are the blocks of `dispatch_after`, `completions` the fade-outs still animating
structure SVProgressHUD where
  mainQueue : List HUDOperation := []
  fadeOuts : Nat := 0
  completions : Nat := 0
  controlView : Bool := false
  superview : Bool := false
  indefiniteAnimatedView : Bool := false
  alpha : Double := 0
  activityCount : Nat := 0

namespace SVProgressHUD

def addOperationWithBlock (operation : HUDOperation) (hud : SVProgressHUD) : SVProgressHUD :=
  { hud with mainQueue := hud.mainQueue ++ [operation] }

def updateViewHierarchy (hud : SVProgressHUD) : SVProgressHUD :=
  { hud with controlView := true, superview := true }

def fadeIn (hud : SVProgressHUD) : SVProgressHUD :=
  if hud.alpha ≠ 1 then { hud with alpha := 1 } else hud

def showProgress (hud : SVProgressHUD) : SVProgressHUD :=
  let hud := hud.updateViewHierarchy
  fadeIn { hud with
    indefiniteAnimatedView := true
    activityCount := hud.activityCount + 1 }

def dismissWithDelay (hud : SVProgressHUD) : SVProgressHUD :=
  { hud with activityCount := 0, fadeOuts := hud.fadeOuts + 1 }

def perform (hud : SVProgressHUD) : HUDOperation → SVProgressHUD
  | .showProgress => hud.showProgress
  | .dismissWithDelay => hud.dismissWithDelay

def fadeOutEffects (hud : SVProgressHUD) : SVProgressHUD :=
  { hud with alpha := 0, completions := hud.completions + 1 }

def completionBlock (hud : SVProgressHUD) : SVProgressHUD :=
  if hud.alpha = 0 then
    { hud with controlView := false, superview := false, indefiniteAnimatedView := false }
  else hud

def isVisible (hud : SVProgressHUD) : Bool := decide (0 < hud.alpha)

-- a dismissal leads to its block, the one it dispatches and the completion of the animation
def blocks : HUDOperation → Nat
  | .showProgress => 1
  | .dismissWithDelay => 3

def pending (hud : SVProgressHUD) : Nat :=
  (hud.mainQueue.map blocks).sum + 2 * hud.fadeOuts + hud.completions

def OnScreen (hud : SVProgressHUD) : Prop :=
  hud.controlView = true ∧ hud.superview = true ∧ hud.indefiniteAnimatedView = true ∧
    hud.isVisible = true

def Removed (hud : SVProgressHUD) : Prop :=
  hud.controlView = false ∧ hud.superview = false ∧ hud.indefiniteAnimatedView = false

end SVProgressHUD

structure RoutesIndicator where
  presenter : RoutesPresenter.Requests := {}
  hud : SVProgressHUD := {}

inductive IndicatorEvent where
  | request (event : RoutesPresenter.Event)
  | runOperation
  | runFadeOut
  | runCompletion

def IndicatorEvent.own : IndicatorEvent → Bool
  | .request _ => false
  | _ => true

inductive AlphaChange where
  | fadeIn
  | fadeOut
  deriving DecidableEq

namespace RoutesIndicator

-- `presentActivityIndicator` and `removeActivityIndicator` of `RoutesVC`
def called : RoutesPresenter.Event → HUDOperation
  | .issue _ => .showProgress
  | .deliver _ _ => .dismissWithDelay

def step (s : RoutesIndicator) : IndicatorEvent → Option RoutesIndicator
  | .request event => (RoutesPresenter.step s.presenter event).map fun presenter =>
      ⟨presenter, s.hud.addOperationWithBlock (called event)⟩
  | .runOperation =>
    match s.hud.mainQueue with
    | [] => none
    | operation :: mainQueue =>
      some { s with hud := { s.hud with mainQueue := mainQueue }.perform operation }
  | .runFadeOut =>
    match s.hud.fadeOuts with
    | 0 => none
    | fadeOuts + 1 => some { s with hud := { s.hud with fadeOuts := fadeOuts }.fadeOutEffects }
  | .runCompletion =>
    match s.hud.completions with
    | 0 => none
    | completions + 1 =>
      some { s with hud := { s.hud with completions := completions }.completionBlock }

def alphaChange (s : RoutesIndicator) : IndicatorEvent → List AlphaChange
  | .runOperation => if s.hud.mainQueue.head? = some .showProgress then [.fadeIn] else []
  | .runFadeOut => [.fadeOut]
  | _ => []

def alphaChanges (es : List IndicatorEvent) : List AlphaChange := collect step alphaChange es {}

def blocks : IndicatorEvent → Nat
  | .request event => SVProgressHUD.blocks (called event)
  | _ => 0

structure Tracks (s : RoutesIndicator) : Prop where
  alpha : s.hud.alpha = 0 ∨ s.hud.alpha = 1
  shown : s.hud.alpha = 1 →
    s.hud.controlView = true ∧ s.hud.superview = true ∧ s.hud.indefiniteAnimatedView = true
  hidden : s.hud.alpha = 0 → s.hud.completions = 0 → s.hud.Removed
  called : ∀ last, s.hud.mainQueue.getLast? = some last →
    last = if s.presenter.view.hud then .showProgress else .dismissWithDelay
  dismissed : s.presenter.view.hud = false → s.hud.mainQueue = [] → s.hud.fadeOuts = 0 →
    s.hud.alpha = 0
  outstanding : s.presenter.view.hud = true → s.presenter.outstanding ≠ []

variable {s t : RoutesIndicator} {e : IndicatorEvent} {es : List IndicatorEvent}

theorem step_request {event : RoutesPresenter.Event} (h : step s (.request event) = some t) :
    ∃ presenter, RoutesPresenter.step s.presenter event = some presenter ∧
      t = ⟨presenter, s.hud.addOperationWithBlock (called event)⟩ := by
  obtain ⟨presenter, hp, rfl⟩ := Option.map_eq_some_iff.mp h
  exact ⟨presenter, hp, rfl⟩

theorem step_runOperation : step s .runOperation = some t ↔
    ∃ operation mainQueue, s.hud.mainQueue = operation :: mainQueue ∧
      t = { s with hud := { s.hud with mainQueue := mainQueue }.perform operation } := by
  rw [step]
  split
  next h => simp [h]
  next operation mainQueue h => simp [h, eq_comm]

theorem step_runFadeOut : step s .runFadeOut = some t ↔
    ∃ fadeOuts, s.hud.fadeOuts = fadeOuts + 1 ∧
      t = { s with hud := { s.hud with fadeOuts := fadeOuts }.fadeOutEffects } := by
  rw [step]
  split
  next h => simp [h]
  next fadeOuts h => simp [h, eq_comm]

theorem step_runCompletion : step s .runCompletion = some t ↔
    ∃ completions, s.hud.completions = completions + 1 ∧
      t = { s with hud := { s.hud with completions := completions }.completionBlock } := by
  rw [step]
  split
  next h => simp [h]
  next completions h => simp [h, eq_comm]

@[simp] theorem showProgress_eq (hud : SVProgressHUD) : hud.showProgress =
    { hud with
      controlView := true
      superview := true
      indefiniteAnimatedView := true
      alpha := 1
      activityCount := hud.activityCount + 1 } := by
  obtain ⟨mainQueue, fadeOuts, completions, controlView, superview, view, alpha, count⟩ := hud
  rw [SVProgressHUD.showProgress, SVProgressHUD.fadeIn]
  split
  · rfl
  · rename_i ha
    have ha' : alpha = 1 := not_not.mp ha
    rw [ha']
    rfl

theorem tracks_init : Tracks {} where
  alpha := .inl rfl
  shown h := by simp at h
  hidden _ _ := ⟨rfl, rfl, rfl⟩
  called _ h := by simp at h
  dismissed _ _ _ := rfl
  outstanding h := by cases h

theorem view_hud_request {presenter next : RoutesPresenter.Requests}
    {event : RoutesPresenter.Event} (h : RoutesPresenter.step presenter event = some next) :
    called event = (if next.view.hud then .showProgress else .dismissWithDelay) ∧
      (next.view.hud = true → next.outstanding ≠ []) := by
  cases event with
  | issue request =>
    obtain rfl := Option.some.inj h
    exact ⟨rfl, fun _ => List.append_ne_nil_of_right_ne_nil _ (List.cons_ne_nil _ _)⟩
  | deliver number response =>
    obtain ⟨request, f, -, hf, rfl⟩ := RoutesPresenter.step_deliver h
    have hv : (RoutesPresenter.delivered number response f presenter).view.hud = false :=
      RoutesPresenter.block_hud hf presenter.view
    simp [called, hv]

theorem step_tracks (hs : Tracks s) (h : step s e = some t) : Tracks t := by
  cases e with
  | request event =>
    obtain ⟨presenter, hp, rfl⟩ := step_request h
    obtain ⟨hcalled, hout⟩ := view_hud_request hp
    exact
      { alpha := hs.alpha
        shown := hs.shown
        hidden := hs.hidden
        called := by simp [SVProgressHUD.addOperationWithBlock, hcalled]
        dismissed := by simp [SVProgressHUD.addOperationWithBlock]
        outstanding := hout }
  | runOperation =>
    obtain ⟨operation, mainQueue, hq, rfl⟩ := step_runOperation.mp h
    have hlast : ∀ last, mainQueue.getLast? = some last →
        last = if s.presenter.view.hud then .showProgress else .dismissWithDelay := by
      intro last hl
      exact hs.called last (by rw [hq, List.getLast?_cons, hl, Option.getD_some])
    cases operation with
    | showProgress =>
      rw [SVProgressHUD.perform, showProgress_eq]
      refine ⟨.inr rfl, fun _ => ⟨rfl, rfl, rfl⟩, fun h0 => absurd h0 one_ne_zero, hlast, ?_,
        hs.outstanding⟩
      intro (hv : s.presenter.view.hud = false) (hm : mainQueue = []) _
      -- the last block queued came with the response that hid the indicator
      have hc := hs.called .showProgress (by rw [hq, hm, List.getLast?_singleton])
      simp [hv] at hc
    | dismissWithDelay =>
      exact ⟨hs.alpha, hs.shown, hs.hidden, hlast, fun _ _ hf => absurd hf (Nat.succ_ne_zero _),
        hs.outstanding⟩
  | runFadeOut =>
    obtain ⟨fadeOuts, -, rfl⟩ := step_runFadeOut.mp h
    exact ⟨.inl rfl, fun h1 => absurd h1 zero_ne_one, fun _ hc => absurd hc (Nat.succ_ne_zero _),
      hs.called, fun _ _ _ => rfl, hs.outstanding⟩
  | runCompletion =>
    obtain ⟨completions, -, rfl⟩ := step_runCompletion.mp h
    rcases hs.alpha with h0 | h1
    · have hc : (SVProgressHUD.completionBlock { s.hud with completions := completions }) =
          { s.hud with
            completions := completions
            controlView := false
            superview := false
            indefiniteAnimatedView := false } := if_pos h0
      rw [hc]
      refine ⟨.inl h0, fun h1 => ?_, fun _ _ => ⟨rfl, rfl, rfl⟩, hs.called, fun _ _ _ => h0,
        hs.outstanding⟩
      exact absurd (h0.symm.trans h1) zero_ne_one
    · have hne : s.hud.alpha ≠ 0 := by rw [h1]; exact one_ne_zero
      have hc : (SVProgressHUD.completionBlock { s.hud with completions := completions }) =
          { s.hud with completions := completions } := if_neg hne
      rw [hc]
      exact ⟨hs.alpha, hs.shown, fun h0 => absurd h0 hne, hs.called, hs.dismissed, hs.outstanding⟩

theorem run_tracks (h : run step es {} = some s) : Tracks s :=
  run_invariant (fun _ _ _ => step_tracks) tracks_init h

theorem Tracks.onScreen_iff (hs : Tracks s) : s.hud.OnScreen ↔ s.hud.alpha = 1 := by
  constructor
  · rintro ⟨-, -, -, hv⟩
    have hpos : 0 < s.hud.alpha := of_decide_eq_true hv
    rcases hs.alpha with h0 | h1
    · exact absurd h0 hpos.ne'
    · exact h1
  · intro h1
    obtain ⟨hc, hv, hi⟩ := hs.shown h1
    exact ⟨hc, hv, hi, by rw [SVProgressHUD.isVisible, h1]; rfl⟩

theorem step_alpha (h : step s e = some t) :
    t.hud.alpha = 1 ↔
      ((alphaChange s e).getLast?.or (if s.hud.alpha = 1 then some .fadeIn else none)) =
        some .fadeIn := by
  cases e with
  | request event =>
    obtain ⟨presenter, -, rfl⟩ := step_request h
    simp [alphaChange, SVProgressHUD.addOperationWithBlock]
  | runOperation =>
    obtain ⟨operation, mainQueue, hq, rfl⟩ := step_runOperation.mp h
    cases operation with
    | showProgress => simp [alphaChange, hq, SVProgressHUD.perform]
    | dismissWithDelay =>
      simp [alphaChange, hq, SVProgressHUD.perform, SVProgressHUD.dismissWithDelay]
  | runFadeOut =>
    obtain ⟨fadeOuts, -, rfl⟩ := step_runFadeOut.mp h
    simp [alphaChange, SVProgressHUD.fadeOutEffects]
  | runCompletion =>
    obtain ⟨completions, -, rfl⟩ := step_runCompletion.mp h
    rw [SVProgressHUD.completionBlock]
    split <;> simp [alphaChange]

theorem run_alpha (h : run step es {} = some s) :
    s.hud.alpha = 1 ↔ (alphaChanges es).getLast? = some .fadeIn := by
  induction es using List.reverseRecOn generalizing s with
  | nil =>
    obtain rfl := Option.some.inj h
    simp [alphaChanges, collect]
  | append_singleton es e ih =>
    obtain ⟨u, hu, he⟩ := run_concat.mp h
    rw [alphaChanges, collect_concat hu, List.getLast?_append, step_alpha he]
    rw [← alphaChanges]
    cases (alphaChange u e).getLast? with
    | none => simp [ih hu]
    | some change => simp

theorem indicator_on_screen (h : run step es {} = some s) (hq : s.hud.mainQueue = [])
    (hf : s.hud.fadeOuts = 0) :
    (s.hud.OnScreen ↔
      s.presenter.view.hud = true ∧ (alphaChanges es).getLast? = some .fadeIn) ∧
    ((s.hud.OnScreen ↔ s.presenter.outstanding ≠ []) ↔
      if s.presenter.view.hud then (alphaChanges es).getLast? = some .fadeIn
      else s.presenter.outstanding = []) := by
  have ht : Tracks s := run_tracks h
  rw [ht.onScreen_iff, run_alpha h]
  cases hv : s.presenter.view.hud with
  | false =>
    have hlast : ¬ (alphaChanges es).getLast? = some .fadeIn := by
      intro hl
      have h1 : s.hud.alpha = 1 := (run_alpha h).mpr hl
      exact zero_ne_one ((ht.dismissed hv hq hf).symm.trans h1)
    simp [hlast]
  | true => simp [ht.outstanding hv]

-- the request of the second tap is shown before the fade-out for the first runs
def overtaken : List IndicatorEvent :=
  [.request (.issue .fetchRoutes), .runOperation, .request (.deliver 0 (.routes (.ok []))),
    .runOperation, .request (.issue (.fetchStopPoint 1)), .runOperation, .runFadeOut,
    .runCompletion]

theorem indicator_on_screen_overtaken : ∃ s, run step overtaken {} = some s ∧
    s.presenter.view.hud = true ∧ s.presenter.outstanding ≠ [] ∧ ¬ s.hud.OnScreen := by
  refine ⟨_, rfl, rfl, by decide, fun hs => ?_⟩
  have hrun : run step overtaken {} = some _ := rfl
  have hlast := ((indicator_on_screen hrun rfl rfl).1.mp hs).2
  exact absurd hlast (by decide)

theorem pending_addOperationWithBlock (operation : HUDOperation) (hud : SVProgressHUD) :
    (hud.addOperationWithBlock operation).pending =
      hud.pending + SVProgressHUD.blocks operation := by
  simp [SVProgressHUD.addOperationWithBlock, SVProgressHUD.pending]
  omega

theorem pending_perform (operation : HUDOperation) (hud : SVProgressHUD) :
    1 + (hud.perform operation).pending = hud.pending + SVProgressHUD.blocks operation := by
  cases operation with
  | showProgress =>
    simp [SVProgressHUD.perform, SVProgressHUD.pending, SVProgressHUD.blocks]
    omega
  | dismissWithDelay =>
    simp [SVProgressHUD.perform, SVProgressHUD.dismissWithDelay, SVProgressHUD.pending,
      SVProgressHUD.blocks]
    omega

theorem pending_completionBlock (hud : SVProgressHUD) :
    hud.completionBlock.pending = hud.pending := by
  rw [SVProgressHUD.completionBlock]
  split <;> rfl

theorem step_pending (h : step s e = some t) :
    (if e.own then 1 else 0) + t.hud.pending = s.hud.pending + blocks e := by
  cases e with
  | request event =>
    obtain ⟨presenter, -, rfl⟩ := step_request h
    simpa [IndicatorEvent.own, blocks] using pending_addOperationWithBlock (called event) s.hud
  | runOperation =>
    obtain ⟨operation, mainQueue, hq, rfl⟩ := step_runOperation.mp h
    have hp := pending_perform operation { s.hud with mainQueue := mainQueue }
    simp only [IndicatorEvent.own, if_true, blocks, hp]
    simp [SVProgressHUD.pending, hq]
    omega
  | runFadeOut =>
    obtain ⟨fadeOuts, hf, rfl⟩ := step_runFadeOut.mp h
    simp [SVProgressHUD.pending, hf, SVProgressHUD.fadeOutEffects, IndicatorEvent.own, blocks]
    omega
  | runCompletion =>
    obtain ⟨completions, hc, rfl⟩ := step_runCompletion.mp h
    simp only [IndicatorEvent.own, if_true, blocks, pending_completionBlock]
    simp [SVProgressHUD.pending, hc]
    omega

theorem pending_eq_zero : s.hud.pending = 0 ↔
    s.hud.mainQueue = [] ∧ s.hud.fadeOuts = 0 ∧ s.hud.completions = 0 := by
  cases hq : s.hud.mainQueue with
  | nil =>
    simp only [SVProgressHUD.pending, hq, List.map_nil, List.sum_nil, true_and]
    omega
  | cons operation mainQueue =>
    cases operation <;> simp [SVProgressHUD.pending, hq, SVProgressHUD.blocks]

theorem progress (hs : s.hud.pending ≠ 0) : ∃ e t, e.own = true ∧ step s e = some t := by
  cases hq : s.hud.mainQueue with
  | cons operation mainQueue =>
    exact ⟨.runOperation, _, rfl, step_runOperation.mpr ⟨operation, mainQueue, hq, rfl⟩⟩
  | nil =>
    cases hf : s.hud.fadeOuts with
    | succ fadeOuts => exact ⟨.runFadeOut, _, rfl, step_runFadeOut.mpr ⟨fadeOuts, hf, rfl⟩⟩
    | zero =>
      cases hc : s.hud.completions with
      | succ completions =>
        exact ⟨.runCompletion, _, rfl, step_runCompletion.mpr ⟨completions, hc, rfl⟩⟩
      | zero => exact absurd (pending_eq_zero.mpr ⟨hq, hf, hc⟩) hs

theorem settling :
    Settling step IndicatorEvent.own blocks (fun s => s.hud.pending) Tracks where
  keeps := step_tracks
  balance _ h := step_pending h
  outside {e} ho := by
    cases e with
    | request event => cases ho
    | _ => rfl
  progress _ hs := progress hs

theorem Tracks.on_or_removed (hs : Tracks s) (hp : s.hud.pending = 0) :
    s.hud.OnScreen ∨ s.hud.Removed := by
  obtain ⟨-, -, hc⟩ := pending_eq_zero.mp hp
  rcases hs.alpha with h0 | h1
  · exact .inr (hs.hidden h0 hc)
  · exact .inl (hs.onScreen_iff.mpr h1)

theorem indicator_settles (h : run step es {} = some s) :
    es.countP IndicatorEvent.own ≤ (es.map blocks).sum ∧
    ((∀ e, e.own = true → step s e = none) ↔
      es.countP IndicatorEvent.own = (es.map blocks).sum) ∧
    ((∀ e, e.own = true → step s e = none) → s.hud.OnScreen ∨ s.hud.Removed) ∧
    ∃ fs t, (∀ e ∈ fs, e.own = true) ∧ run step fs s = some t ∧
      ∀ e, e.own = true → step t e = none := by
  have hs : Tracks s := run_tracks h
  have hw : es.countP IndicatorEvent.own + s.hud.pending =
      0 + (es.map blocks).sum := settling.run tracks_init h
  have hrest := settling.at_rest_iff hs
  refine ⟨by omega, hrest.trans (by omega), fun hr => hs.on_or_removed (hrest.mp hr), ?_⟩
  obtain ⟨fs, t, ho, ht, hp⟩ := settling.settles hs
  have hrt := settling.at_rest_iff (run_invariant (fun _ _ _ => step_tracks) hs ht)
  exact ⟨fs, t, ho, ht, hrt.mpr hp⟩

theorem indicator_settles_overtaken :
    (∃ s, run step overtaken {} = some s ∧ (∀ e, e.own = true → step s e = none) ∧
      (s.hud.OnScreen ∨ s.hud.Removed)) ∧
    ∃ s, run step (overtaken.take 6) {} = some s ∧ ¬ (∀ e, e.own = true → step s e = none) ∧
      ∃ fs t, (∀ e ∈ fs, e.own = true) ∧ run step fs s = some t ∧
        ∀ e, e.own = true → step t e = none := by
  constructor
  · have hrun : run step overtaken {} = some _ := rfl
    obtain ⟨-, hrest, hset, -⟩ := indicator_settles hrun
    exact ⟨_, hrun, hrest.mpr rfl, hset (hrest.mpr rfl)⟩
  · have hrun : run step (overtaken.take 6) {} = some _ := rfl
    obtain ⟨-, hrest, -, hsettles⟩ := indicator_settles hrun
    exact ⟨_, hrun, hrest.not.mpr (by decide), hsettles⟩

end RoutesIndicator

end Seco
