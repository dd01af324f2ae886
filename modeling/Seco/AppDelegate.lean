import Seco.DomainLayer.SavedIssues
import Seco.DomainLayer.StartUpAppSequencer

namespace Seco

open Program Runs MainFlowCoordinator

structure AppDelegate where
  startUp : StartUp
  coordinator : MainFlowCoordinator

inductive AppEvent where
  | startUp (event : StartUpEvent)
  | user (event : UserEvent)
  | didBecomeActive
  deriving DecidableEq

inductive BadgeWrite where
  | saved
  | active
  deriving DecidableEq

namespace AppDelegate

variable (count : String → Nat) (c : Call)

def didFinishLaunching (keyWindow : Bool) (file : List IssueDB) (badge : Int) : AppDelegate where
  startUp := StartUpAppSequencer.start keyWindow
  coordinator := { world := DBManager.init c file badge {} }

def applicationDidBecomeActive (app : AppDelegate) : AppDelegate :=
  { app with
    coordinator := { app.coordinator with
      world := { app.coordinator.world with applicationIconBadgeNumber := 88 } } }

-- the user meets the screens of the coordinator once the window shows them
def step (app : AppDelegate) : AppEvent → Option AppDelegate
  | .startUp event => (StartUp.step app.startUp event).map fun startUp =>
      { app with startUp := startUp }
  | .user event =>
    if app.startUp.rootViewController then
      (MainFlowCoordinator.step count c app.coordinator event).map fun coordinator =>
        { app with coordinator := coordinator }
    else none
  | .didBecomeActive => some app.applicationDidBecomeActive

def saves (app : AppDelegate) : AppEvent → List Issue
  | .user event => Seco.saves count app.coordinator event
  | _ => []

def badgeWrites (app : AppDelegate) : AppEvent → List BadgeWrite
  | .user event => (Seco.saves count app.coordinator event).map fun _ => .saved
  | .didBecomeActive => [.active]
  | .startUp _ => []

def savedIssues (es : List AppEvent) (app : AppDelegate) : List Issue :=
  collect (step count c) (saves count) es app

def writtenBadges (es : List AppEvent) (app : AppDelegate) : List BadgeWrite :=
  collect (step count c) (badgeWrites count) es app

variable {count c} {app next : AppDelegate} {m : IssueMap} {es : List AppEvent} {e : AppEvent}

theorem step_startUp {event : StartUpEvent} (h : step count c app (.startUp event) = some next) :
    ∃ startUp, StartUp.step app.startUp event = some startUp ∧
      next = { app with startUp := startUp } := by
  obtain ⟨startUp, hs, rfl⟩ := Option.map_eq_some_iff.mp h
  exact ⟨startUp, hs, rfl⟩

theorem step_user {event : UserEvent} (h : step count c app (.user event) = some next) :
    app.startUp.rootViewController = true ∧
      ∃ coordinator, MainFlowCoordinator.step count c app.coordinator event = some coordinator ∧
        next = { app with coordinator := coordinator } := by
  rw [step] at h
  split at h
  next hr =>
    obtain ⟨coordinator, hs, rfl⟩ := Option.map_eq_some_iff.mp h
    exact ⟨hr, coordinator, hs, rfl⟩
  next => cases h

theorem step_user_eq {event : UserEvent} {coordinator : MainFlowCoordinator}
    (hr : app.startUp.rootViewController = true)
    (h : MainFlowCoordinator.step count c app.coordinator event = some coordinator) :
    step count c app (.user event) = some { app with coordinator := coordinator } := by
  rw [step, if_pos hr, h, Option.map_some]

structure Launched (c : Call) (app : AppDelegate) : Prop where
  startUp : app.startUp.Consistent
  coordinator : Seco.Consistent c app.coordinator

theorem init_world (file : List IssueDB) (badge : Int) (main : Main) :
    (DBManager.init c file badge main).file = file ∧
      (DBManager.init c file badge main).client = main ∧
      (DBManager.init c file badge main).applicationIconBadgeNumber = badge := by
  cases hc : c.opens <;> simp [DBManager.init, DBManager.opening, hc]

theorem launched_init (hc : c.opens = true) (keyWindow : Bool) (file : List IssueDB)
    (badge : Int) : Launched c (didFinishLaunching c keyWindow file badge) :=
  ⟨StartUp.consistent_start keyWindow, consistent_init (idle_init c hc file badge _)
    (init_world file badge {}).2.1⟩

theorem step_launched (hc : c.commits = true) (hl : Launched c app)
    (h : step count c app e = some next) : Launched c next := by
  cases e with
  | startUp event =>
    obtain ⟨startUp, hs, rfl⟩ := step_startUp h
    exact ⟨StartUp.step_consistent hl.startUp hs, hl.coordinator⟩
  | user event =>
    obtain ⟨-, coordinator, hs, rfl⟩ := step_user h
    exact ⟨hl.startUp, consistent_step hc hl.coordinator hs⟩
  | didBecomeActive =>
    obtain rfl := Option.some.inj h
    have hk := hl.coordinator
    exact ⟨hl.startUp, hk.idle.of_handle rfl rfl, hk.published, hk.stacked, hk.saved⟩

theorem run_launched (hc : c.commits = true) (hl : Launched c app)
    (h : run (step count c) es app = some next) : Launched c next :=
  run_invariant (fun _ _ _ => step_launched hc) hl h

theorem step_refines (hc : c.commits = true) (hl : Launched c app)
    (hr : Refines c app.coordinator.world m) (h : step count c app e = some next) :
    Refines c next.coordinator.world (replay (saves count app e) m) := by
  cases e with
  | startUp event =>
    obtain ⟨startUp, -, rfl⟩ := step_startUp h
    exact hr
  | user event =>
    obtain ⟨-, coordinator, hs, rfl⟩ := step_user h
    exact Seco.step_refines hc hl.coordinator hr hs
  | didBecomeActive =>
    obtain rfl := Option.some.inj h
    exact refines_of_file hr (hr.idle.of_handle rfl rfl) rfl

theorem run_refines (hc : c.commits = true) (hl : Launched c app)
    (hr : Refines c app.coordinator.world m) (h : run (step count c) es app = some next) :
    Refines c next.coordinator.world (replay (savedIssues count c es app) m) := by
  induction es using List.reverseRecOn generalizing next with
  | nil =>
    obtain rfl := Option.some.inj h
    exact hr
  | append_singleton es e ih =>
    obtain ⟨u, hu, ht⟩ := run_concat.mp h
    rw [savedIssues, collect_concat hu, replay_append]
    exact step_refines hc (run_launched hc hl hu) (ih hu) ht

def badgeAfter (writes : List BadgeWrite) (before : Int) (issues : Nat) : Int :=
  match writes.getLast? with
  | none => before
  | some .active => 88
  | some .saved => issues

theorem badgeAfter_append_saved {writes : List BadgeWrite} {before : Int} {n : Nat}
    {issues : List Issue} (hn : issues ≠ []) :
    badgeAfter (writes ++ issues.map fun _ => .saved) before n = n := by
  cases issues with
  | nil => exact absurd rfl hn
  | cons issue issues =>
    have hlast : (writes ++ (issue :: issues).map fun _ => BadgeWrite.saved).getLast? =
        some .saved := by
      rw [List.getLast?_append, List.getLast?_map]
      simp [List.getLast?_cons]
    rw [badgeAfter, hlast]

theorem step_badge {writes : List BadgeWrite} {before : Int} (hc : c.commits = true)
    (hl : Launched c app) (h : step count c app e = some next)
    (hb : app.coordinator.world.applicationIconBadgeNumber =
      badgeAfter writes before app.coordinator.world.file.length) :
    next.coordinator.world.applicationIconBadgeNumber =
      badgeAfter (writes ++ badgeWrites count app e) before
        next.coordinator.world.file.length := by
  cases e with
  | startUp event =>
    obtain ⟨startUp, -, rfl⟩ := step_startUp h
    simpa [badgeWrites] using hb
  | didBecomeActive =>
    obtain rfl := Option.some.inj h
    simp [badgeWrites, badgeAfter, applicationDidBecomeActive]
  | user event =>
    obtain ⟨-, coordinator, hs, rfl⟩ := step_user h
    have hw := Seco.step_badge hc hl.coordinator hs
    rcases eq_or_ne (Seco.saves count app.coordinator event) [] with hn | hn
    · have hf := (step_unsaved hc hl.coordinator hn hs).1
      rw [if_pos hn, hb] at hw
      simpa [badgeWrites, hn, hf] using hw
    · rw [if_neg hn] at hw
      rw [badgeWrites, badgeAfter_append_saved hn]
      exact hw

theorem run_badge (hc : c.commits = true) (hl : Launched c app)
    (h : run (step count c) es app = some next) :
    next.coordinator.world.applicationIconBadgeNumber =
      badgeAfter (writtenBadges count c es app) app.coordinator.world.applicationIconBadgeNumber
        next.coordinator.world.file.length := by
  induction es using List.reverseRecOn generalizing next with
  | nil =>
    obtain rfl := Option.some.inj h
    rfl
  | append_singleton es e ih =>
    obtain ⟨u, hu, ht⟩ := run_concat.mp h
    rw [writtenBadges, collect_concat hu]
    exact step_badge hc (run_launched hc hl hu) ht (ih hu)

theorem started_of_root (h : app.startUp.Consistent)
    (hr : app.startUp.rootViewController = true) :
    app.startUp.calls = [.requestAuthorization, .authorized, .start true] := by
  have hp := h.presented hr
  have ha := h.authorized_of_present (by simp [hp])
  simpa [ha, hp, hr] using h.calls

theorem step_root (hr : app.startUp.rootViewController = true)
    (h : step count c app e = some next) : next.startUp.rootViewController = true := by
  cases e with
  | startUp event =>
    obtain ⟨startUp, hs, rfl⟩ := step_startUp h
    exact (StartUp.step_rootViewController hs).mpr (.inl hr)
  | user event =>
    obtain ⟨-, coordinator, -, rfl⟩ := step_user h
    exact hr
  | didBecomeActive =>
    obtain rfl := Option.some.inj h
    exact hr

theorem started_of_user (hc : c.commits = true) (hl : Launched c app)
    (h : run (step count c) es app = some next) {event : UserEvent} (hm : .user event ∈ es) :
    next.startUp.calls = [.requestAuthorization, .authorized, .start true] := by
  have hlast : Launched c next := run_launched hc hl h
  obtain ⟨pre, post, rfl⟩ := List.append_of_mem hm
  obtain ⟨u, -, ht⟩ := run_append.mp h
  obtain ⟨v, hv, ht⟩ := run_cons.mp ht
  obtain ⟨hr, -, -, -⟩ := step_user hv
  have hroot : next.startUp.rootViewController = true :=
    run_invariant (I := fun app : AppDelegate => app.startUp.rootViewController = true)
      (fun _ _ _ => step_root) (step_root hr hv) ht
  exact started_of_root hlast.startUp hroot

section Forms

end Forms

section Launch

variable {keyWindow : Bool} {file : List IssueDB} {badge : Int}

theorem refines_init (ho : c.opens = true)
    (hm : KeyedRows.Represents IssueDB.route Issue.initIssueDB file m) :
    Refines c (didFinishLaunching c keyWindow file badge).coordinator.world m := by
  refine ⟨idle_init c ho file badge _, ?_⟩
  have hf : (DBManager.init c file badge ({} : Main)).file = file := (init_world file badge {}).1
  exact hf.symm ▸ hm

def phone : Call := ⟨0, true, true⟩

def opened : List AppEvent :=
  StartUp.launch.map .startUp ++ [.didBecomeActive, .user (.accessoryTap "asdf")]

def filled : List AppEvent :=
  opened ++ [.user (.runBlock ⟨0⟩), .user (.edit (FormView.previews ⟨0⟩))]

theorem filled_form : (run (step String.length phone) filled
      (didFinishLaunching phone false [] 0)).map (fun app =>
        (app.startUp.rootViewController, app.coordinator.viewControllers,
          app.coordinator.world.realm, app.coordinator.world.thread)) =
    some (true, [.formVC ⟨0, FormView.previews ⟨0⟩, false⟩, .routesVC], some ⟨0, 0, none⟩, 0) := rfl

theorem filled_app : ∃ app, run (step String.length phone) filled
      (didFinishLaunching phone false [] 0) = some app ∧
    app.startUp.rootViewController = true ∧
    app.coordinator.viewControllers = [.formVC ⟨0, FormView.previews ⟨0⟩, false⟩, .routesVC] ∧
    Held phone 0 none app.coordinator.world := by
  obtain ⟨app, happ, he⟩ := Option.map_eq_some_iff.mp filled_form
  obtain ⟨hroot, he⟩ := Prod.mk.inj he
  obtain ⟨hv, he⟩ := Prod.mk.inj he
  obtain ⟨hrealm, hthread⟩ := Prod.mk.inj he
  exact ⟨app, happ, hroot, hv, hthread, hrealm⟩

theorem run_filled : ∃ next, run (step String.length phone) (filled ++ [.user .ok])
    (didFinishLaunching phone false [] 0) = some next := by
  obtain ⟨app, happ, hroot, hv, hw⟩ := filled_app
  have hok := step_ok_accepts hv hw rfl (FormView.isFormProperlyFilled_previews ⟨0⟩)
  exact ⟨_, run_concat.mpr ⟨app, happ, step_user_eq hroot hok⟩⟩

theorem app_badge (ho : c.opens = true) (hc : c.commits = true)
    (hm : KeyedRows.Represents IssueDB.route Issue.initIssueDB file m)
    (h : run (step count c) es (didFinishLaunching c keyWindow file badge) = some next) :
    next.coordinator.world.applicationIconBadgeNumber =
      badgeAfter (writtenBadges count c es (didFinishLaunching c keyWindow file badge)) badge
        (replay (savedIssues count c es
          (didFinishLaunching c keyWindow file badge)) m).keys.card := by
  have hl : Launched c (didFinishLaunching c keyWindow file badge) :=
    launched_init ho keyWindow file badge
  have hr := run_refines hc hl (refines_init ho hm) h
  have hbadge : (didFinishLaunching c keyWindow file
      badge).coordinator.world.applicationIconBadgeNumber = badge := (init_world file badge {}).2.2
  rw [run_badge hc hl h, hbadge, hr.represents.length_eq]

theorem app_badge_filled : ∃ next,
    run (step String.length phone) (filled ++ [.user .ok])
      (didFinishLaunching phone false [] 0) = some next ∧
    next.coordinator.world.applicationIconBadgeNumber =
      badgeAfter (writtenBadges String.length phone (filled ++ [.user .ok])
        (didFinishLaunching phone false [] 0)) 0
        (replay (savedIssues String.length phone (filled ++ [.user .ok])
          (didFinishLaunching phone false [] 0)) ∅).keys.card := by
  obtain ⟨next, hn⟩ := run_filled
  have hm : KeyedRows.Represents IssueDB.route Issue.initIssueDB [] ∅ := .empty IssueDB.route
  exact ⟨next, hn, app_badge rfl rfl hm hn⟩

end Launch

end AppDelegate

end Seco
