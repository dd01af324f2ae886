import Seco.AppDelegate

namespace Seco

open Program Runs MainFlowCoordinator

def Call.trying (commits : Bool) (c : Call) : Call := { c with commits := commits }

structure Attempt where
  commits : Bool
  event : AppEvent

namespace AppDelegate

variable (count : String → Nat) (c : Call)

def attempt (app : AppDelegate) (a : Attempt) : Option AppDelegate :=
  step count (c.trying a.commits) app a.event

def acceptedIssues (es : List Attempt) (app : AppDelegate) : List Issue :=
  collect (attempt count c) (fun app a => saves count app a.event) es app

def committedIssues (es : List Attempt) (app : AppDelegate) : List Issue :=
  collect (attempt count c) (fun app a => if a.commits then saves count app a.event else []) es app

end AppDelegate

-- an issue whose commit failed stays in the transaction that it leaves open
structure Remembers (c : Call) (m : IssueMap) (committed : List Issue) (failed : Option Issue)
    (s : MainFlowCoordinator) : Prop where
  represents : KeyedRows.Represents IssueDB.route Issue.initIssueDB s.world.file
    (replay committed m)
  published : s.world.client.view.onGetIssueInternalPublisher = []
  held : ∃ id, Held c id (failed.map fun issue => put (IssueDB.initIssue issue) s.world.file)
    s.world

variable {count : String → Nat} {c : Call}

section Actions

variable {id : Nat} {tx : Option (List IssueDB)} {w : World Main} {form : Nat} {issueUI : IssueUI}

theorem Held.trying (h : Held c id tx w) (commits : Bool) : Held (c.trying commits) id tx w :=
  ⟨h.thread, h.realm⟩

theorem fetchIssue_held (h : Held c id tx w) (route : String) :
    Returns (RoutesPresenter.fetchIssue c route) w () { w with
      client := w.client.presentActivityIndicator.async
        (.fetchedIssue route (Seco.stored (tx.getD w.file) route)) } := by
  have hv : Held c id tx { w with client := w.client.presentActivityIndicator } :=
    ⟨h.thread, h.realm⟩
  refine returns_bind_iff.mpr ⟨(), _, rfl, ?_⟩
  exact (dataManager_getIssue_run hv route _).trans rfl

theorem action_fails (h : Held c id none w) (hc : c.commits = false)
    (hv : FormView.isFormProperlyFilled count issueUI = true) :
    ∃ client, client.view = w.client.view ∧
      Returns (FormView.action count c form issueUI) w false
        ((w.writing c id (put (IssueDB.initIssue (Issue.initIssueUI issueUI)) w.file)).notified
          (put (IssueDB.initIssue (Issue.initIssueUI issueUI)) w.file).length client) := by
  have ha : ∀ v, Returns (IssuePresenterNew.save c form (Issue.initIssueUI issueUI)) w () v →
      Returns (FormView.action count c form issueUI) w false v := by
    intro v hs
    rw [FormView.action, if_pos hv]
    exact returns_bind_iff.mpr ⟨(), v, hs, rfl⟩
  cases hl : Seco.stored w.file (Issue.initIssueUI issueUI).route with
  | none => exact ⟨w.client.async (.dismiss form), rfl, ha _ (interactor_create_new_fails h hc _ hl)⟩
  | some old =>
    -- the completion has run in the write block and again in its `catch`
    exact ⟨(w.client.async (.dismiss form)).async (.dismiss form), rfl,
      ha _ (interactor_create_stored_fails h hc _ hl)⟩

theorem action_nested {rows : List IssueDB} (h : Held c id (some rows) w)
    (hv : FormView.isFormProperlyFilled count issueUI = true) :
    Raises (FormView.action count c form issueUI) w .alreadyInTransaction := by
  rw [FormView.action, if_pos hv]
  exact raises_bind_iff.mpr (.inl (create_nested h))

end Actions

variable {m : IssueMap} {committed : List Issue} {failed : Option Issue}
  {s t : MainFlowCoordinator} {e : UserEvent} {commits : Bool}

theorem Remembers.of_handle (hr : Remembers c m committed failed s)
    (hf : t.world.file = s.world.file) (ht : t.world.thread = s.world.thread)
    (hm : t.world.realm = s.world.realm)
    (hp : t.world.client.view.onGetIssueInternalPublisher = []) :
    Remembers c m committed failed t := by
  obtain ⟨id, hw⟩ := hr.held
  refine ⟨hf ▸ hr.represents, hp, id, ht.trans hw.thread, ?_⟩
  rw [hm, hw.realm, hf]

theorem saves_ok {form : Form} {below : List ViewController}
    (hv : s.viewControllers = .formVC form :: below) : saves count s .ok =
      if FormView.isFormProperlyFilled count form.issueUI then [Issue.initIssueUI form.issueUI]
      else [] := by
  simp only [saves, hv]

theorem step_ok_of_action {form : Form} {below : List ViewController} {isWrongFilled : Bool}
    {world : World Main} (hv : s.viewControllers = .formVC form :: below)
    (ha : Returns (FormView.action count c form.id form.issueUI) s.world isWrongFilled world) :
    MainFlowCoordinator.step count c s .ok = some (s.accepted form below isWrongFilled world) := by
  simp only [MainFlowCoordinator.step, hv]
  rw [(ha : _ = _)]

theorem step_ok_remembers (hr : Remembers c m committed failed s)
    (h : MainFlowCoordinator.step count (c.trying commits) s .ok = some t) :
    (saves count s .ok = [] ∧ Remembers c m committed failed t) ∨
    ∃ issue, saves count s .ok = [issue] ∧ failed = none ∧
      if commits then Remembers c m (committed ++ [issue]) none t
      else Remembers c m committed (some issue) t := by
  obtain ⟨id, hw⟩ := hr.held
  simp only [MainFlowCoordinator.step] at h
  split at h
  next form below hv =>
    rw [saves_ok hv]
    cases hf : FormView.isFormProperlyFilled count form.issueUI with
    | false =>
      rw [(action_rejects hf : _ = _)] at h
      obtain rfl := Option.some.inj h
      exact .inl ⟨rfl, hr.of_handle rfl rfl rfl hr.published⟩
    | true =>
      refine .inr ⟨_, rfl, ?_⟩
      cases failed with
      | some issue =>
        rw [(action_nested (hw.trying commits) hf : _ = _)] at h
        cases h
      | none =>
        refine ⟨rfl, ?_⟩
        cases commits with
        | true =>
          rw [(action_run (hw.trying true) rfl hf : _ = _)] at h
          obtain rfl := Option.some.inj h
          refine ⟨?_, hr.published, id, hw.thread, hw.realm⟩
          rw [replay_append]
          exact hr.represents.upsert IssueDB.route overwrites _
        | false =>
          obtain ⟨client, hview, ha⟩ := action_fails (hw.trying false) rfl hf
          rw [(ha : _ = _)] at h
          obtain rfl := Option.some.inj h
          exact ⟨hr.represents, (congrArg RoutesVC.onGetIssueInternalPublisher hview).trans
            hr.published, id, hw.thread, rfl⟩
  next => cases h

theorem step_remembers_of_ne_ok (hr : Remembers c m committed failed s) (he : e ≠ .ok)
    (h : MainFlowCoordinator.step count (c.trying commits) s e = some t) :
    Remembers c m committed failed t := by
  obtain ⟨id, hw⟩ := hr.held
  cases e with
  | accessoryTap route =>
    simp only [MainFlowCoordinator.step] at h
    rw [(fetchIssue_held (hw.trying commits) route : _ = _)] at h
    obtain rfl := Option.some.inj h
    exact hr.of_handle rfl rfl rfl hr.published
  | edit issueUI =>
    obtain ⟨form, below, -, rfl⟩ := step_edit h
    exact hr.of_handle rfl rfl rfl hr.published
  | ok => exact absurd rfl he
  | back =>
    obtain ⟨form, below, -, rfl⟩ := step_back h
    exact hr.of_handle rfl rfl rfl hr.published
  | runBlock now =>
    obtain ⟨block, queue, -, rfl⟩ := step_runBlock h
    cases block with
    | fetchedIssue route issue =>
      rw [runBlock_fetchedIssue hr.published]
      exact hr.of_handle rfl rfl rfl rfl
    | dismiss form => exact hr.of_handle rfl rfl rfl hr.published

theorem step_remembers (hr : Remembers c m committed failed s)
    (h : MainFlowCoordinator.step count (c.trying commits) s e = some t) :
    (saves count s e = [] ∧ Remembers c m committed failed t) ∨
    ∃ issue, saves count s e = [issue] ∧ failed = none ∧
      if commits then Remembers c m (committed ++ [issue]) none t
      else Remembers c m committed (some issue) t := by
  rcases eq_or_ne e .ok with rfl | he
  · exact step_ok_remembers hr h
  · exact .inl ⟨saves_of_ne_ok he, step_remembers_of_ne_ok hr he h⟩

theorem Remembers.rows (hr : Remembers c m committed failed s) :
    KeyedRows.Represents IssueDB.route Issue.initIssueDB
      ((failed.map fun issue => put (IssueDB.initIssue issue) s.world.file).getD s.world.file)
      (replay (committed ++ failed.toList) m) := by
  rw [replay_append]
  cases failed with
  | none => exact hr.represents
  | some issue => exact hr.represents.upsert IssueDB.route overwrites (IssueDB.initIssue issue)

namespace AppDelegate

variable {app next : AppDelegate} {es : List Attempt} {a : Attempt}

theorem attempt_remembers (hr : Remembers c m committed failed app.coordinator)
    (h : attempt count c app a = some next) :
    (saves count app a.event = [] ∧ Remembers c m committed failed next.coordinator) ∨
    ∃ issue, saves count app a.event = [issue] ∧ failed = none ∧
      if a.commits then Remembers c m (committed ++ [issue]) none next.coordinator
      else Remembers c m committed (some issue) next.coordinator := by
  obtain ⟨commits, event⟩ := a
  cases event with
  | startUp event =>
    obtain ⟨startUp, -, rfl⟩ := step_startUp h
    exact .inl ⟨rfl, hr⟩
  | user event =>
    obtain ⟨-, coordinator, hs, rfl⟩ := step_user h
    exact step_remembers hr hs
  | didBecomeActive =>
    obtain rfl := Option.some.inj h
    exact .inl ⟨rfl, hr.of_handle rfl rfl rfl hr.published⟩

theorem run_remembers (hr : Remembers c m [] none app.coordinator)
    (h : run (attempt count c) es app = some next) :
    ∃ failed : Option Issue,
      acceptedIssues count c es app = committedIssues count c es app ++ failed.toList ∧
      Remembers c m (committedIssues count c es app) failed next.coordinator := by
  induction es using List.reverseRecOn generalizing next with
  | nil =>
    obtain rfl := Option.some.inj h
    exact ⟨none, rfl, hr⟩
  | append_singleton es a ih =>
    obtain ⟨u, hu, ht⟩ := run_concat.mp h
    obtain ⟨failed, hsplit, hlast⟩ := ih hu
    rw [acceptedIssues, collect_concat hu, ← acceptedIssues, committedIssues, collect_concat hu,
      ← committedIssues]
    rcases attempt_remembers hlast ht with ⟨hn, hnext⟩ | ⟨issue, hn, rfl, hnext⟩
    · refine ⟨failed, ?_, ?_⟩ <;> simp [hn, hsplit, hnext]
    · cases hc : a.commits with
      | true =>
        rw [hc, if_pos rfl] at hnext
        exact ⟨none, by simp [hn, hsplit], by simpa [hn] using hnext⟩
      | false =>
        rw [hc, if_neg Bool.false_ne_true] at hnext
        exact ⟨some issue, by simp [hn, hsplit], by simpa using hnext⟩

theorem run_attempts (events : List AppEvent) (app : AppDelegate) :
    run (attempt count c) (events.map fun event => ⟨c.commits, event⟩) app =
      run (step count c) events app := by
  induction events generalizing app with
  | nil => rfl
  | cons event events ih =>
    rw [List.map_cons, run, run, funext ih]
    rfl

section Launch

variable {keyWindow : Bool} {file : List IssueDB} {badge : Int}

theorem remembers_init (ho : c.opens = true)
    (hm : KeyedRows.Represents IssueDB.route Issue.initIssueDB file m) :
    Remembers c m [] none (didFinishLaunching c keyWindow file badge).coordinator := by
  obtain ⟨hf, hclient, -⟩ := init_world (c := c) file badge {}
  refine ⟨hf.symm ▸ hm, ?_, 0, held_init c ho file badge ({} : Main)⟩
  exact congrArg (fun main : Main => main.view.onGetIssueInternalPublisher) hclient

theorem shown_until_relaunch (ho : c.opens = true)
    (hm : KeyedRows.Represents IssueDB.route Issue.initIssueDB file m)
    (h : run (attempt count c) es (didFinishLaunching c keyWindow file badge) = some next) :
    BehavesLike c next.coordinator.world
      (replay (acceptedIssues count c es (didFinishLaunching c keyWindow file badge)) m) ∧
    (∀ keyWindow' badge', BehavesLike c
      (didFinishLaunching c keyWindow' next.coordinator.world.file badge').coordinator.world
      (replay (committedIssues count c es (didFinishLaunching c keyWindow file badge)) m)) ∧
    ∃ failed : Option Issue,
      acceptedIssues count c es (didFinishLaunching c keyWindow file badge) =
        committedIssues count c es (didFinishLaunching c keyWindow file badge) ++ failed.toList ∧
      (failed ≠ none → ∀ commits form issueUI,
        FormView.isFormProperlyFilled count issueUI = true →
        Raises (FormView.action count (c.trying commits) form issueUI) next.coordinator.world
          .alreadyInTransaction) := by
  obtain ⟨failed, hsplit, hr⟩ := run_remembers (remembers_init ho hm) h
  obtain ⟨id, hw⟩ := hr.held
  refine ⟨?_, fun keyWindow' badge' => ?_, failed, hsplit, fun hf commits form issueUI hv => ?_⟩
  · rw [hsplit]
    exact behavesLike_of_held hw hr.rows hr.represents.nodup
  · exact (refines_init ho hr.represents).behavesLike
  · obtain ⟨issue, rfl⟩ := Option.ne_none_iff_exists'.mp hf
    exact action_nested (hw.trying commits) hv

def overfull : List Attempt :=
  (filled.map fun event => ⟨phone.commits, event⟩) ++ [⟨false, .user .ok⟩]

theorem run_overfull : ∃ next, run (attempt String.length phone) overfull
    (didFinishLaunching phone false [] 0) = some next := by
  obtain ⟨app, happ, hroot, hv, hw⟩ := filled_app
  obtain ⟨client, -, ha⟩ :=
    action_fails (hw.trying false) rfl (FormView.isFormProperlyFilled_previews ⟨0⟩)
  rw [← run_attempts] at happ
  exact ⟨_, run_concat.mpr ⟨app, happ, step_user_eq hroot (step_ok_of_action hv ha)⟩⟩

theorem shown_until_relaunch_overfull : ∃ next, run (attempt String.length phone) overfull
      (didFinishLaunching phone false [] 0) = some next ∧
    BehavesLike phone next.coordinator.world
      (replay (acceptedIssues String.length phone overfull
        (didFinishLaunching phone false [] 0)) ∅) ∧
    (∀ keyWindow' badge', BehavesLike phone
      (didFinishLaunching phone keyWindow' next.coordinator.world.file badge').coordinator.world
      (replay (committedIssues String.length phone overfull
        (didFinishLaunching phone false [] 0)) ∅)) ∧
    ∃ failed : Option Issue,
      acceptedIssues String.length phone overfull (didFinishLaunching phone false [] 0) =
        committedIssues String.length phone overfull (didFinishLaunching phone false [] 0) ++
          failed.toList ∧
      (failed ≠ none → ∀ commits form issueUI,
        FormView.isFormProperlyFilled String.length issueUI = true →
        Raises (FormView.action String.length (phone.trying commits) form issueUI)
          next.coordinator.world .alreadyInTransaction) := by
  obtain ⟨next, hn⟩ := run_overfull
  have hm : KeyedRows.Represents IssueDB.route Issue.initIssueDB [] ∅ := .empty IssueDB.route
  exact ⟨next, hn, shown_until_relaunch rfl hm hn⟩

end Launch

end AppDelegate

end Seco
