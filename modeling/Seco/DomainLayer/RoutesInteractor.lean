import Seco.DataLayer.StoreRefinement

namespace Seco

open Program

variable {σ α : Type}

namespace RoutesInteractor

def getIssue (c : Call) (route : String) (onComplete : Option Issue → App σ α) : App σ α :=
  DataManager.getIssue c route onComplete

-- `weakSelf` is alive: the handler runs inside the call on `self`
def completion (c : Call) (onComplete : App σ Unit) : App σ Unit := do
  let count ← DataManager.getIssuesCount c
  modify fun w => { w with applicationIconBadgeNumber := count }
  onComplete

def create (c : Call) (issue : Issue) (onComplete : App σ Unit) : App σ Unit :=
  DataManager.create c issue (completion c onComplete)

end RoutesInteractor

def onClient (f : σ → σ) : App σ Unit := modify fun w => { w with client := f w.client }

variable {c : Call} {id : Nat} {tx : Option (List IssueDB)} {w : World σ} {f : σ → σ}

theorem completion_run (h : Held c id tx w) :
    (RoutesInteractor.completion c (onClient f)).run w =
      .ok ((), w.notified (tx.getD w.file).length (f w.client)) := by
  simp [RoutesInteractor.completion, getIssuesCount_run h, onClient, World.notified]

theorem Quiet.completion {onComplete : App σ Unit} (hq : Quiet c onComplete) :
    Quiet c (RoutesInteractor.completion c onComplete) := by
  intro id tx w h
  have hn := h.notified (tx.getD w.file).length w.client
  obtain ⟨badge, client, hk⟩ := hq id tx _ hn
  refine ⟨badge, client, ?_⟩
  simp only [Returns, RoutesInteractor.completion, StateT.run_bind, getIssuesCount_run h, ok_bind]
  exact hk

theorem interactor_create_commits (h : Held c id none w) (hc : c.commits = true)
    (issue : Issue) :
    (RoutesInteractor.create c issue (onClient f)).run w =
      .ok ((), w.stored (put (IssueDB.initIssue issue) w.file)
        (put (IssueDB.initIssue issue) w.file).length (f w.client)) :=
  create_commits h hc (completion_run (h.writing _))

theorem interactor_create_new_fails (h : Held c id none w) (hc : c.commits = false)
    (issue : Issue) (hl : stored w.file issue.route = none) :
    (RoutesInteractor.create c issue (onClient f)).run w =
      .ok ((), (w.writing c id (put (IssueDB.initIssue issue) w.file)).notified
        (put (IssueDB.initIssue issue) w.file).length (f w.client)) :=
  create_new_fails h hc (by simpa [stored] using hl) (completion_run (h.writing _))

theorem interactor_create_stored_fails (h : Held c id none w) (hc : c.commits = false)
    (issue : Issue) {old : Issue} (hl : stored w.file issue.route = some old) :
    (RoutesInteractor.create c issue (onClient f)).run w =
      .ok ((), (w.writing c id (put (IssueDB.initIssue issue) w.file)).notified
        (put (IssueDB.initIssue issue) w.file).length (f (f w.client))) := by
  obtain ⟨row, hrow, _⟩ := Option.map_eq_some_iff.mp hl
  have hk := completion_run (f := f) (h.writing (put (IssueDB.initIssue issue) w.file))
  rw [RoutesInteractor.create, DataManager.create, create_stored_fails h hc hrow hk,
    completion_run ((h.writing _).notified _ _)]
  rfl

section CompletionProtocol

variable {w : World Nat} {issue : Issue}

def CompletionProtocol (c : Call) (issue : Issue) (w : World Nat) : Prop :=
  ∃ v, Returns (RoutesInteractor.create c issue (onClient (· + 1))) w () v ∧
    v.client = w.client + 1 ∧ v.applicationIconBadgeNumber = v.file.length

theorem completionProtocol_of_commits (h : Held c id none w) (hc : c.commits = true) :
    CompletionProtocol c issue w :=
  ⟨_, interactor_create_commits h hc issue, rfl, rfl⟩

theorem put_length_of_new {issueDB : IssueDB} {rows : List IssueDB}
    (h : KeyedRows.lookup IssueDB.route issueDB.route rows = none) :
    (put issueDB rows).length = rows.length + 1 := by
  simp [put, KeyedRows.upsert, h]

theorem not_completionProtocol_of_fails (h : Held c id none w) (hc : c.commits = false) :
    ¬ CompletionProtocol c issue w := by
  rintro ⟨v, hv, hclient, hbadge⟩
  cases hl : stored w.file issue.route with
  | none =>
    have hput : (put (IssueDB.initIssue issue) w.file).length = w.file.length + 1 :=
      put_length_of_new (by simpa [stored] using hl)
    have hr := (interactor_create_new_fails h hc issue hl).symm.trans hv
    simp only [Except.ok.injEq, Prod.mk.injEq, true_and] at hr
    subst hr
    simp [World.notified, World.writing, hput] at hbadge
  | some old =>
    have hr := (interactor_create_stored_fails h hc issue hl).symm.trans hv
    simp only [Except.ok.injEq, Prod.mk.injEq, true_and] at hr
    subst hr
    simp [World.notified] at hclient

theorem not_completionProtocol_of_nested {rows : List IssueDB} (h : Held c id (some rows) w) :
    ¬ CompletionProtocol c issue w := by
  rintro ⟨v, hv, -⟩
  have hr : Raises (RoutesInteractor.create c issue (onClient (· + 1))) w .alreadyInTransaction :=
    create_nested h
  exact absurd (hr.symm.trans hv) (by simp)

-- `tx` is what an earlier commit that failed has left open on the handle
theorem completionProtocol_iff (h : Held c id tx w) :
    CompletionProtocol c issue w ↔ tx = none ∧ c.commits = true := by
  cases tx with
  | some rows => simp [not_completionProtocol_of_nested h]
  | none =>
    refine ⟨fun hp => ⟨rfl, ?_⟩, fun hc => completionProtocol_of_commits h hc.2⟩
    by_contra hc
    exact not_completionProtocol_of_fails h (by simpa using hc) hp

theorem completionProtocol_stored_route :
    let c : Call := ⟨0, true, true⟩
    CompletionProtocol c { route := "C-243", name := "Pepito" } (DBManager.init c
      [{ route := "C-243", report := "asdf" }, { route := "C-244" }] 2 0) :=
  (completionProtocol_iff (held_init _ rfl _ _ _)).mpr ⟨rfl, rfl⟩

theorem failed_commit_not_completionProtocol :
    let c : Call := ⟨0, true, false⟩
    ¬ CompletionProtocol c { route := "C-243" } (DBManager.init c [] 0 0) ∧
      ¬ CompletionProtocol c { route := "C-243" } (DBManager.init c [{ route := "C-243" }] 1 0) :=
  ⟨not_completionProtocol_of_fails (held_init _ rfl _ _ _) rfl,
    not_completionProtocol_of_fails (held_init _ rfl _ _ _) rfl⟩

end CompletionProtocol

end Seco
