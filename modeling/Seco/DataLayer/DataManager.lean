import Seco.DataLayer.Create

namespace Seco

open Program

variable {σ α : Type}

namespace DataManager

def getAllRoutes (c : Call) (result : Except NSError (List RouteAPI))
    (onComplete : Except NSError (List Route) → App σ α) : App σ α :=
  match result with
  | .ok routesAPI => do
    let routes ← routesAPI.mapM (fun routeAPI => do
      let hasIssue := (← DBManager.getIssue c routeAPI.route).isSome
      pure (Route.initRouteAPI routeAPI hasIssue))
    onComplete (.ok routes)
  | .error error => onComplete (.error error)

def getIssue (c : Call) (route : String) (onComplete : Option Issue → App σ α) : App σ α := do
  match ← DBManager.getIssue c route with
  | none => onComplete none
  | some issueDB => onComplete (some (Issue.initIssueDB issueDB.issueDB))

def create (c : Call) (issue : Issue) (onComplete : App σ Unit) : App σ Unit :=
  DBManager.create c (IssueDB.initIssue issue) onComplete

def getIssuesCount (c : Call) : App σ Int := do
  let issues ← DBManager.getIssues c
  pure issues.length

end DataManager

section Held

variable {c : Call} {id : Nat} {tx : Option (List IssueDB)} {w : World σ}

def stored (file : List IssueDB) (route : String) : Option Issue :=
  (KeyedRows.lookup IssueDB.route route file).map Issue.initIssueDB

theorem stored_put (issue : Issue) (file : List IssueDB) (route : String) :
    stored (put (IssueDB.initIssue issue) file) route =
      if route = issue.route then some issue else stored file route := by
  rw [stored, put, KeyedRows.lookup_upsert IssueDB.route overwrites]
  by_cases h : route = issue.route <;> simp [h, stored]

theorem dataManager_getIssue_run (h : Held c id tx w) (route : String)
    (onComplete : Option Issue → App σ α) :
    (DataManager.getIssue c route onComplete).run w =
      (onComplete (stored (tx.getD w.file) route)).run w := by
  simp only [DataManager.getIssue, StateT.run_bind, getIssue_run h, ok_bind, stored]
  cases KeyedRows.lookup IssueDB.route route (tx.getD w.file) <;> rfl

theorem getIssuesCount_run (h : Held c id tx w) :
    (DataManager.getIssuesCount c).run w = .ok ((tx.getD w.file).length, w) := by
  simp [DataManager.getIssuesCount, getIssues_run h]

theorem hasIssues_run (h : Held c id tx w) (routesAPI : List RouteAPI) :
    (routesAPI.mapM (m := App σ) (fun routeAPI => do
      let hasIssue := (← DBManager.getIssue c routeAPI.route).isSome
      pure (Route.initRouteAPI routeAPI hasIssue))).run w =
      .ok (routesAPI.map fun routeAPI => Route.initRouteAPI routeAPI
        (stored (tx.getD w.file) routeAPI.route).isSome, w) := by
  induction routesAPI with
  | nil => rfl
  | cons routeAPI routesAPI ih =>
    simp only [List.mapM_cons, StateT.run_bind, getIssue_run h, ok_bind, StateT.run_pure,
      pure_eq_ok, ih, List.map_cons, stored, Option.isSome_map]

theorem getAllRoutes_run (h : Held c id tx w) (routesAPI : List RouteAPI)
    (onComplete : Except NSError (List Route) → App σ α) :
    (DataManager.getAllRoutes c (.ok routesAPI) onComplete).run w =
      (onComplete (.ok (routesAPI.map fun routeAPI => Route.initRouteAPI routeAPI
        (stored (tx.getD w.file) routeAPI.route).isSome))).run w := by
  simp only [DataManager.getAllRoutes, StateT.run_bind, hasIssues_run h, ok_bind]

end Held

end Seco
