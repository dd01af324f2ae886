import Seco.DataLayer.DataManager

namespace Seco

open Program

variable {σ : Type}

abbrev IssueMap := Finmap fun _ : String => Issue

def Quiet (c : Call) (onComplete : App σ Unit) : Prop :=
  ∀ id tx w, Held c id tx w →
    ∃ badge client, Returns onComplete w () (w.notified badge client)

inductive StoreCall (σ : Type) where
  | create (issue : Issue) (onComplete : App σ Unit)
  | reset

namespace StoreCall

def perform (c : Call) : StoreCall σ → App σ Unit
  | .create issue onComplete => DataManager.create c issue onComplete
  | .reset => DBManager.reset c

def performAll (c : Call) : List (StoreCall σ) → App σ Unit
  | [] => pure ()
  | call :: calls => do
    perform c call
    performAll c calls

def Quiet (c : Call) : StoreCall σ → Prop
  | .create _ onComplete => Seco.Quiet c onComplete
  | .reset => True

def update : StoreCall σ → IssueMap → IssueMap
  | .create issue _, m => m.insert issue.route issue
  | .reset, _ => ∅

def updateAll (calls : List (StoreCall σ)) (m : IssueMap) : IssueMap :=
  calls.foldl (fun m call => call.update m) m

end StoreCall

structure Refines (c : Call) (w : World σ) (m : IssueMap) : Prop where
  idle : Idle c w
  represents : KeyedRows.Represents IssueDB.route Issue.initIssueDB w.file m

structure BehavesLike (c : Call) (w : World σ) (m : IssueMap) : Prop where
  getIssue : ∀ route, Returns (DataManager.getIssue c route pure) w (m.lookup route) w
  getIssuesCount : Returns (DataManager.getIssuesCount c) w m.keys.card w
  routes : (w.file.map IssueDB.route).Nodup
  getAllRoutes : ∀ routesAPI : List RouteAPI,
    Returns (DataManager.getAllRoutes c (.ok routesAPI) pure) w
      (.ok (routesAPI.map fun routeAPI =>
        Route.initRouteAPI routeAPI (decide (routeAPI.route ∈ m)))) w
  hasIssue : ∀ routesAPI : List RouteAPI, ∃ routes : List Route,
    Returns (DataManager.getAllRoutes c (.ok routesAPI) pure) w (.ok routes) w ∧
    routes.length = routesAPI.length ∧
    ∀ (i : Nat) (routeAPI : RouteAPI) (route : Route),
      routesAPI[i]? = some routeAPI → routes[i]? = some route →
        route.route = routeAPI.route ∧ (route.hasIssue = true ↔ routeAPI.route ∈ m)

variable {c : Call} {w : World σ} {m : IssueMap}

theorem behavesLike_of_held {id : Nat} {tx : Option (List IssueDB)} (hw : Held c id tx w)
    (hm : KeyedRows.Represents IssueDB.route Issue.initIssueDB (tx.getD w.file) m)
    (hf : (w.file.map IssueDB.route).Nodup) : BehavesLike c w m := by
  have hstored : ∀ route, stored (tx.getD w.file) route = m.lookup route := hm.lookup
  have hroutes : ∀ routesAPI : List RouteAPI,
      Returns (DataManager.getAllRoutes c (.ok routesAPI) pure) w
        (.ok (routesAPI.map fun routeAPI =>
          Route.initRouteAPI routeAPI (decide (routeAPI.route ∈ m)))) w := by
    intro routesAPI
    simp only [Returns, getAllRoutes_run hw, hstored, StateT.run_pure, pure_eq_ok,
      Except.ok.injEq, Prod.mk.injEq, and_true]
    refine List.map_congr_left fun routeAPI _ => congrArg (Route.initRouteAPI routeAPI) ?_
    rw [Bool.eq_iff_iff, decide_eq_true_iff, Finmap.lookup_isSome]
  constructor
  · intro route
    simp [Returns, dataManager_getIssue_run hw, hstored]
  · simp [Returns, getIssuesCount_run hw, hm.length_eq]
  · exact hf
  · exact hroutes
  · intro routesAPI
    refine ⟨_, hroutes routesAPI, List.length_map .., fun i routeAPI route hi hr => ?_⟩
    rw [List.getElem?_map, hi, Option.map_some] at hr
    obtain rfl := Option.some.inj hr
    exact ⟨rfl, decide_eq_true_iff⟩

theorem Refines.behavesLike (h : Refines c w m) : BehavesLike c w m := by
  obtain ⟨id, hw⟩ := h.idle
  exact behavesLike_of_held hw h.represents h.represents.nodup

theorem perform_refines (hc : c.commits = true) (h : Refines c w m) (call : StoreCall σ)
    (hq : call.Quiet c) :
    ∃ v, Returns (call.perform c) w () v ∧ Refines c v (call.update m) := by
  obtain ⟨id, hw⟩ := h.idle
  cases call with
  | create issue onComplete =>
    obtain ⟨badge, client, hk⟩ := hq id _ _ (hw.writing (put (IssueDB.initIssue issue) w.file))
    refine ⟨_, create_commits hw hc hk, ⟨id, hw.stored _ _ _⟩, ?_⟩
    exact h.represents.upsert IssueDB.route overwrites (IssueDB.initIssue issue)
  | reset =>
    refine ⟨{ w with file := [] }, by simp [Returns, StoreCall.perform, reset_run hw, hc],
      ⟨id, hw.thread, hw.realm⟩, ?_⟩
    exact KeyedRows.Represents.empty IssueDB.route

theorem performAll_refines (hc : c.commits = true) (calls : List (StoreCall σ))
    (hq : ∀ call ∈ calls, call.Quiet c) (h : Refines c w m) :
    ∃ v, Returns (StoreCall.performAll c calls) w () v ∧
      Refines c v (StoreCall.updateAll calls m) := by
  induction calls generalizing w m with
  | nil => exact ⟨w, rfl, h⟩
  | cons call calls ih =>
    obtain ⟨u, hu, hr⟩ := perform_refines hc h call (hq call (by simp))
    obtain ⟨v, hv, hs⟩ := ih (fun call hm => hq call (by simp [hm])) hr
    exact ⟨v, returns_bind_iff.mpr ⟨(), u, hu, hv⟩, hs⟩

theorem store_behaves_like_map (hc : c.commits = true) (hw : Idle c w) (he : w.file = [])
    (calls : List (StoreCall σ)) (hq : ∀ call ∈ calls, call.Quiet c) :
    ∃ v, Returns (StoreCall.performAll c calls) w () v ∧
      BehavesLike c v (StoreCall.updateAll calls ∅) := by
  have h : Refines c w ∅ := ⟨hw, he ▸ KeyedRows.Represents.empty IssueDB.route⟩
  obtain ⟨v, hv, hr⟩ := performAll_refines hc calls hq h
  exact ⟨v, hv, hr.behavesLike⟩

theorem store_behaves_like_map_counting :
    let c : Call := ⟨0, true, true⟩
    let count : App Unit Unit := do
      let _count ← DataManager.getIssuesCount c
      pure ()
    let calls : List (StoreCall Unit) :=
      [.create { route := "C-243" } count, .reset, .create { route := "C-244" } count]
    let routeAPI (route : String) : RouteAPI :=
      ⟨"", ⟨"", ⟨0, 0⟩⟩, [], ⟨"", ⟨0, 0⟩⟩, "", "", "", "", route⟩
    ∃ v, Returns (StoreCall.performAll c calls) (DBManager.init c [] 0 ()) () v ∧
      BehavesLike c v (StoreCall.updateAll calls ∅) ∧
      Returns (DataManager.getIssue c "C-244" pure) v (some { route := "C-244" }) v ∧
      Returns (DataManager.getIssue c "C-243" pure) v none v ∧
      Returns (DataManager.getIssuesCount c) v 1 v ∧
      ∃ routes : List Route,
        Returns (DataManager.getAllRoutes c (.ok [routeAPI "C-243", routeAPI "C-244"]) pure) v
          (.ok routes) v ∧
        routes.map (fun route => (route.route, route.hasIssue)) =
          [("C-243", false), ("C-244", true)] := by
  intro c count calls routeAPI
  have hcount : Quiet c count := fun id tx w h => by
    refine ⟨w.applicationIconBadgeNumber, w.client, ?_⟩
    simp [Returns, count, getIssuesCount_run h, World.notified]
  obtain ⟨v, hv, hb⟩ := store_behaves_like_map rfl (idle_init c rfl [] 0 ()) rfl calls
    (by simp [calls, StoreCall.Quiet, hcount])
  have hm : StoreCall.updateAll calls ∅ = (∅ : IssueMap).insert "C-244" { route := "C-244" } := rfl
  have h := hb
  rw [hm] at h
  refine ⟨v, hv, hb, ?_, ?_, ?_, ?_⟩
  · simpa using h.getIssue "C-244"
  · simpa using h.getIssue "C-243"
  · exact h.getIssuesCount
  · obtain ⟨routes, hr, hlen, hi⟩ := h.hasIssue [routeAPI "C-243", routeAPI "C-244"]
    obtain ⟨first, second, rfl⟩ := List.length_eq_two.mp hlen
    obtain ⟨hfirst, hno⟩ := hi 0 _ _ rfl rfl
    obtain ⟨hsecond, hyes⟩ := hi 1 _ _ rfl rfl
    have hfalse : first.hasIssue = false := by
      simpa [routeAPI, Finmap.notMem_empty] using hno
    have htrue : second.hasIssue = true := by simp [hyes, routeAPI]
    exact ⟨_, hr, by simp [hfirst, hsecond, hfalse, htrue, routeAPI]⟩

end Seco
