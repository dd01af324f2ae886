import Seco.DataLayer.Model
import Seco.General.KeyedRows
import Seco.General.Runs

namespace Seco

structure CustomPointAnnotation where
  latitude : Double
  longitude : Double
  stopId : Option Int
  deriving DecidableEq

structure RouteVM where
  route : String
  driverName : String
  startEnd : String
  originDestination : String
  annotations : List CustomPointAnnotation
  deriving DecidableEq

def RouteVM.initRoute (route : Route) : RouteVM where
  route := route.route
  driverName := route.driverName
  startEnd := route.startTime ++ " - " ++ route.endTime
  originDestination := route.originAddress ++ " - " ++ route.destinationAddress
  annotations := route.points.map fun point => ⟨point.latitude, point.longitude, point.stopId⟩

structure StopPointVM where
  title : String
  message : String
  deriving DecidableEq

def StopPointVM.initStopPoint (stopPoint : StopPoint) : StopPointVM where
  title := if stopPoint.paid then "Paid" else "Not Paid"
  message := stopPoint.userName ++ " - " ++ stopPoint.stopTime

structure RoutesVC where
  hud : Bool := false
  routeList : List RouteVM := []
  popUps : List StopPointVM := []
  onGetIssueInternalPublisher : List Issue := []
  deriving DecidableEq

namespace RoutesVC

def presentActivityIndicator (view : RoutesVC) : RoutesVC := { view with hud := true }

def removeActivityIndicator (view : RoutesVC) : RoutesVC := { view with hud := false }

def presentFetchedRoutes (routesVM : List RouteVM) (view : RoutesVC) : RoutesVC :=
  { view with routeList := routesVM }

def presentPopUp (stopPointVM : StopPointVM) (view : RoutesVC) : RoutesVC :=
  { view with popUps := view.popUps ++ [stopPointVM] }

def presentError (_error : NSError) (view : RoutesVC) : RoutesVC := view

def onGetIssue (issue : Issue) (view : RoutesVC) : RoutesVC :=
  { view with onGetIssueInternalPublisher := view.onGetIssueInternalPublisher ++ [issue] }

end RoutesVC

inductive Request where
  | fetchRoutes
  | fetchStopPoint (stopId : Int)
  | fetchIssue (route : String)
  deriving DecidableEq

inductive Response where
  | routes (result : Except NSError (List Route))
  | stopPoint (result : Except NSError StopPoint)
  | issue (issue : Option Issue)

namespace RoutesPresenter

def fetchedRoutes (result : Except NSError (List Route)) (view : RoutesVC) : RoutesVC :=
  let view := view.removeActivityIndicator
  match result with
  | .ok routes => view.presentFetchedRoutes (routes.map RouteVM.initRoute)
  | .error error => view.presentError error

def fetchedStopPoint (result : Except NSError StopPoint) (view : RoutesVC) : RoutesVC :=
  let view := view.removeActivityIndicator
  match result with
  | .ok stopPoint => view.presentPopUp (StopPointVM.initStopPoint stopPoint)
  | .error error => view.presentError error

def uwpIssue (route : String) (issue : Option Issue) : Issue where
  route := route
  name := (issue.map Issue.name).getD ""
  surename := (issue.map Issue.surename).getD ""
  email := (issue.map Issue.email).getD ""
  timestamp := (issue.map Issue.timestamp).getD (-1)
  report := (issue.map Issue.report).getD ""
  phone := (issue.map Issue.phone).getD ""

def fetchedIssue (route : String) (issue : Option Issue) (view : RoutesVC) : RoutesVC :=
  view.removeActivityIndicator.onGetIssue (uwpIssue route issue)

theorem uwpIssue_some {issue : Issue} {route : String} (h : issue.route = route) :
    uwpIssue route (some issue) = issue := by
  subst h
  rfl

def block : Request → Response → Option (RoutesVC → RoutesVC)
  | .fetchRoutes, .routes result => some (fetchedRoutes result)
  | .fetchStopPoint _, .stopPoint result => some (fetchedStopPoint result)
  | .fetchIssue route, .issue issue => some (fetchedIssue route issue)
  | _, _ => none

theorem block_cases {request : Request} {response : Response} {f : RoutesVC → RoutesVC}
    (h : block request response = some f) :
    (∃ result, response = .routes result ∧ f = fetchedRoutes result) ∨
    (∃ result, response = .stopPoint result ∧ f = fetchedStopPoint result) ∨
    ∃ route issue, response = .issue issue ∧ f = fetchedIssue route issue := by
  cases request <;> cases response <;> simp only [block, Option.some.injEq, reduceCtorEq] at h
  · exact .inl ⟨_, rfl, h.symm⟩
  · exact .inr (.inl ⟨_, rfl, h.symm⟩)
  · exact .inr (.inr ⟨_, _, rfl, h.symm⟩)

theorem block_hud {request : Request} {response : Response} {f : RoutesVC → RoutesVC}
    (h : block request response = some f) (view : RoutesVC) : (f view).hud = false := by
  rcases block_cases h with ⟨result, -, rfl⟩ | ⟨result, -, rfl⟩ | ⟨route, issue, -, rfl⟩
  · cases result <;> rfl
  · cases result <;> rfl
  · rfl

-- `shown` is the number of the request whose list `routeList` displays
structure Requests where
  view : RoutesVC := {}
  issued : Nat := 0
  outstanding : List (Nat × Request) := []
  shown : Option Nat := none

inductive Event where
  | issue (request : Request)
  | deliver (number : Nat) (response : Response)

def issue (request : Request) (s : Requests) : Requests where
  view := s.view.presentActivityIndicator
  issued := s.issued + 1
  outstanding := s.outstanding ++ [(s.issued, request)]
  shown := s.shown

def Event.arrival : Event → Option (Nat × List Route)
  | .deliver number (.routes (.ok routes)) => some (number, routes)
  | _ => none

theorem Event.arrival_deliver {number : Nat} {response : Response} {a : Nat × List Route}
    (h : (Event.deliver number response).arrival = some a) :
    ∃ routes, a = (number, routes) ∧ response = .routes (.ok routes) := by
  cases response with
  | routes result =>
    cases result with
    | ok routes => exact ⟨routes, (Option.some.inj h).symm, rfl⟩
    | error error => simp [Event.arrival] at h
  | stopPoint result => simp [Event.arrival] at h
  | issue issue => simp [Event.arrival] at h

def delivered (number : Nat) (response : Response) (f : RoutesVC → RoutesVC) (s : Requests) :
    Requests where
  view := f s.view
  issued := s.issued
  outstanding := s.outstanding.filter fun r => decide (r.1 ≠ number)
  shown := ((Event.deliver number response).arrival.map Prod.fst).or s.shown

def step (s : Requests) : Event → Option Requests
  | .issue request => some (issue request s)
  | .deliver number response => do
    let (_, request) ← KeyedRows.lookup Prod.fst number s.outstanding
    let f ← block request response
    pure (delivered number response f s)

theorem step_deliver {s t : Requests} {number : Nat} {response : Response}
    (h : step s (.deliver number response) = some t) :
    ∃ request f, (number, request) ∈ s.outstanding ∧ block request response = some f ∧
      t = delivered number response f s := by
  simp only [step, Option.bind_eq_bind, Option.bind_eq_some_iff, Option.pure_def,
    Option.some.injEq] at h
  obtain ⟨⟨n, request⟩, hl, f, hf, rfl⟩ := h
  obtain rfl : n = number := KeyedRows.key_of_lookup Prod.fst hl
  exact ⟨request, f, List.mem_of_find?_eq_some hl, hf, rfl⟩

structure Numbered (s : Requests) : Prop where
  nodup : (s.outstanding.map Prod.fst).Nodup
  issued : ∀ r ∈ s.outstanding, r.1 < s.issued

theorem numbered_init : Numbered {} := ⟨.nil, fun _ h => by simp at h⟩

theorem numbered_step {s t : Requests} {e : Event} (hs : Numbered s) (h : step s e = some t) :
    Numbered t := by
  cases e with
  | issue request =>
    obtain rfl : issue request s = t := Option.some.inj h
    have hn : s.issued ∉ s.outstanding.map Prod.fst := by
      intro hm
      obtain ⟨r, hr, he⟩ := List.mem_map.mp hm
      exact absurd (hs.issued r hr) (by omega)
    constructor
    · simp only [issue, List.map_append, List.map_cons, List.map_nil]
      exact List.nodup_append_comm.mp (List.nodup_cons.mpr ⟨hn, hs.nodup⟩)
    · intro r hr
      rcases List.mem_append.mp hr with hr | hr
      · exact Nat.lt_succ_of_lt (hs.issued r hr)
      · obtain rfl : r = (s.issued, request) := by simpa using hr
        exact Nat.lt_succ_self s.issued
  | deliver number response =>
    obtain ⟨request, f, _, _, rfl⟩ := step_deliver h
    have hsub := List.filter_sublist (p := fun r => decide (r.1 ≠ number)) (l := s.outstanding)
    exact ⟨hs.nodup.sublist (hsub.map Prod.fst), fun r hr => hs.issued r (hsub.subset hr)⟩

end RoutesPresenter

end Seco
