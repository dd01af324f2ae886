import Seco.ViewLayer.Fetching
import Seco.ViewLayer.RouteList
import Seco.ViewLayer.RouteListOrder
import Seco.ViewLayer.StopSelection

namespace Seco

open Program Runs

def APIRouter.path : APIRouter → String
  | .routes => "api/trips"
  | .stop identifier => "api/stops/" ++ toString identifier

def Request.apiRouter : Request → Option APIRouter
  | .fetchRoutes => some .routes
  | .fetchStopPoint stopId => some (.stop stopId)
  | .fetchIssue _ => none

-- what the data manager hands on, with `hasIssue` read from the store on arrival
inductive Arrival where
  | routes (result : Except NSError (List RouteAPI)) (hasIssue : String → Bool)
  | stopPoint (result : Except NSError StopPointAPI)
  | issue (issue : Option Issue)

namespace Arrival

def response : Arrival → Response
  | .routes result hasIssue => .routes (result.map fun routesAPI => routesAPI.map fun routeAPI =>
      Route.initRouteAPI routeAPI (hasIssue routeAPI.route))
  | .stopPoint result => .stopPoint (result.map StopPoint.initStopPointAPI)
  | .issue found => .issue found

def routesAPI : Arrival → List RouteAPI
  | .routes (.ok routesAPI) _ => routesAPI
  | _ => []

section DataManager

variable {σ α : Type} {c : Call} {id : Nat} {w : World σ}

theorem getAllRoutes_response (h : Held c id none w) (result : Except NSError (List RouteAPI))
    (onComplete : Response → App σ α) :
    (DataManager.getAllRoutes c result fun result => onComplete (.routes result)).run w =
      (onComplete (Arrival.routes result fun route =>
        (stored w.file route).isSome).response).run w := by
  cases result with
  | ok routesAPI => exact getAllRoutes_run h routesAPI _
  | error error => rfl

theorem getStop_response (result : Except NSError StopPointAPI)
    (onComplete : Response → App σ α) :
    DataManager.getStop result (fun result => onComplete (.stopPoint result)) =
      onComplete (Arrival.stopPoint result).response := by
  cases result <;> rfl

theorem getIssue_response (h : Held c id none w) (route : String)
    (onComplete : Response → App σ α) :
    (DataManager.getIssue c route fun issue => onComplete (.issue issue)).run w =
      (onComplete (Arrival.issue (stored w.file route)).response).run w :=
  dataManager_getIssue_run h route _

end DataManager

end Arrival

structure RoutesScreen (Rect : Type) where
  presenter : RoutesPresenter.Requests := {}
  routeList : RouteList := {}
  routeMap : RouteMap Rect

inductive RoutesEvent where
  | viewWillAppear
  | deliver (number : Nat) (arrival : Arrival)
  | cellForRowAt (cell row : Nat)
  | handleTap (cell : Nat)
  | didSelectRowAt (row : Nat) (listed relisted : Listing)
  | didSelect (marker : CustomPointAnnotation)

def RoutesEvent.routesAPI : RoutesEvent → List RouteAPI
  | .deliver _ arrival => arrival.routesAPI
  | _ => []

namespace RoutesScreen

variable {Rect : Type} (mapKit : MapKit Rect)

def viewDidLoad : RoutesScreen Rect where
  routeMap := ⟨[], mapKit.null⟩

def issued (request : Request) (screen : RoutesScreen Rect) : RoutesScreen Rect :=
  { screen with presenter := RoutesPresenter.issue request screen.presenter }

-- `presentFetchedRoutes` ends in `routeList.set(routes:)`
def presented (number : Nat) (arrival : Arrival) (presenter : RoutesPresenter.Requests)
    (screen : RoutesScreen Rect) : RoutesScreen Rect :=
  { screen with
    presenter := presenter
    routeList :=
      match (RoutesPresenter.Event.deliver number arrival.response).arrival with
      | some (_, routes) => screen.routeList.set (routes.map RouteVM.initRoute)
      | none => screen.routeList }

def selected (marker : CustomPointAnnotation) (screen : RoutesScreen Rect) : RoutesScreen Rect :=
  { screen with
    presenter := RouteMap.didSelect RoutesVC.onSelectedStop marker screen.presenter }

def step (screen : RoutesScreen Rect) : RoutesEvent → Option (RoutesScreen Rect)
  | .viewWillAppear => some (screen.issued .fetchRoutes)
  | .deliver number arrival =>
    (RoutesPresenter.step screen.presenter (.deliver number arrival.response)).map fun presenter =>
      screen.presented number arrival presenter
  | .cellForRowAt cell row =>
    (RouteList.cellForRowAt cell row screen.routeList).map fun routeList =>
      { screen with routeList := routeList }
  | .handleTap cell => do
    let shown ← screen.routeList.cells cell
    let routeVM ← screen.routeList.onGetIssue shown.row
    pure (screen.issued (.fetchIssue routeVM.route))
  | .didSelectRowAt row listed relisted => do
    let routeVM ← screen.routeList.routesVM[row]?
    pure { screen with routeMap := screen.routeMap.set mapKit routeVM listed relisted }
  | .didSelect marker =>
    if marker ∈ screen.routeMap.annotations then some (screen.selected marker) else none

def heard (events : List RoutesEvent) : List RouteAPI := events.flatMap RoutesEvent.routesAPI

def Displayed (known : List RouteAPI) (routeVM : RouteVM) : Prop :=
  ∃ routeAPI ∈ known, ∃ hasIssue,
    routeVM = RouteVM.initRoute (Route.initRouteAPI routeAPI hasIssue)

def HasStop (known : List RouteAPI) (stopId : Int) : Prop :=
  ∃ routeAPI ∈ known, ∃ stop ∈ routeAPI.stops, stop.point.isSome = true ∧ stop.id = some stopId

def Sourced (known : List RouteAPI) : Request → Prop
  | .fetchRoutes => True
  | .fetchStopPoint stopId => HasStop known stopId
  | .fetchIssue route => ∃ routeAPI ∈ known, routeAPI.route = route

structure Knows (known : List RouteAPI) (screen : RoutesScreen Rect) : Prop where
  view : screen.presenter.view.routeList = screen.routeList.routesVM
  listed : ∀ routeVM ∈ screen.routeList.routesVM, Displayed known routeVM
  mapped : ∀ marker ∈ screen.routeMap.annotations, ∀ stopId, marker.stopId = some stopId →
    HasStop known stopId
  requested : ∀ r ∈ screen.presenter.outstanding, Sourced known r.2

variable {mapKit} {known more : List RouteAPI} {screen next : RoutesScreen Rect}
  {request : Request}

theorem HasStop.mono {stopId : Int} (h : HasStop known stopId) (hs : known ⊆ more) :
    HasStop more stopId := by
  obtain ⟨routeAPI, hr, hstop⟩ := h
  exact ⟨routeAPI, hs hr, hstop⟩

theorem Sourced.mono (h : Sourced known request) (hs : known ⊆ more) : Sourced more request := by
  cases request with
  | fetchRoutes => trivial
  | fetchStopPoint stopId => exact HasStop.mono h hs
  | fetchIssue route =>
    obtain ⟨routeAPI, hr, he⟩ := h
    exact ⟨routeAPI, hs hr, he⟩

theorem Knows.mono (h : screen.Knows known) (hs : known ⊆ more) : screen.Knows more where
  view := h.view
  listed routeVM hm := by
    obtain ⟨routeAPI, hr, he⟩ := h.listed routeVM hm
    exact ⟨routeAPI, hs hr, he⟩
  mapped marker hm stopId hi := (h.mapped marker hm stopId hi).mono hs
  requested r hr := (h.requested r hr).mono hs

theorem knows_viewDidLoad : (viewDidLoad mapKit).Knows known where
  view := rfl
  listed _ hm := by cases hm
  mapped _ hm := by cases hm
  requested _ hr := by cases hr

theorem Knows.issued (h : screen.Knows known) (hr : Sourced known request) :
    (screen.issued request).Knows known := by
  refine ⟨h.view, h.listed, h.mapped, fun r hm => ?_⟩
  rcases List.mem_append.mp hm with hm | hm
  · exact h.requested r hm
  · obtain rfl : r = (screen.presenter.issued, request) := List.mem_singleton.mp hm
    exact hr

theorem Displayed.hasStop {routeVM : RouteVM} (h : Displayed known routeVM)
    {marker : CustomPointAnnotation} (hm : marker ∈ routeVM.annotations) {stopId : Int}
    (hi : marker.stopId = some stopId) : HasStop known stopId := by
  obtain ⟨routeAPI, hr, hasIssue, rfl⟩ := h
  rw [annotations_eq_pins] at hm
  obtain ⟨stop, hs, point, hp, hid, -⟩ := fromStop_iff.mpr ⟨hm, hi⟩
  exact ⟨routeAPI, hr, stop, hs, by simp [hp], hid⟩

theorem displayed_of_response {arrival : Arrival} {number n : Nat} {routes : List Route}
    (h : (RoutesPresenter.Event.deliver number arrival.response).arrival = some (n, routes))
    {routeVM : RouteVM} (hm : routeVM ∈ routes.map RouteVM.initRoute) :
    Displayed arrival.routesAPI routeVM := by
  cases arrival with
  | routes result hasIssue =>
    cases result with
    | ok routesAPI =>
      obtain ⟨-, rfl⟩ := Prod.mk.inj (Option.some.inj h)
      obtain ⟨route, hr, rfl⟩ := List.mem_map.mp hm
      obtain ⟨routeAPI, ha, rfl⟩ := List.mem_map.mp hr
      exact ⟨routeAPI, ha, _, rfl⟩
    | error error => cases h
  | stopPoint result => cases h
  | issue found => cases h

theorem Knows.deliver {number : Nat} {arrival : Arrival} (h : screen.Knows known)
    {presenter : RoutesPresenter.Requests} (hp : RoutesPresenter.step screen.presenter
      (.deliver number arrival.response) = some presenter) :
    (screen.presented number arrival presenter).Knows (known ++ arrival.routesAPI) := by
  have hlist := routeList_step hp
  have hold : screen.Knows (known ++ arrival.routesAPI) := h.mono (List.subset_append_left ..)
  have hrequested : ∀ r ∈ presenter.outstanding, Sourced (known ++ arrival.routesAPI) r.2 := by
    obtain ⟨request, f, -, -, rfl⟩ := RoutesPresenter.step_deliver hp
    exact fun r hr => hold.requested r (List.mem_filter.mp hr).1
  cases ha : (RoutesPresenter.Event.deliver number arrival.response).arrival with
  | none =>
    rw [ha] at hlist
    refine ⟨?_, ?_, hold.mapped, hrequested⟩
    · simpa [presented, ha] using hlist.trans h.view
    · simpa [presented, ha] using hold.listed
  | some arrived =>
    obtain ⟨n, routes⟩ := arrived
    rw [ha] at hlist
    refine ⟨?_, fun routeVM hm => ?_, hold.mapped, hrequested⟩
    · simpa [presented, ha, RouteList.set] using hlist
    · have hm' : routeVM ∈ routes.map RouteVM.initRoute := by
        simpa only [presented, ha, RouteList.set] using hm
      obtain ⟨routeAPI, hr, he⟩ := displayed_of_response ha hm'
      exact ⟨routeAPI, List.mem_append_right _ hr, he⟩

theorem Knows.selected {marker : CustomPointAnnotation} (h : screen.Knows known)
    (hm : marker ∈ screen.routeMap.annotations) : (screen.selected marker).Knows known := by
  cases hi : marker.stopId with
  | none =>
    have hp : screen.selected marker = screen := by
      rw [RoutesScreen.selected, RouteMap.didSelect, hi]
    rw [hp]
    exact h
  | some stopId =>
    have hp : screen.selected marker = screen.issued (.fetchStopPoint stopId) := by
      rw [RoutesScreen.selected, RouteMap.didSelect, hi]
      rfl
    rw [hp]
    exact h.issued (h.mapped marker hm stopId hi)

theorem step_knows {event : RoutesEvent} (h : screen.Knows known)
    (ht : step mapKit screen event = some next) : next.Knows (known ++ event.routesAPI) := by
  cases event with
  | viewWillAppear =>
    obtain rfl := Option.some.inj ht
    have hs : Sourced known .fetchRoutes := trivial
    simpa [RoutesEvent.routesAPI] using h.issued hs
  | deliver number arrival =>
    obtain ⟨presenter, hp, rfl⟩ := Option.map_eq_some_iff.mp ht
    exact h.deliver hp
  | cellForRowAt cell row =>
    obtain ⟨routeList, hl, rfl⟩ := Option.map_eq_some_iff.mp ht
    obtain ⟨routeVM, -, rfl⟩ := Option.map_eq_some_iff.mp hl
    simp only [RoutesEvent.routesAPI, List.append_nil]
    exact ⟨h.view, h.listed, h.mapped, h.requested⟩
  | handleTap cell =>
    obtain ⟨shown, -, ht⟩ := Option.bind_eq_some_iff.mp ht
    obtain ⟨routeVM, hv, ht⟩ := Option.bind_eq_some_iff.mp ht
    obtain rfl := Option.some.inj ht
    obtain ⟨routeAPI, hr, hasIssue, rfl⟩ := h.listed routeVM (List.mem_of_getElem? hv)
    have hs : Sourced known (.fetchIssue routeAPI.route) := ⟨routeAPI, hr, rfl⟩
    simp only [RoutesEvent.routesAPI, List.append_nil]
    exact h.issued hs
  | didSelectRowAt row listed relisted =>
    obtain ⟨routeVM, hv, ht⟩ := Option.bind_eq_some_iff.mp ht
    obtain rfl := Option.some.inj ht
    have hd := h.listed routeVM (List.mem_of_getElem? hv)
    simp only [RoutesEvent.routesAPI, List.append_nil]
    refine ⟨h.view, h.listed, fun marker hm stopId hi => ?_, h.requested⟩
    rw [RouteMap.set_annotations] at hm
    exact hd.hasStop hm hi
  | didSelect marker =>
    rw [step] at ht
    split at ht
    next hm =>
      obtain rfl := Option.some.inj ht
      simpa [RoutesEvent.routesAPI] using h.selected hm
    next => cases ht

theorem run_knows {events : List RoutesEvent}
    (h : run (step mapKit) events (viewDidLoad mapKit) = some screen) :
    screen.Knows (heard events) := by
  induction events using List.reverseRecOn generalizing screen with
  | nil =>
    obtain rfl := Option.some.inj h
    exact knows_viewDidLoad
  | append_singleton events event ih =>
    obtain ⟨u, hu, ht⟩ := run_concat.mp h
    have hk := step_knows (ih hu) ht
    simpa [heard] using hk

theorem requests_come_from_the_server {events : List RoutesEvent}
    (h : run (step mapKit) events (viewDidLoad mapKit) = some screen) :
    screen.routeList.routesVM = screen.presenter.view.routeList ∧
    (∀ r ∈ screen.presenter.outstanding, ∀ router, r.2.apiRouter = some router →
      router.path = "api/trips" ∨ ∃ stopId, router.path = "api/stops/" ++ toString stopId ∧
        ∃ routeAPI ∈ heard events, ∃ stop ∈ routeAPI.stops,
          stop.point.isSome = true ∧ stop.id = some stopId) ∧
    ∀ r ∈ screen.presenter.outstanding, ∀ route, r.2 = .fetchIssue route →
      ∃ routeAPI ∈ heard events, routeAPI.route = route := by
  have hk : screen.Knows (heard events) := run_knows h
  refine ⟨hk.view.symm, fun r hr router hrouter => ?_, fun r hr route he => ?_⟩
  · have hs := hk.requested r hr
    cases hq : r.2 with
    | fetchRoutes =>
      rw [hq] at hrouter
      obtain rfl := Option.some.inj hrouter
      exact .inl rfl
    | fetchStopPoint stopId =>
      rw [hq] at hrouter hs
      obtain rfl := Option.some.inj hrouter
      exact .inr ⟨stopId, rfl, hs⟩
    | fetchIssue route =>
      rw [hq] at hrouter
      cases hrouter
  · have hs := hk.requested r hr
    rw [he] at hs
    exact hs

def visit : List RoutesEvent :=
  [.viewWillAppear, .deliver 0 (.routes (.ok [APIManager.trip]) fun _ => false), .cellForRowAt 0 0,
    .didSelectRowAt 0 .asGiven .asGiven, .didSelect (pin ⟨41, 2⟩ (some 1)), .handleTap 0]

def flat : MapKit Unit := ⟨fun x y => (x, y), fun _ _ _ _ => (), (), fun _ => true, fun _ _ => ()⟩

theorem requests_come_from_the_server_visit :
    ∃ screen, run (step flat) visit (viewDidLoad flat) = some screen ∧
      screen.routeList.routesVM = screen.presenter.view.routeList ∧
      (∀ r ∈ screen.presenter.outstanding, ∀ router, r.2.apiRouter = some router →
        router.path = "api/trips" ∨ ∃ stopId, router.path = "api/stops/" ++ toString stopId ∧
          ∃ routeAPI ∈ heard visit, ∃ stop ∈ routeAPI.stops,
            stop.point.isSome = true ∧ stop.id = some stopId) ∧
      ∀ r ∈ screen.presenter.outstanding, ∀ route, r.2 = .fetchIssue route →
        ∃ routeAPI ∈ heard visit, routeAPI.route = route :=
  ⟨_, rfl, requests_come_from_the_server rfl⟩

end RoutesScreen

end Seco
