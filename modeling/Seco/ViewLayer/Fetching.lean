import Seco.DataLayer.Codable
import Seco.DomainLayer.RoutesInteractor
import Seco.ViewLayer.RoutesPresenter

namespace Seco

open Program JSON

def StopPoint.initStopPointAPI (stopPointAPI : StopPointAPI) : StopPoint where
  stopTime := stopPointAPI.stopTime
  paid := stopPointAPI.paid
  userName := stopPointAPI.userName

section Requests

variable {σ α Data : Type}

def DataManager.getStop (result : Except NSError StopPointAPI)
    (onComplete : Except NSError StopPoint → App σ α) : App σ α :=
  match result with
  | .ok stopPointAPI => onComplete (.ok (StopPoint.initStopPointAPI stopPointAPI))
  | .error error => onComplete (.error error)

variable (serialization : Serialization Data) (responseJSON : APIRouter → Except NSError JSON)

namespace RoutesInteractor

-- what runs from the arrival of the response on
def getAllRoutes (c : Call) (onComplete : Except NSError (List Route) → App σ α) : App σ α :=
  APIManager.getAllRoutes serialization responseJSON fun result =>
    DataManager.getAllRoutes c result onComplete

def getStop (stopId : Int) (onComplete : Except NSError StopPoint → App σ α) : App σ α :=
  APIManager.getStop serialization responseJSON stopId fun result =>
    DataManager.getStop result onComplete

end RoutesInteractor

-- the blocks of the main queue, by what they do to the view
structure Display where
  view : RoutesVC := {}
  queue : List (RoutesVC → RoutesVC) := []

def Display.async (block : RoutesVC → RoutesVC) (display : Display) : Display :=
  { display with queue := display.queue ++ [block] }

namespace RoutesPresenter

def fetchRoutes (c : Call) : App Display Unit :=
  RoutesInteractor.getAllRoutes serialization responseJSON c fun result =>
    onClient (Display.async (fetchedRoutes result))

def fetchStopPoint (stopId : Int) : App Display Unit :=
  RoutesInteractor.getStop serialization responseJSON stopId fun result =>
    onClient (Display.async (fetchedStopPoint result))

end RoutesPresenter

end Requests

section Responses

variable {Data : Type} {serialization : Serialization Data}
  {responseJSON : APIRouter → Except NSError JSON} {c : Call} {id : Nat} {w : World Display}

def World.async (block : RoutesVC → RoutesVC) (w : World Display) : World Display :=
  { w with client := w.client.async block }

def displayed (routesAPI : List RouteAPI) : List RouteVM :=
  routesAPI.map fun routeAPI => RouteVM.initRoute (Route.initRouteAPI routeAPI false)

-- no field of a `RouteVM` comes from `hasIssue`
theorem displayed_eq (hasIssue : RouteAPI → Bool) (routesAPI : List RouteAPI) :
    (routesAPI.map fun routeAPI => Route.initRouteAPI routeAPI (hasIssue routeAPI)).map
      RouteVM.initRoute = displayed routesAPI := by
  rw [List.map_map]
  rfl

def received {T : Type} (decoder : JSON → Option T) (response : Except NSError JSON) : Option T :=
  response.toOption.bind decoder

def RoundTripsResponse (serialization : Serialization Data)
    (responseJSON : APIRouter → Except NSError JSON) (apiRouter : APIRouter) : Prop :=
  ∀ value, responseJSON apiRouter = .ok value → IsObject value ∨ IsArrayOfObjects value →
    serialization.RoundTrips value

theorem processRequest_received {T β : Type} {decoder : JSON → Option T} {apiRouter : APIRouter}
    (hr : RoundTripsResponse serialization responseJSON apiRouter) (hd : Respects decoder)
    (hs : ∀ json x, decoder json = some x → IsObject json ∨ IsArrayOfObjects json)
    (hu : ∀ value, responseJSON apiRouter = .ok value → UniqueKeys value) :
    ∃ result : Except NSError T, result.toOption = received decoder (responseJSON apiRouter) ∧
      ∀ onComplete : Except NSError T → β,
        APIManager.processRequest serialization responseJSON decoder apiRouter onComplete =
          onComplete result := by
  cases hv : responseJSON apiRouter with
  | error error =>
    refine ⟨.error error, rfl, fun onComplete => ?_⟩
    rw [APIManager.processRequest, hv]
  | ok value =>
    obtain ⟨result, hcall, hok, -⟩ :=
      APIManager.transparent_processRequest (hr value hv) (hu value hv) hd hs hv
    refine ⟨result, ?_, hcall β⟩
    show result.toOption = decoder value
    cases hx : result with
    | ok x => exact ((hok x).mp hx).symm
    | error error =>
      cases hd : decoder value with
      | none => rfl
      | some x =>
        have he := (hok x).mpr hd
        rw [hx] at he
        cases he

theorem fetchRoutes_run (hr : RoundTripsResponse serialization responseJSON .routes)
    (hu : ∀ value, responseJSON .routes = .ok value → UniqueKeys value) (h : Held c id none w) :
    ∃ block, Returns (RoutesPresenter.fetchRoutes serialization responseJSON c) w ()
        (w.async block) ∧
      ∀ view, block view = { view with
        hud := false
        routeList := ((received (decodeArray RouteAPI.decode) (responseJSON .routes)).map
          displayed).getD view.routeList } := by
  obtain ⟨result, hres, hcall⟩ := processRequest_received (β := App Display Unit) hr
    respects_routeAPI.decodeArray
    (fun json routesAPI h => .inr (APIManager.decodeArray_isArrayOfObjects h)) hu
  rw [RoutesPresenter.fetchRoutes, RoutesInteractor.getAllRoutes, APIManager.getAllRoutes, hcall]
  cases result with
  | ok routesAPI =>
    refine ⟨_, getAllRoutes_run h routesAPI _, fun view => ?_⟩
    rw [← hres]
    simp only [RoutesPresenter.fetchedRoutes, displayed_eq]
    rfl
  | error error =>
    refine ⟨_, rfl, fun view => ?_⟩
    rw [← hres]
    rfl

theorem fetchStopPoint_run {stopId : Int}
    (hr : RoundTripsResponse serialization responseJSON (.stop stopId))
    (hu : ∀ value, responseJSON (.stop stopId) = .ok value → UniqueKeys value) :
    ∃ block, Returns (RoutesPresenter.fetchStopPoint serialization responseJSON stopId) w ()
        (w.async block) ∧
      ∀ view, block view = { view with
        hud := false
        popUps := view.popUps ++ ((received StopPointAPI.decode (responseJSON (.stop stopId))).map
          fun stopPointAPI =>
            StopPointVM.initStopPoint (StopPoint.initStopPointAPI stopPointAPI)).toList } := by
  obtain ⟨result, hres, hcall⟩ := processRequest_received (β := App Display Unit) hr
    respects_stopPointAPI
    (fun json stopPointAPI h => .inl (APIManager.isObject_of_stopPointAPI h)) hu
  rw [RoutesPresenter.fetchStopPoint, RoutesInteractor.getStop, APIManager.getStop, hcall]
  cases result with
  | ok stopPointAPI =>
    refine ⟨_, rfl, fun view => ?_⟩
    rw [← hres]
    rfl
  | error error =>
    refine ⟨_, rfl, fun view => ?_⟩
    rw [← hres]
    simp [RoutesPresenter.fetchedStopPoint, RoutesVC.removeActivityIndicator,
      RoutesVC.presentError, Except.toOption]

theorem responses_reach_the_screen
    (hr : ∀ apiRouter, RoundTripsResponse serialization responseJSON apiRouter)
    (hu : ∀ apiRouter value, responseJSON apiRouter = .ok value → UniqueKeys value)
    (h : Held c id none w) (stopId : Int) :
    (∃ block, Returns (RoutesPresenter.fetchRoutes serialization responseJSON c) w ()
        (w.async block) ∧
      ∀ view, block view = { view with
        hud := false
        routeList := ((received (decodeArray RouteAPI.decode) (responseJSON .routes)).map
          displayed).getD view.routeList }) ∧
    ∃ block, Returns (RoutesPresenter.fetchStopPoint serialization responseJSON stopId) w ()
        (w.async block) ∧
      ∀ view, block view = { view with
        hud := false
        popUps := view.popUps ++ ((received StopPointAPI.decode (responseJSON (.stop stopId))).map
          fun stopPointAPI =>
            StopPointVM.initStopPoint (StopPoint.initStopPointAPI stopPointAPI)).toList } :=
  ⟨fetchRoutes_run (hr .routes) (hu .routes) h,
    fetchStopPoint_run (hr (.stop stopId)) (hu (.stop stopId))⟩

def answers : APIRouter → Except NSError JSON
  | .routes => .ok (encodeArray RouteAPI.encode [APIManager.trip])
  | .stop _ => .ok APIManager.manuel.encode

def launched : World Display := DBManager.init ⟨0, true, true⟩ [] 0 {}

theorem held_launched : Held ⟨0, true, true⟩ 0 none launched := ⟨rfl, rfl⟩

theorem responses_reach_the_screen_launched :
    (∃ block, Returns (RoutesPresenter.fetchRoutes APIManager.reversing answers ⟨0, true, true⟩)
        launched () (launched.async block) ∧
      ∀ view, block view = { view with
        hud := false
        routeList := ((received (decodeArray RouteAPI.decode) (answers .routes)).map
          displayed).getD view.routeList }) ∧
    ∃ block, Returns (RoutesPresenter.fetchStopPoint APIManager.reversing answers 1)
        launched () (launched.async block) ∧
      ∀ view, block view = { view with
        hud := false
        popUps := view.popUps ++ ((received StopPointAPI.decode (answers (.stop 1))).map
          fun stopPointAPI =>
            StopPointVM.initStopPoint (StopPoint.initStopPointAPI stopPointAPI)).toList } := by
  refine responses_reach_the_screen
    (fun _ value _ _ => APIManager.reversing_roundTrips value) ?_ held_launched 1
  intro apiRouter value hv
  cases apiRouter with
  | routes =>
    obtain rfl := Except.ok.inj hv
    exact UniqueKeys.encodeArray fun routeAPI _ => routeAPI.uniqueKeys_encode
  | stop identifier =>
    obtain rfl := Except.ok.inj hv
    exact APIManager.manuel.uniqueKeys_encode

end Responses

end Seco
