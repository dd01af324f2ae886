import Seco.ViewLayer.RouteMap

namespace Seco

variable {Rect : Type}

def pin (point : PointAPI) (stopId : Option Int) : CustomPointAnnotation :=
  ⟨point.latitude, point.longitude, stopId⟩

def pins (routeAPI : RouteAPI) : List CustomPointAnnotation :=
  [pin routeAPI.origin.point none] ++
    routeAPI.stops.filterMap (fun stop => stop.point.map fun point => pin point stop.id) ++
    [pin routeAPI.destination.point none]

theorem annotations_eq_pins (routeAPI : RouteAPI) (hasIssue : Bool) :
    (RouteVM.initRoute (Route.initRouteAPI routeAPI hasIssue)).annotations = pins routeAPI := by
  simp only [RouteVM.initRoute, Route.initRouteAPI, pins, List.map_append, List.map_filterMap]
  congr 2
  refine List.filterMap_congr fun stop _ => ?_
  cases stop.point <;> rfl

theorem length_pins (routeAPI : RouteAPI) : (pins routeAPI).length =
    2 + (routeAPI.stops.filter fun stop => stop.point.isSome).length := by
  simp only [pins, List.length_append, List.length_singleton, List.length_filterMap_eq_countP,
    ← List.countP_eq_length_filter, Option.isSome_map]
  omega

def FromStop (routeAPI : RouteAPI) (marker : CustomPointAnnotation) (stopId : Int) : Prop :=
  ∃ stop ∈ routeAPI.stops, ∃ point, stop.point = some point ∧ stop.id = some stopId ∧
    marker = pin point (some stopId)

def WithoutStopId (routeAPI : RouteAPI) (marker : CustomPointAnnotation) : Prop :=
  marker = pin routeAPI.origin.point none ∨ marker = pin routeAPI.destination.point none ∨
  ∃ stop ∈ routeAPI.stops, ∃ point, stop.point = some point ∧ stop.id = none ∧
    marker = pin point none

theorem WithoutStopId.stopId {routeAPI : RouteAPI} {marker : CustomPointAnnotation}
    (h : WithoutStopId routeAPI marker) : marker.stopId = none := by
  rcases h with rfl | rfl | ⟨stop, hs, point, hp, hi, rfl⟩ <;> rfl

theorem fromStop_iff {routeAPI : RouteAPI} {marker : CustomPointAnnotation} {stopId : Int} :
    FromStop routeAPI marker stopId ↔
      marker ∈ pins routeAPI ∧ marker.stopId = some stopId := by
  constructor
  · rintro ⟨stop, hs, point, hp, hi, rfl⟩
    refine ⟨?_, rfl⟩
    have hm : pin point (some stopId) ∈ routeAPI.stops.filterMap
        fun stop => stop.point.map fun point => pin point stop.id :=
      List.mem_filterMap.mpr ⟨stop, hs, by simp [hp, hi]⟩
    simp [pins, hm]
  · rintro ⟨hm, hi⟩
    simp only [pins, List.mem_append, List.mem_singleton, List.mem_filterMap,
      Option.map_eq_some_iff] at hm
    rcases hm with (rfl | ⟨stop, hs, point, hp, rfl⟩) | rfl
    · cases hi
    · have hid : stop.id = some stopId := hi
      exact ⟨stop, hs, point, hp, hid, by rw [hid]⟩
    · cases hi

namespace RoutesVC

structure Screen (Rect : Type) where
  map : RouteMap Rect
  presenter : RoutesPresenter.Requests

inductive ScreenEvent where
  | set (routeAPI : RouteAPI) (hasIssue : Bool) (listed relisted : Listing)
  | didSelect (marker : CustomPointAnnotation)

def onSelectedStop (stopId : Int) (presenter : RoutesPresenter.Requests) :
    RoutesPresenter.Requests :=
  RoutesPresenter.issue (.fetchStopPoint stopId) presenter

def Screen.start (mapKit : MapKit Rect) : Screen Rect := ⟨⟨[], mapKit.null⟩, {}⟩

def Screen.set (mapKit : MapKit Rect) (routeAPI : RouteAPI) (hasIssue : Bool)
    (listed relisted : Listing) (screen : Screen Rect) : Screen Rect where
  map := screen.map.set mapKit (RouteVM.initRoute (Route.initRouteAPI routeAPI hasIssue))
    listed relisted
  presenter := screen.presenter

def Screen.didSelect (marker : CustomPointAnnotation) (screen : Screen Rect) : Screen Rect where
  map := screen.map
  presenter := RouteMap.didSelect onSelectedStop marker screen.presenter

def Screen.step (mapKit : MapKit Rect) (screen : Screen Rect) : ScreenEvent → Option (Screen Rect)
  | .set routeAPI hasIssue listed relisted =>
    some (screen.set mapKit routeAPI hasIssue listed relisted)
  | .didSelect marker =>
    if marker ∈ screen.map.annotations then
      some (screen.didSelect marker)
    else none

def lastSet (events : List ScreenEvent) : Option RouteAPI :=
  events.foldl (fun last event =>
    match event with
    | .set routeAPI _ _ _ => some routeAPI
    | .didSelect _ => last) none

open Runs

variable {mapKit : MapKit Rect} {events : List ScreenEvent} {screen next : Screen Rect}
  {marker : CustomPointAnnotation} {presenter : RoutesPresenter.Requests}

theorem step_didSelect (h : screen.step mapKit (.didSelect marker) = some next) :
    marker ∈ screen.map.annotations ∧
      next = screen.didSelect marker := by
  rw [Screen.step] at h
  split at h
  · rename_i hm
    exact ⟨hm, (Option.some.inj h).symm⟩
  · cases h

theorem run_annotations (h : run (Screen.step mapKit) events (Screen.start mapKit) = some screen) :
    screen.map.annotations = ((lastSet events).map pins).getD [] := by
  induction events using List.reverseRecOn generalizing screen with
  | nil =>
    obtain rfl := Option.some.inj h
    rfl
  | append_singleton events event ih =>
    obtain ⟨u, hu, hs⟩ := run_concat.mp h
    cases event with
    | set routeAPI hasIssue listed relisted =>
      obtain rfl := Option.some.inj hs
      rw [lastSet, List.foldl_concat]
      exact RouteMap.set_annotations.trans (annotations_eq_pins routeAPI hasIssue)
    | didSelect marker =>
      obtain ⟨-, rfl⟩ := step_didSelect hs
      have hm := ih hu
      rw [lastSet, List.foldl_concat]
      exact hm

theorem outstanding_didSelect_iff {stopId : Int} :
    (RouteMap.didSelect onSelectedStop marker presenter).outstanding =
      presenter.outstanding ++ [(presenter.issued, .fetchStopPoint stopId)] ↔
      marker.stopId = some stopId := by
  rw [RouteMap.didSelect]
  cases marker.stopId with
  | none => simp
  | some stopId' => simp [onSelectedStop, RoutesPresenter.issue]

theorem pins_and_stops (mapKit : MapKit Rect) (routeAPI : RouteAPI) (hasIssue : Bool)
    (listed relisted : Listing) (map : RouteMap Rect) :
    (map.set mapKit (RouteVM.initRoute (Route.initRouteAPI routeAPI hasIssue))
      listed relisted).annotations = pins routeAPI ∧
    (pins routeAPI).length = 2 + (routeAPI.stops.filter fun stop => stop.point.isSome).length ∧
    ∀ (events : List ScreenEvent) (screen : Screen Rect),
      run (Screen.step mapKit) events (Screen.start mapKit) = some screen →
      screen.map.annotations = ((lastSet events).map pins).getD [] ∧
      ∀ (marker : CustomPointAnnotation) (next : Screen Rect),
        screen.step mapKit (.didSelect marker) = some next →
        (∀ stopId, next.presenter.outstanding =
            screen.presenter.outstanding ++ [(screen.presenter.issued, .fetchStopPoint stopId)] ↔
          ∃ last, lastSet events = some last ∧ FromStop last marker stopId) ∧
        ((¬ ∃ last stopId, lastSet events = some last ∧ FromStop last marker stopId) →
          next.presenter = screen.presenter) ∧
        ∀ last, lastSet events = some last → WithoutStopId last marker →
          next.presenter = screen.presenter := by
  refine ⟨?_, length_pins routeAPI, fun events screen hr => ⟨run_annotations hr, ?_⟩⟩
  · rw [RouteMap.set_annotations, annotations_eq_pins]
  · intro marker next hs
    obtain ⟨hm, rfl⟩ := step_didSelect hs
    rw [run_annotations hr] at hm
    obtain ⟨last, hl, hp⟩ : ∃ last, lastSet events = some last ∧ marker ∈ pins last := by
      cases hl : lastSet events with
      | none => simp [hl] at hm
      | some last => exact ⟨last, rfl, by simpa [hl] using hm⟩
    have hfrom : ∀ stopId, (∃ last, lastSet events = some last ∧ FromStop last marker stopId) ↔
        marker.stopId = some stopId := fun stopId => by
      simp [hl, fromStop_iff, hp]
    have hnone : marker.stopId = none →
        (screen.didSelect marker).presenter = screen.presenter := fun hn => by
      simp [Screen.didSelect, RouteMap.didSelect, hn]
    refine ⟨fun stopId => outstanding_didSelect_iff.trans (hfrom stopId).symm, fun hno => ?_,
      fun last' _ hw => hnone hw.stopId⟩
    refine hnone (Option.eq_none_iff_forall_ne_some.mpr fun stopId hi => hno ?_)
    obtain ⟨last', hlast, hf⟩ := (hfrom stopId).mpr hi
    exact ⟨last', stopId, hlast, hf⟩

def direct : RouteAPI :=
  ⟨"", ⟨"", ⟨0, 0⟩⟩, [⟨some ⟨41, 2⟩, some 7⟩], ⟨"", ⟨0, 1⟩⟩, "", "", "", "", "D"⟩

def gaps : RouteAPI :=
  ⟨"", ⟨"", ⟨40, 0⟩⟩, [⟨none, some 1⟩, ⟨some ⟨41, 2⟩, none⟩, ⟨some ⟨42, 2⟩, some 3⟩],
    ⟨"", ⟨43, 0⟩⟩, "", "", "", "", "G"⟩

theorem pins_and_stops_gaps :
    let mapKit := RouteMap.plainMapKit
    let events : List ScreenEvent :=
      [.set direct true .asGiven .reversed, .didSelect (pin ⟨41, 2⟩ (some 7)),
        .set gaps false .reversed .asGiven]
    ∃ screen, run (Screen.step mapKit) events (Screen.start mapKit) = some screen ∧
      screen.map.annotations =
        [pin ⟨40, 0⟩ none, pin ⟨41, 2⟩ none, pin ⟨42, 2⟩ (some 3), pin ⟨43, 0⟩ none] ∧
      (∃ next, screen.step mapKit (.didSelect (pin ⟨42, 2⟩ (some 3))) = some next ∧
        next.presenter.outstanding = [(0, .fetchStopPoint 7), (1, .fetchStopPoint 3)]) ∧
      (∃ next, screen.step mapKit (.didSelect (pin ⟨41, 2⟩ none)) = some next ∧
        next.presenter = screen.presenter) ∧
      screen.step mapKit (.didSelect (pin ⟨41, 2⟩ (some 7))) = none := by
  intro mapKit events
  obtain ⟨-, -, hrun⟩ := pins_and_stops mapKit gaps false .asGiven .asGiven ⟨[], ⊥⟩
  obtain ⟨hmap, hselect⟩ := hrun events _ rfl
  have hstop : FromStop gaps (pin ⟨42, 2⟩ (some 3)) 3 :=
    ⟨⟨some ⟨42, 2⟩, some 3⟩, by simp [gaps], ⟨42, 2⟩, rfl, rfl, rfl⟩
  have hno : WithoutStopId gaps (pin ⟨41, 2⟩ none) :=
    .inr (.inr ⟨⟨some ⟨41, 2⟩, none⟩, by simp [gaps], ⟨41, 2⟩, rfl, rfl, rfl⟩)
  refine ⟨_, rfl, hmap, ⟨_, rfl, ?_⟩, ⟨_, rfl, ?_⟩, rfl⟩
  · exact ((hselect _ _ rfl).1 3).mpr ⟨gaps, rfl, hstop⟩
  · exact (hselect _ _ rfl).2.2 gaps rfl hno

end RoutesVC

end Seco
