import Mathlib.Order.Interval.Basic
import Mathlib.Order.WithBot
import Mathlib.Tactic.NormNum
import Seco.General.Bounding
import Seco.ViewLayer.RoutesPresenter

namespace Seco

variable {Rect : Type}

structure MapKit (Rect : Type) where
  mapPoint : Double → Double → Double × Double
  mkMapRect : Double → Double → Double → Double → Rect
  null : Rect
  isNull : Rect → Bool
  union : Rect → Rect → Rect

namespace MapKit

variable (mapKit : MapKit Rect)

def point (marker : CustomPointAnnotation) : Double × Double :=
  mapKit.mapPoint marker.latitude marker.longitude

def square (aPoint : Double × Double) : Rect := mapKit.mkMapRect aPoint.1 aPoint.2 0.1 0.1

structure Laws [PartialOrder Rect] : Prop extends
    Bounding.Laws mapKit.null mapKit.isNull mapKit.union where
  square_ne_null : ∀ x y, mapKit.mkMapRect x y 0.1 0.1 ≠ mapKit.null

end MapKit

-- an order in which the map view lists its annotations
structure Listing where
  list : List CustomPointAnnotation → List CustomPointAnnotation
  perm : ∀ annotations, (list annotations).Perm annotations

def Listing.asGiven : Listing := ⟨id, fun _ => .rfl⟩

def Listing.reversed : Listing := ⟨List.reverse, List.reverse_perm⟩

structure RouteMap (Rect : Type) where
  annotations : List CustomPointAnnotation
  visibleMapRect : Rect

namespace RouteMap

def removeAnnotations (annotations : List CustomPointAnnotation) (map : RouteMap Rect) :
    RouteMap Rect :=
  { map with annotations := map.annotations.filter fun marker => marker ∉ annotations }

def addAnnotations (annotations : List CustomPointAnnotation) (map : RouteMap Rect) :
    RouteMap Rect :=
  { map with annotations := map.annotations ++ annotations }

def setVisibleMapRect (zoomRect : Rect) (map : RouteMap Rect) : RouteMap Rect :=
  { map with visibleMapRect := zoomRect }

variable (mapKit : MapKit Rect)

def fitMapViewToAnnotaionList (annotations : List CustomPointAnnotation) : Rect :=
  annotations.foldl (fun zoomRect marker =>
    let aPoint := mapKit.point marker
    let rect := mapKit.mkMapRect aPoint.1 aPoint.2 0.1 0.1
    if mapKit.isNull zoomRect then rect else mapKit.union zoomRect rect) mapKit.null

def set (routeVM : RouteVM) (listed relisted : Listing) (map : RouteMap Rect) : RouteMap Rect :=
  let map := map.removeAnnotations (listed.list map.annotations)
  let map := map.addAnnotations routeVM.annotations
  map.setVisibleMapRect (fitMapViewToAnnotaionList mapKit (relisted.list map.annotations))

def didSelect {σ : Type} (onSelectedStop : Int → σ → σ) (marker : CustomPointAnnotation)
    (s : σ) : σ :=
  match marker.stopId with
  | none => s
  | some stopId => onSelectedStop stopId s

variable {mapKit} {routeVM : RouteVM} {listed relisted : Listing} {map : RouteMap Rect}

theorem removeAnnotations_listed (listed : Listing) (map : RouteMap Rect) :
    (map.removeAnnotations (listed.list map.annotations)).annotations = [] := by
  refine List.filter_eq_nil_iff.mpr fun marker ha => ?_
  simpa using (listed.perm map.annotations).mem_iff.mpr ha

@[simp] theorem set_annotations :
    (map.set mapKit routeVM listed relisted).annotations = routeVM.annotations := by
  simp [set, setVisibleMapRect, addAnnotations, removeAnnotations_listed]

theorem set_visibleMapRect : (map.set mapKit routeVM listed relisted).visibleMapRect =
    fitMapViewToAnnotaionList mapKit (relisted.list routeVM.annotations) := by
  simp [set, setVisibleMapRect, addAnnotations, removeAnnotations_listed]

section Zoom

variable {annotations : List CustomPointAnnotation}

def squares (mapKit : MapKit Rect) (annotations : List CustomPointAnnotation) : List Rect :=
  (annotations.map mapKit.point).map mapKit.square

theorem fit_eq_bounding : fitMapViewToAnnotaionList mapKit annotations =
    Bounding.bounding mapKit.null mapKit.isNull mapKit.union (squares mapKit annotations) := by
  rw [Bounding.bounding, squares, List.map_map, List.foldl_map]
  rfl

theorem mem_squares_iff {rect : Rect} : rect ∈ squares mapKit annotations ↔
    ∃ marker ∈ annotations, ∃ x y, mapKit.mapPoint marker.latitude marker.longitude = (x, y) ∧
      rect = mapKit.mkMapRect x y 0.1 0.1 := by
  rw [squares, List.map_map, List.mem_map]
  constructor
  · rintro ⟨marker, hm, rfl⟩
    exact ⟨marker, hm, _, _, rfl, rfl⟩
  · rintro ⟨marker, hm, x, y, hp, rfl⟩
    refine ⟨marker, hm, ?_⟩
    rw [Function.comp_apply, MapKit.point, hp]
    rfl

structure SetCall where
  routeVM : RouteVM
  listed : Listing
  relisted : Listing

def setAll (mapKit : MapKit Rect) (calls : List SetCall) (map : RouteMap Rect) : RouteMap Rect :=
  calls.foldl (fun map call => map.set mapKit call.routeVM call.listed call.relisted) map

theorem setAll_concat {calls : List SetCall} {last : SetCall} :
    setAll mapKit (calls ++ [last]) map = (setAll mapKit calls map).set mapKit last.routeVM
      last.listed last.relisted := List.foldl_append

variable [PartialOrder Rect] {annotations' : List CustomPointAnnotation}

theorem mem_squares_ne_null (h : mapKit.Laws) {rect : Rect}
    (hr : rect ∈ squares mapKit annotations) : rect ≠ mapKit.null := by
  obtain ⟨aPoint, -, rfl⟩ := List.mem_map.mp hr
  exact h.square_ne_null aPoint.1 aPoint.2

theorem fit_congr (h : mapKit.Laws) (hne : annotations ≠ [])
    (hp : ∀ aPoint, aPoint ∈ annotations'.map mapKit.point ↔
      aPoint ∈ annotations.map mapKit.point) :
    fitMapViewToAnnotaionList mapKit annotations' =
      fitMapViewToAnnotaionList mapKit annotations := by
  have hs : squares mapKit annotations ≠ [] := by simpa [squares] using hne
  rw [fit_eq_bounding, fit_eq_bounding]
  refine h.bounding_congr hs (fun rect => mem_squares_ne_null h) fun rect => ?_
  simp only [squares, List.mem_map (f := mapKit.square), hp]

theorem setAll_visibleMapRect (h : mapKit.Laws) (calls : List SetCall) (last : SetCall)
    (hne : last.routeVM.annotations ≠ []) :
    (setAll mapKit (calls ++ [last]) map).visibleMapRect =
      fitMapViewToAnnotaionList mapKit last.routeVM.annotations := by
  rw [setAll_concat, set_visibleMapRect]
  refine fit_congr h hne fun aPoint => ?_
  exact ((last.relisted.perm last.routeVM.annotations).map mapKit.point).mem_iff

theorem zoom_isLUB (mapKit : MapKit Rect) (h : mapKit.Laws) (calls : List SetCall)
    (last : SetCall) (map : RouteMap Rect) (hne : last.routeVM.annotations ≠ []) :
    mapKit.isNull (setAll mapKit (calls ++ [last]) map).visibleMapRect = false ∧
    IsLUB {rect | ∃ marker ∈ last.routeVM.annotations, ∃ x y,
        mapKit.mapPoint marker.latitude marker.longitude = (x, y) ∧
          rect = mapKit.mkMapRect x y 0.1 0.1}
      (setAll mapKit (calls ++ [last]) map).visibleMapRect ∧
    ∀ (calls' : List SetCall) (last' : SetCall) (map' : RouteMap Rect),
      (∀ aPoint,
        (∃ marker ∈ last'.routeVM.annotations,
          mapKit.mapPoint marker.latitude marker.longitude = aPoint) ↔
        ∃ marker ∈ last.routeVM.annotations,
          mapKit.mapPoint marker.latitude marker.longitude = aPoint) →
      (setAll mapKit (calls' ++ [last']) map').visibleMapRect =
        (setAll mapKit (calls ++ [last]) map).visibleMapRect := by
  have hs : squares mapKit last.routeVM.annotations ≠ [] := by simpa [squares] using hne
  obtain ⟨hnull, hlub⟩ := h.bounding_spec hs fun rect => mem_squares_ne_null h
  rw [setAll_visibleMapRect h calls last hne]
  refine ⟨?_, ?_, fun calls' last' map' hp => ?_⟩
  · rw [fit_eq_bounding, Bool.eq_false_iff]
    exact fun hn => hnull ((h.isNull_iff _).mp hn)
  · rw [fit_eq_bounding]
    convert hlub using 1
    exact Set.ext fun rect => mem_squares_iff.symm
  · have hp' : ∀ aPoint, aPoint ∈ last'.routeVM.annotations.map mapKit.point ↔
        aPoint ∈ last.routeVM.annotations.map mapKit.point := fun aPoint => by
      rw [List.mem_map, List.mem_map]
      exact hp aPoint
    have hne' : last'.routeVM.annotations ≠ [] := by
      intro he
      obtain ⟨marker, ha⟩ := List.exists_mem_of_ne_nil _ hne
      have hm := (hp' _).mpr (List.mem_map_of_mem (f := mapKit.point) ha)
      simp [he] at hm
    rw [setAll_visibleMapRect h calls' last' hne', fit_congr h hne hp']

abbrev PlainRect := WithBot (NonemptyInterval ℚ × NonemptyInterval ℚ)

def plainRect (x y width height : Double) : PlainRect :=
  if h : 0 ≤ width ∧ 0 ≤ height then
    (((⟨(x, x + width), le_add_of_nonneg_right h.1⟩, ⟨(y, y + height), le_add_of_nonneg_right h.2⟩) :
      NonemptyInterval ℚ × NonemptyInterval ℚ) : PlainRect)
  else ⊥

-- agrees with `MKMapPoint` on the equator
def plainMapKit : MapKit PlainRect where
  mapPoint latitude longitude :=
    ((longitude + 180) / 360 * 2 ^ 28, (180 - latitude) / 360 * 2 ^ 28)
  mkMapRect := plainRect
  null := ⊥
  isNull rect := decide (rect = ⊥)
  union := (· ⊔ ·)

theorem plainMapKit_laws : plainMapKit.Laws where
  isNull_iff rect := by simp [plainMapKit]
  le_null rect h := by
    change rect ≤ ⊥ at h
    have hb : rect = ⊥ := by simpa using h
    exact hb
  isLUB_union rect rect' _ _ := isLUB_pair
  square_ne_null x y := by
    have h : (0 : Double) ≤ 0.1 ∧ (0 : Double) ≤ 0.1 := by norm_num
    change plainRect x y 0.1 0.1 ≠ ⊥
    rw [plainRect, dif_pos h]
    exact WithBot.coe_ne_bot

def equator : RouteVM := ⟨"R", "", "", "", [⟨0, 0, none⟩, ⟨0, 90, some 1⟩, ⟨0, 45, none⟩]⟩

def roundTrip : RouteVM :=
  ⟨"S", "", "", "", [⟨0, 45, none⟩, ⟨0, 0, some 2⟩, ⟨0, 90, none⟩, ⟨0, 45, none⟩]⟩

theorem zoom_isLUB_equator :
    let zoomRect := (setAll plainMapKit ([⟨roundTrip, .asGiven, .asGiven⟩] ++
      [⟨equator, .asGiven, .reversed⟩]) ⟨[⟨1, 1, some 2⟩], ⊥⟩).visibleMapRect
    plainMapKit.isNull zoomRect = false ∧
    IsLUB {plainRect 134217728 134217728 0.1 0.1, plainRect 201326592 134217728 0.1 0.1,
      plainRect 167772160 134217728 0.1 0.1} zoomRect ∧
    (setAll plainMapKit ([] ++ [⟨roundTrip, .reversed, .asGiven⟩]) ⟨[], ⊥⟩).visibleMapRect =
      zoomRect := by
  intro zoomRect
  obtain ⟨hnull, hlub, hsame⟩ := zoom_isLUB plainMapKit plainMapKit_laws
    [⟨roundTrip, .asGiven, .asGiven⟩] ⟨equator, .asGiven, .reversed⟩ ⟨[⟨1, 1, some 2⟩], ⊥⟩
    (by decide)
  refine ⟨hnull, ?_, hsame [] ⟨roundTrip, .reversed, .asGiven⟩ ⟨[], ⊥⟩ fun aPoint => ?_⟩
  · convert hlub using 1
    ext rect
    norm_num [equator, plainMapKit, and_assoc]
  · simp only [roundTrip, equator, List.mem_cons, List.not_mem_nil, or_false, exists_eq_or_imp,
      exists_eq_left]
    tauto

end Zoom

end RouteMap

end Seco
