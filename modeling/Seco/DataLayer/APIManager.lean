import Seco.DataLayer.Model
import Seco.General.FieldOrder

namespace Seco

structure StopPointAPI where
  stopTime : String
  paid : Bool
  address : String
  tripID : Int
  userName : String
  pointAPI : PointAPI
  price : Double
  deriving DecidableEq

inductive ResponseCodeAPI where
  | missingResponseResultValue
  | badFormedJSONModel
  | responseValidationFailed
  | connectivityError
  | testForcedError
  deriving DecidableEq

def ResponseCodeAPI.rawValue : ResponseCodeAPI → Int
  | .missingResponseResultValue => -5
  | .badFormedJSONModel => -3
  | .responseValidationFailed => -1
  | .connectivityError => -4
  | .testForcedError => -2

open JSON

def PointAPI.decode (json : JSON) : Option PointAPI := do
  let latitude ← JSON.decode decodeDouble "_latitude" json
  let longitude ← JSON.decode decodeDouble "_longitude" json
  pure ⟨latitude, longitude⟩

def OriginDestinationAPI.decode (json : JSON) : Option OriginDestinationAPI := do
  let address ← JSON.decode decodeString "address" json
  let point ← JSON.decode PointAPI.decode "point" json
  pure ⟨address, point⟩

def Stop.decode (json : JSON) : Option Stop := do
  let point ← decodeIfPresent PointAPI.decode "point" json
  let id ← decodeIfPresent decodeInt "id" json
  pure ⟨point, id⟩

def RouteAPI.decode (json : JSON) : Option RouteAPI := do
  let status ← JSON.decode decodeString "status" json
  let origin ← JSON.decode OriginDestinationAPI.decode "origin" json
  let stops ← JSON.decode (decodeArray Stop.decode) "stops" json
  let destination ← JSON.decode OriginDestinationAPI.decode "destination" json
  let endTime ← JSON.decode decodeString "endTime" json
  let startTime ← JSON.decode decodeString "startTime" json
  let description ← JSON.decode decodeString "description" json
  let driverName ← JSON.decode decodeString "driverName" json
  let route ← JSON.decode decodeString "route" json
  pure ⟨status, origin, stops, destination, endTime, startTime, description, driverName, route⟩

def StopPointAPI.decode (json : JSON) : Option StopPointAPI := do
  let stopTime ← JSON.decode decodeString "stopTime" json
  let paid ← JSON.decode decodeBool "paid" json
  let address ← JSON.decode decodeString "address" json
  let tripID ← JSON.decode decodeInt "tripId" json
  let userName ← JSON.decode decodeString "userName" json
  let pointAPI ← JSON.decode PointAPI.decode "point" json
  let price ← JSON.decode decodeDouble "price" json
  pure ⟨stopTime, paid, address, tripID, userName, pointAPI, price⟩

section Decoding

structure PointAPI.Decodes (json : JSON) (pointAPI : PointAPI) : Prop where
  latitude : Has json "_latitude" (.number pointAPI.latitude)
  longitude : Has json "_longitude" (.number pointAPI.longitude)

structure OriginDestinationAPI.Decodes (json : JSON)
    (originDestinationAPI : OriginDestinationAPI) : Prop where
  address : Has json "address" (.string originDestinationAPI.address)
  point : ∃ point, Has json "point" point ∧
    PointAPI.Decodes point originDestinationAPI.point

structure Stop.Decodes (json : JSON) (stop : Stop) : Prop where
  isObject : IsObject json
  point : HasIfPresent PointAPI.Decodes json "point" stop.point
  id : HasIfPresent (fun value id => value = .number (id : Int) ∧ IsInt64 id) json "id" stop.id

structure RouteAPI.Decodes (json : JSON) (routeAPI : RouteAPI) : Prop where
  status : Has json "status" (.string routeAPI.status)
  origin : ∃ origin, Has json "origin" origin ∧
    OriginDestinationAPI.Decodes origin routeAPI.origin
  stops : ∃ stops, Has json "stops" (.array stops) ∧
    List.Forall₂ Stop.Decodes stops routeAPI.stops
  destination : ∃ destination, Has json "destination" destination ∧
    OriginDestinationAPI.Decodes destination routeAPI.destination
  endTime : Has json "endTime" (.string routeAPI.endTime)
  startTime : Has json "startTime" (.string routeAPI.startTime)
  description : Has json "description" (.string routeAPI.description)
  driverName : Has json "driverName" (.string routeAPI.driverName)
  route : Has json "route" (.string routeAPI.route)

structure StopPointAPI.Decodes (json : JSON) (stopPointAPI : StopPointAPI) : Prop where
  stopTime : Has json "stopTime" (.string stopPointAPI.stopTime)
  paid : Has json "paid" (.bool stopPointAPI.paid)
  address : Has json "address" (.string stopPointAPI.address)
  tripID : Has json "tripId" (.number stopPointAPI.tripID) ∧ IsInt64 stopPointAPI.tripID
  userName : Has json "userName" (.string stopPointAPI.userName)
  pointAPI : ∃ point, Has json "point" point ∧ PointAPI.Decodes point stopPointAPI.pointAPI
  price : Has json "price" (.number stopPointAPI.price)

variable {json : JSON}

theorem decodeString_iff (hu : UniqueKeys json) {key value : String} :
    JSON.decode decodeString key json = some value ↔ Has json key (.string value) := by
  simp [reads_decodeString.decode key json value hu]

theorem decodeDouble_iff (hu : UniqueKeys json) {key : String} {value : Double} :
    JSON.decode decodeDouble key json = some value ↔ Has json key (.number value) := by
  simp [reads_decodeDouble.decode key json value hu]

theorem reads_pointAPI : Reads PointAPI.decode PointAPI.Decodes := by
  intro json pointAPI hu
  simp only [PointAPI.decode, Option.bind_eq_bind, Option.bind_eq_some_iff, decodeDouble_iff hu,
    Option.pure_def, Option.some.injEq]
  constructor
  · rintro ⟨latitude, hla, longitude, hlo, rfl⟩
    exact ⟨hla, hlo⟩
  · rintro ⟨hla, hlo⟩
    exact ⟨_, hla, _, hlo, rfl⟩

theorem reads_originDestinationAPI :
    Reads OriginDestinationAPI.decode OriginDestinationAPI.Decodes := by
  intro json originDestinationAPI hu
  simp only [OriginDestinationAPI.decode, Option.bind_eq_bind, Option.bind_eq_some_iff,
    decodeString_iff hu, reads_pointAPI.decode _ json _ hu, Option.pure_def, Option.some.injEq]
  constructor
  · rintro ⟨address, ha, point, hp, rfl⟩
    exact ⟨ha, hp⟩
  · rintro ⟨ha, hp⟩
    exact ⟨_, ha, _, hp, rfl⟩

theorem reads_stop : Reads Stop.decode Stop.Decodes := by
  intro json stop hu
  simp only [Stop.decode, Option.bind_eq_bind, Option.bind_eq_some_iff,
    reads_pointAPI.decodeIfPresent _ json _ hu, reads_decodeInt.decodeIfPresent _ json _ hu,
    Option.pure_def, Option.some.injEq]
  constructor
  · rintro ⟨point, ⟨ho, hp⟩, id, ⟨-, hi⟩, rfl⟩
    exact ⟨ho, hp, hi⟩
  · rintro ⟨ho, hp, hi⟩
    exact ⟨_, ⟨ho, hp⟩, _, ⟨ho, hi⟩, rfl⟩

theorem reads_stops : Reads (JSON.decode (decodeArray Stop.decode) "stops") fun json stops =>
    ∃ elements, Has json "stops" (.array elements) ∧ List.Forall₂ Stop.Decodes elements stops := by
  intro json stops hu
  rw [reads_stop.decodeArray.decode _ json _ hu]
  constructor
  · rintro ⟨_, hs, elements, rfl, h⟩
    exact ⟨elements, hs, h⟩
  · rintro ⟨elements, hs, h⟩
    exact ⟨_, hs, elements, rfl, h⟩

theorem reads_routeAPI : Reads RouteAPI.decode RouteAPI.Decodes := by
  intro json routeAPI hu
  simp only [RouteAPI.decode, Option.bind_eq_bind, Option.bind_eq_some_iff, decodeString_iff hu,
    reads_originDestinationAPI.decode _ json _ hu, reads_stops json _ hu, Option.pure_def,
    Option.some.injEq]
  constructor
  · rintro ⟨status, hs, origin, ho, stops, hst, destination, hd, endTime, he, startTime, hsta,
      description, hde, driverName, hdr, route, hr, rfl⟩
    exact ⟨hs, ho, hst, hd, he, hsta, hde, hdr, hr⟩
  · rintro ⟨hs, ho, hst, hd, he, hsta, hde, hdr, hr⟩
    exact ⟨_, hs, _, ho, _, hst, _, hd, _, he, _, hsta, _, hde, _, hdr, _, hr, rfl⟩

theorem reads_stopPointAPI : Reads StopPointAPI.decode StopPointAPI.Decodes := by
  intro json stopPointAPI hu
  have hint {key : String} {value : Int} : JSON.decode decodeInt key json = some value ↔
      Has json key (.number value) ∧ IsInt64 value := by
    rw [reads_decodeInt.decode key json value hu]
    constructor
    · rintro ⟨_, hh, rfl, hi⟩
      exact ⟨hh, hi⟩
    · rintro ⟨hh, hi⟩
      exact ⟨_, hh, rfl, hi⟩
  have hbool {key : String} {value : Bool} : JSON.decode decodeBool key json = some value ↔
      Has json key (.bool value) := by
    simp [reads_decodeBool.decode key json value hu]
  simp only [StopPointAPI.decode, Option.bind_eq_bind, Option.bind_eq_some_iff,
    decodeString_iff hu, decodeDouble_iff hu, hint, hbool, reads_pointAPI.decode _ json _ hu,
    Option.pure_def, Option.some.injEq]
  constructor
  · rintro ⟨stopTime, hs, paid, hp, address, ha, tripID, ht, userName, hn, pointAPI, hpo, price,
      hpr, rfl⟩
    exact ⟨hs, hp, ha, ht, hn, hpo, hpr⟩
  · rintro ⟨hs, hp, ha, ht, hn, hpo, hpr⟩
    exact ⟨_, hs, _, hp, _, ha, _, ht, _, hn, _, hpo, _, hpr, rfl⟩

theorem respects_pointAPI : Respects PointAPI.decode :=
  (respects_decodeDouble.decode _).bind fun _ =>
    (respects_decodeDouble.decode _).bind fun _ => .pure _

theorem respects_originDestinationAPI : Respects OriginDestinationAPI.decode :=
  (respects_decodeString.decode _).bind fun _ =>
    (respects_pointAPI.decode _).bind fun _ => .pure _

theorem respects_stop : Respects Stop.decode :=
  (respects_pointAPI.decodeIfPresent _).bind fun _ =>
    (respects_decodeInt.decodeIfPresent _).bind fun _ => .pure _

theorem respects_routeAPI : Respects RouteAPI.decode :=
  (respects_decodeString.decode _).bind fun _ =>
    (respects_originDestinationAPI.decode _).bind fun _ =>
    (respects_stop.decodeArray.decode _).bind fun _ =>
    (respects_originDestinationAPI.decode _).bind fun _ =>
    (respects_decodeString.decode _).bind fun _ =>
    (respects_decodeString.decode _).bind fun _ =>
    (respects_decodeString.decode _).bind fun _ =>
    (respects_decodeString.decode _).bind fun _ =>
    (respects_decodeString.decode _).bind fun _ => .pure _

theorem respects_stopPointAPI : Respects StopPointAPI.decode :=
  (respects_decodeString.decode _).bind fun _ =>
    (respects_decodeBool.decode _).bind fun _ =>
    (respects_decodeString.decode _).bind fun _ =>
    (respects_decodeInt.decode _).bind fun _ =>
    (respects_decodeString.decode _).bind fun _ =>
    (respects_pointAPI.decode _).bind fun _ =>
    (respects_decodeDouble.decode _).bind fun _ => .pure _

end Decoding

inductive APIRouter where
  | routes
  | stop (identifier : Int)
  deriving DecidableEq

def ResponseCodeAPI.error (code : ResponseCodeAPI) : NSError := ⟨"Domain", code.rawValue⟩

namespace APIManager

variable {Data T β : Type} (serialization : Serialization Data)
  (responseJSON : APIRouter → Except NSError JSON)

def decoded (decoder : JSON → Option T) (resultValue : JSON) (onComplete : Except NSError T → β) :
    β :=
  match serialization.decode decoder resultValue with
  | some rateAPIArr => onComplete (.ok rateAPIArr)
  | none => onComplete (.error ResponseCodeAPI.badFormedJSONModel.error)

def processRequest (decoder : JSON → Option T) (apiRouter : APIRouter)
    (onComplete : Except NSError T → β) : β :=
  match responseJSON apiRouter with
  | .ok value =>
    match value.asDictionaries with
    | some resultValue => decoded serialization decoder (.array (resultValue.map .object)) onComplete
    | none =>
      match value.asDictionary with
      | some resultValue => decoded serialization decoder (.object resultValue) onComplete
      | none => onComplete (.error ResponseCodeAPI.missingResponseResultValue.error)
  | .error error => onComplete (.error error)

def getAllRoutes (onComplete : Except NSError (List RouteAPI) → β) : β :=
  processRequest serialization responseJSON (decodeArray RouteAPI.decode) .routes onComplete

def getStop (stopId : Int) (onComplete : Except NSError StopPointAPI → β) : β :=
  processRequest serialization responseJSON StopPointAPI.decode (.stop stopId) onComplete

variable {serialization responseJSON} {decoder : JSON → Option T} {apiRouter : APIRouter}
  {value : JSON}

def Transparent (decoder : JSON → Option T) (value : JSON)
    (call : ∀ β : Type, (Except NSError T → β) → β) : Prop :=
  ∃ result, (∀ β onComplete, call β onComplete = onComplete result) ∧
    (∀ x, result = .ok x ↔ decoder value = some x) ∧
    (result = .error ResponseCodeAPI.missingResponseResultValue.error ↔
      ¬ (IsObject value ∨ IsArrayOfObjects value)) ∧
    (result = .error ResponseCodeAPI.badFormedJSONModel.error ↔
      (IsObject value ∨ IsArrayOfObjects value) ∧ decoder value = none)

theorem processRequest_of_shape (hv : responseJSON apiRouter = .ok value)
    (h : IsObject value ∨ IsArrayOfObjects value) (onComplete : Except NSError T → β) :
    processRequest serialization responseJSON decoder apiRouter onComplete =
      decoded serialization decoder value onComplete := by
  rw [processRequest, hv]
  cases ha : value.asDictionaries with
  | some resultValue =>
    have he := eq_array_of_asDictionaries ha
    simp only [ha, ← he]
  | none =>
    have hn : ¬ IsArrayOfObjects value := by simp [isArrayOfObjects_iff, ha]
    obtain ⟨fields, rfl⟩ := h.resolve_right hn
    rfl

theorem processRequest_of_not_shape (hv : responseJSON apiRouter = .ok value)
    (h : ¬ (IsObject value ∨ IsArrayOfObjects value)) (onComplete : Except NSError T → β) :
    processRequest serialization responseJSON decoder apiRouter onComplete =
      onComplete (.error ResponseCodeAPI.missingResponseResultValue.error) := by
  rw [isObject_iff, isArrayOfObjects_iff, not_or, Option.not_isSome_iff_eq_none,
    Option.not_isSome_iff_eq_none] at h
  rw [processRequest, hv]
  simp only [h.1, h.2]

theorem Transparent.eq_ok {call : ∀ β : Type, (Except NSError T → β) → β} {x : T}
    (h : Transparent decoder value call) (hx : decoder value = some x) :
    ∀ β onComplete, call β onComplete = onComplete (.ok x) := by
  obtain ⟨result, hcall, hok, -, -⟩ := h
  obtain rfl := (hok x).mpr hx
  exact hcall

theorem Transparent.eq_badFormed {call : ∀ β : Type, (Except NSError T → β) → β}
    (h : Transparent decoder value call) (hs : IsObject value ∨ IsArrayOfObjects value)
    (hx : decoder value = none) : ∀ β onComplete,
      call β onComplete = onComplete (.error ResponseCodeAPI.badFormedJSONModel.error) := by
  obtain ⟨result, hcall, -, -, hbad⟩ := h
  obtain rfl := hbad.mpr ⟨hs, hx⟩
  exact hcall

theorem transparent_processRequest
    (hr : IsObject value ∨ IsArrayOfObjects value → serialization.RoundTrips value)
    (hu : UniqueKeys value) (hd : Respects decoder)
    (hs : ∀ json x, decoder json = some x → IsObject json ∨ IsArrayOfObjects json)
    (hv : responseJSON apiRouter = .ok value) :
    Transparent decoder value
      (fun _ => processRequest serialization responseJSON decoder apiRouter) := by
  have hcode : ResponseCodeAPI.badFormedJSONModel.error ≠
      ResponseCodeAPI.missingResponseResultValue.error := by decide
  by_cases ho : IsObject value ∨ IsArrayOfObjects value
  · have he : serialization.decode decoder value = decoder value := (hr ho).decode_eq hd hu
    cases hx : decoder value with
    | some x =>
      refine ⟨.ok x, fun β onComplete => (processRequest_of_shape hv ho onComplete).trans ?_,
        fun y => ?_, ?_, ?_⟩
      · rw [decoded, he, hx]
      · rw [Except.ok.injEq, hx, Option.some.injEq]
      · simp [ho]
      · simp [hx]
    | none =>
      refine ⟨.error ResponseCodeAPI.badFormedJSONModel.error,
        fun β onComplete => (processRequest_of_shape hv ho onComplete).trans ?_,
        fun y => ?_, ?_, ?_⟩
      · rw [decoded, he, hx]
      · simp [hx]
      · simp [ho, hcode]
      · simp [ho, hx]
  · have hx : decoder value = none := by
      by_contra hn
      obtain ⟨x, hx⟩ := Option.ne_none_iff_exists'.mp hn
      exact ho (hs value x hx)
    refine ⟨.error ResponseCodeAPI.missingResponseResultValue.error,
      fun β onComplete => processRequest_of_not_shape hv ho onComplete, fun y => ?_, ?_, ?_⟩
    · simp [hx]
    · simp [ho]
    · simp [ho, hcode.symm]

theorem isObject_of_routeAPI {json : JSON} {routeAPI : RouteAPI}
    (h : RouteAPI.decode json = some routeAPI) : IsObject json := by
  obtain ⟨status, hs, -⟩ := Option.bind_eq_some_iff.mp h
  exact isObject_of_decode hs

theorem isObject_of_stopPointAPI {json : JSON} {stopPointAPI : StopPointAPI}
    (h : StopPointAPI.decode json = some stopPointAPI) : IsObject json := by
  obtain ⟨stopTime, hs, -⟩ := Option.bind_eq_some_iff.mp h
  exact isObject_of_decode hs

theorem decodeArray_isArrayOfObjects {json : JSON} {routesAPI : List RouteAPI}
    (h : decodeArray RouteAPI.decode json = some routesAPI) : IsArrayOfObjects json :=
  isArrayOfObjects_of_decodeArray (fun _ _ => isObject_of_routeAPI) h

theorem transparent_getAllRoutes
    (hr : IsObject value ∨ IsArrayOfObjects value → serialization.RoundTrips value)
    (hu : UniqueKeys value) (hv : responseJSON .routes = .ok value) :
    Transparent (decodeArray RouteAPI.decode) value
      (fun _ => getAllRoutes serialization responseJSON) :=
  transparent_processRequest hr hu respects_routeAPI.decodeArray
    (fun _ _ h => .inr (decodeArray_isArrayOfObjects h)) hv

theorem transparent_getStop
    (hr : IsObject value ∨ IsArrayOfObjects value → serialization.RoundTrips value)
    (hu : UniqueKeys value) {stopId : Int} (hv : responseJSON (.stop stopId) = .ok value) :
    Transparent StopPointAPI.decode value
      (fun _ => getStop serialization responseJSON stopId) :=
  transparent_processRequest hr hu respects_stopPointAPI
    (fun _ _ h => .inl (isObject_of_stopPointAPI h)) hv

theorem decoding_transparent (serialization : Serialization Data)
    (responseJSON : APIRouter → Except NSError JSON) (value : JSON)
    (hr : IsObject value ∨ IsArrayOfObjects value → serialization.RoundTrips value)
    (hu : UniqueKeys value) :
    (responseJSON .routes = .ok value → Transparent (decodeArray RouteAPI.decode) value
      (fun _ => getAllRoutes serialization responseJSON)) ∧
    (∀ stopId, responseJSON (.stop stopId) = .ok value → Transparent StopPointAPI.decode value
      (fun _ => getStop serialization responseJSON stopId)) ∧
    (∀ elements, value = .array elements →
      ((∃ routesAPI, decodeArray RouteAPI.decode value = some routesAPI) ↔
        ∀ element ∈ elements, ∃ routeAPI, RouteAPI.decode element = some routeAPI)) ∧
    (∀ routesAPI, decodeArray RouteAPI.decode value = some routesAPI ↔
      ∃ elements, value = .array elements ∧
        List.Forall₂ RouteAPI.Decodes elements routesAPI) ∧
    Reads StopPointAPI.decode StopPointAPI.Decodes ∧
    Reads RouteAPI.decode RouteAPI.Decodes ∧
    Reads OriginDestinationAPI.decode OriginDestinationAPI.Decodes ∧
    Reads Stop.decode Stop.Decodes ∧
    Reads PointAPI.decode PointAPI.Decodes := by
  refine ⟨transparent_getAllRoutes hr hu, fun stopId => transparent_getStop hr hu, ?_,
    fun routesAPI => reads_routeAPI.decodeArray value routesAPI hu,
    reads_stopPointAPI, reads_routeAPI, reads_originDestinationAPI, reads_stop, reads_pointAPI⟩
  rintro elements rfl
  simp only [← Option.isSome_iff_exists]
  exact decodeArray_isSome_iff

section Reversing

def reverseFields : JSON → JSON
  | .object fields => .object fields.reverse
  | json => json

def reversing : Serialization JSON where
  data
    | .array elements => some (.array (elements.map reverseFields))
    | json => some (reverseFields json)
  parse := some

theorem reordered_reverseFields (json : JSON) : Reordered json (reverseFields json) := by
  cases json with
  | object fields =>
    exact .object rfl (List.forall₂_same.mpr fun value _ => .refl value)
      (List.reverse_perm fields).symm
  | _ => exact .refl _

theorem reversing_roundTrips (json : JSON) : reversing.RoundTrips json := by
  cases json with
  | array elements =>
    refine ⟨_, rfl, .array (List.forall₂_map_right_iff.mpr ?_)⟩
    exact List.forall₂_same.mpr fun element _ => reordered_reverseFields element
  | _ => exact ⟨_, rfl, reordered_reverseFields _⟩

def trip : RouteAPI :=
  ⟨"ongoing", ⟨"Barcelona", ⟨41, 2⟩⟩, [⟨some ⟨41, 2⟩, some 1⟩, ⟨none, some 2⟩, ⟨none, none⟩],
    ⟨"Martorell", ⟨41, 1⟩⟩, "2018-12-18T09:00:00.000Z", "2018-12-18T08:00:00.000Z",
    "Barcelona a Martorell", "", "C-243"⟩

def manuel : StopPointAPI :=
  ⟨"2018-12-18T08:10:00.000Z", true, "Ramblas, Barcelona", 1, "Manuel Gomez", ⟨41, 2⟩, 3 / 2⟩

def routeJSON : JSON := .object
  [("route", .string "C-243"), ("driverName", .string ""),
    ("description", .string "Barcelona a Martorell"),
    ("startTime", .string "2018-12-18T08:00:00.000Z"),
    ("endTime", .string "2018-12-18T09:00:00.000Z"),
    ("destination", .object [("address", .string "Martorell"),
      ("point", .object [("_latitude", .number 41), ("_longitude", .number 1)])]),
    ("stops", .array
      [.object [("id", .number 1),
        ("point", .object [("_longitude", .number 2), ("_latitude", .number 41)])],
      .object [("point", .null), ("id", .number 2)], .object []]),
    ("origin", .object [("address", .string "Barcelona"),
      ("point", .object [("_latitude", .number 41), ("_longitude", .number 2)])]),
    ("status", .string "ongoing")]

def stopJSON : JSON := .object
  [("price", .number (3 / 2)), ("address", .string "Ramblas, Barcelona"), ("tripId", .number 1),
    ("paid", .bool true), ("stopTime", .string "2018-12-18T08:10:00.000Z"),
    ("point", .object [("_latitude", .number 41), ("_longitude", .number 2)]),
    ("userName", .string "Manuel Gomez")]

theorem decoding_transparent_reversing :
    (∀ (β : Type) (onComplete : Except NSError (List RouteAPI) → β),
      getAllRoutes reversing (fun _ => .ok (.array [routeJSON])) onComplete =
        onComplete (.ok [trip])) ∧
    RouteAPI.Decodes routeJSON trip ∧
    (∀ (β : Type) (onComplete : Except NSError (List RouteAPI) → β),
      getAllRoutes reversing (fun _ => .ok (.array [routeJSON, .object []])) onComplete =
        onComplete (.error ResponseCodeAPI.badFormedJSONModel.error)) ∧
    (∀ (β : Type) (onComplete : Except NSError StopPointAPI → β),
      getStop reversing (fun _ => .ok stopJSON) 1 onComplete = onComplete (.ok manuel)) ∧
    StopPointAPI.Decodes stopJSON manuel := by
  have hroute : UniqueKeys routeJSON := by simp [routeJSON]
  have hstop : UniqueKeys stopJSON := by simp [stopJSON]
  obtain ⟨hroutes, -, -, -, -, hreads, -⟩ := decoding_transparent reversing
    (fun _ => .ok (.array [routeJSON])) (.array [routeJSON]) (fun _ => reversing_roundTrips _)
    (by simp [hroute])
  obtain ⟨hbroken, -⟩ := decoding_transparent reversing
    (fun _ => .ok (.array [routeJSON, .object []])) (.array [routeJSON, .object []])
    (fun _ => reversing_roundTrips _) (by simp [hroute])
  obtain ⟨-, hgetStop, -, -, hstopReads, -⟩ := decoding_transparent reversing
    (fun _ => .ok stopJSON) stopJSON (fun _ => reversing_roundTrips _) hstop
  have hshape : IsArrayOfObjects (.array [routeJSON, .object []]) :=
    ⟨_, rfl, by simp [IsObject, routeJSON]⟩
  exact ⟨(hroutes rfl).eq_ok rfl, (hreads routeJSON trip hroute).mp rfl,
    (hbroken rfl).eq_badFormed (.inr hshape) rfl, (hgetStop 1 rfl).eq_ok rfl,
    (hstopReads stopJSON manuel hstop).mp rfl⟩

end Reversing

end APIManager

end Seco
