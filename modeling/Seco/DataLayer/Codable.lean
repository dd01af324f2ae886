import Seco.General.JSONEncoding
import Seco.DataLayer.APIManager

namespace Seco

open JSON

def PointAPI.encode (pointAPI : PointAPI) : JSON := .object
  [("_latitude", .number pointAPI.latitude), ("_longitude", .number pointAPI.longitude)]

def OriginDestinationAPI.encode (originDestinationAPI : OriginDestinationAPI) : JSON := .object
  [("address", .string originDestinationAPI.address),
    ("point", originDestinationAPI.point.encode)]

def Stop.encode (stop : Stop) : JSON := .object
  (encodeIfPresent PointAPI.encode "point" stop.point ++ encodeIfPresent encodeInt "id" stop.id)

def RouteAPI.encode (routeAPI : RouteAPI) : JSON := .object
  [("status", .string routeAPI.status), ("origin", routeAPI.origin.encode),
    ("stops", encodeArray Stop.encode routeAPI.stops),
    ("destination", routeAPI.destination.encode), ("endTime", .string routeAPI.endTime),
    ("startTime", .string routeAPI.startTime), ("description", .string routeAPI.description),
    ("driverName", .string routeAPI.driverName), ("route", .string routeAPI.route)]

def StopPointAPI.encode (stopPointAPI : StopPointAPI) : JSON := .object
  [("stopTime", .string stopPointAPI.stopTime), ("paid", .bool stopPointAPI.paid),
    ("address", .string stopPointAPI.address), ("tripId", encodeInt stopPointAPI.tripID),
    ("userName", .string stopPointAPI.userName), ("point", stopPointAPI.pointAPI.encode),
    ("price", .number stopPointAPI.price)]

section RoundTrip

def Stop.InRange (stop : Stop) : Prop := ∀ id ∈ stop.id, IsInt64 id

theorem Stop.decode_encode_iff {stop : Stop} :
    Stop.decode stop.encode = some stop ↔ stop.InRange := by
  obtain ⟨point, id⟩ := stop
  have hpoint : decodeIfPresent PointAPI.decode "point" (Stop.mk point id).encode =
      some point := by
    cases point <;> cases id <;> rfl
  have hid : decodeIfPresent decodeInt "id" (Stop.mk point id).encode =
      id.elim (some none) fun id => (decodeInt (encodeInt id)).map some := by
    cases point <;> cases id <;> rfl
  cases id with
  | none => simp [Stop.decode, hpoint, hid, Stop.InRange]
  | some id =>
    simp only [Stop.decode, hpoint, hid, Stop.InRange, Option.elim_some, Option.mem_def,
      Option.some.injEq, forall_eq', ← decodeInt_encodeInt_iff]
    cases decodeInt (encodeInt id) <;> simp

theorem Stop.inRange_of_decode {json : JSON} {stop : Stop} (h : Stop.decode json = some stop) :
    stop.InRange := by
  obtain ⟨point, -, h⟩ := Option.bind_eq_some_iff.mp h
  obtain ⟨id, hid, h⟩ := Option.bind_eq_some_iff.mp h
  obtain rfl := Option.some.inj h
  rintro value hv
  obtain rfl : id = some value := hv
  obtain ⟨field, hf⟩ := exists_of_decodeIfPresent hid
  exact (decodeInt_eq_some_iff.mp hf).2

def RouteAPI.InRange (routeAPI : RouteAPI) : Prop := ∀ stop ∈ routeAPI.stops, stop.InRange

theorem RouteAPI.decode_encode (routeAPI : RouteAPI) : RouteAPI.decode routeAPI.encode =
    (decodeArray Stop.decode (encodeArray Stop.encode routeAPI.stops)).bind fun stops =>
      some { routeAPI with stops := stops } := rfl

theorem RouteAPI.decode_encode_iff {routeAPI : RouteAPI} :
    RouteAPI.decode routeAPI.encode = some routeAPI ↔ routeAPI.InRange := by
  have hstops : decodeArray Stop.decode (encodeArray Stop.encode routeAPI.stops) =
      some routeAPI.stops ↔ routeAPI.InRange := by
    simp only [decodeArray_encodeArray_iff, Stop.decode_encode_iff, RouteAPI.InRange]
  rw [RouteAPI.decode_encode, ← hstops, Option.bind_eq_some_iff]
  constructor
  · rintro ⟨stops, hd, he⟩
    have hs : stops = routeAPI.stops := congrArg RouteAPI.stops (Option.some.inj he)
    rw [hd, hs]
  · intro hd
    exact ⟨routeAPI.stops, hd, rfl⟩

theorem RouteAPI.inRange_of_decode {json : JSON} {routeAPI : RouteAPI}
    (h : RouteAPI.decode json = some routeAPI) : routeAPI.InRange := by
  obtain ⟨status, -, h⟩ := Option.bind_eq_some_iff.mp h
  obtain ⟨origin, -, h⟩ := Option.bind_eq_some_iff.mp h
  obtain ⟨stops, hstops, h⟩ := Option.bind_eq_some_iff.mp h
  have hs : routeAPI.stops = stops := by
    simp only [Option.bind_eq_bind, Option.bind_eq_some_iff, Option.pure_def,
      Option.some.injEq] at h
    obtain ⟨_, -, _, -, _, -, _, -, _, -, _, -, rfl⟩ := h
    rfl
  intro stop hm
  obtain ⟨field, hf⟩ := exists_of_decode hstops
  obtain ⟨element, he⟩ := mem_of_decodeArray hf (hs ▸ hm)
  exact Stop.inRange_of_decode he

theorem StopPointAPI.decode_encode (stopPointAPI : StopPointAPI) :
    StopPointAPI.decode stopPointAPI.encode =
      (decodeInt (encodeInt stopPointAPI.tripID)).bind fun tripID =>
        some { stopPointAPI with tripID := tripID } := rfl

theorem StopPointAPI.decode_encode_iff {stopPointAPI : StopPointAPI} :
    StopPointAPI.decode stopPointAPI.encode = some stopPointAPI ↔ IsInt64 stopPointAPI.tripID := by
  rw [StopPointAPI.decode_encode, ← decodeInt_encodeInt_iff, Option.bind_eq_some_iff]
  constructor
  · rintro ⟨tripID, hd, he⟩
    have ht : tripID = stopPointAPI.tripID := congrArg StopPointAPI.tripID (Option.some.inj he)
    rw [hd, ht]
  · intro hd
    exact ⟨stopPointAPI.tripID, hd, rfl⟩

theorem StopPointAPI.inRange_of_decode {json : JSON} {stopPointAPI : StopPointAPI}
    (h : StopPointAPI.decode json = some stopPointAPI) : IsInt64 stopPointAPI.tripID := by
  simp only [StopPointAPI.decode, Option.bind_eq_bind, Option.bind_eq_some_iff, Option.pure_def,
    Option.some.injEq] at h
  obtain ⟨_, -, _, -, _, -, tripID, ht, _, -, _, -, _, -, rfl⟩ := h
  obtain ⟨field, hf⟩ := exists_of_decode ht
  exact (decodeInt_eq_some_iff.mp hf).2

theorem RouteAPI.decodeArray_encodeArray_iff {routesAPI : List RouteAPI} :
    decodeArray RouteAPI.decode (encodeArray RouteAPI.encode routesAPI) = some routesAPI ↔
      ∀ routeAPI ∈ routesAPI, routeAPI.InRange := by
  simp only [JSON.decodeArray_encodeArray_iff, RouteAPI.decode_encode_iff]

theorem decodable_iff_decode_encode (routesAPI : List RouteAPI) (stopPointAPI : StopPointAPI) :
    ((∃ json, decodeArray RouteAPI.decode json = some routesAPI) ↔
      decodeArray RouteAPI.decode (encodeArray RouteAPI.encode routesAPI) = some routesAPI) ∧
    (decodeArray RouteAPI.decode (encodeArray RouteAPI.encode routesAPI) = some routesAPI ↔
      ∀ routeAPI ∈ routesAPI, ∀ stop ∈ routeAPI.stops, ∀ id ∈ stop.id, IsInt64 id) ∧
    ((∃ json, StopPointAPI.decode json = some stopPointAPI) ↔
      StopPointAPI.decode stopPointAPI.encode = some stopPointAPI) ∧
    (StopPointAPI.decode stopPointAPI.encode = some stopPointAPI ↔
      IsInt64 stopPointAPI.tripID) := by
  refine ⟨⟨?_, fun h => ⟨_, h⟩⟩, RouteAPI.decodeArray_encodeArray_iff, ⟨?_, fun h => ⟨_, h⟩⟩,
    StopPointAPI.decode_encode_iff⟩
  · rintro ⟨json, h⟩
    refine RouteAPI.decodeArray_encodeArray_iff.mpr fun routeAPI hm => ?_
    obtain ⟨element, he⟩ := mem_of_decodeArray h hm
    exact RouteAPI.inRange_of_decode he
  · rintro ⟨json, h⟩
    exact StopPointAPI.decode_encode_iff.mpr (StopPointAPI.inRange_of_decode h)

end RoundTrip

section UniqueKeys

theorem PointAPI.uniqueKeys_encode (pointAPI : PointAPI) : UniqueKeys pointAPI.encode := by
  refine .object (by simp) fun field hf => ?_
  simp only [List.mem_cons, List.not_mem_nil, or_false] at hf
  rcases hf with rfl | rfl <;> exact .number _

theorem OriginDestinationAPI.uniqueKeys_encode (originDestinationAPI : OriginDestinationAPI) :
    UniqueKeys originDestinationAPI.encode := by
  refine .object (by simp) fun field hf => ?_
  simp only [List.mem_cons, List.not_mem_nil, or_false] at hf
  rcases hf with rfl | rfl
  · exact .string _
  · exact originDestinationAPI.point.uniqueKeys_encode

theorem Stop.uniqueKeys_encode (stop : Stop) : UniqueKeys stop.encode := by
  obtain ⟨point, id⟩ := stop
  refine .object (by cases point <;> cases id <;> simp [encodeIfPresent]) fun field hf => ?_
  rcases List.mem_append.mp hf with hf | hf
  · cases point with
    | none => cases hf
    | some point =>
      obtain rfl := List.mem_singleton.mp hf
      exact point.uniqueKeys_encode
  · cases id with
    | none => cases hf
    | some id =>
      obtain rfl := List.mem_singleton.mp hf
      exact .number _

theorem RouteAPI.uniqueKeys_encode (routeAPI : RouteAPI) : UniqueKeys routeAPI.encode := by
  refine .object (by simp) fun field hf => ?_
  simp only [List.mem_cons, List.not_mem_nil, or_false] at hf
  rcases hf with rfl | rfl | rfl | rfl | rfl | rfl | rfl | rfl | rfl
  · exact .string _
  · exact routeAPI.origin.uniqueKeys_encode
  · exact UniqueKeys.encodeArray fun stop _ => stop.uniqueKeys_encode
  · exact routeAPI.destination.uniqueKeys_encode
  all_goals exact .string _

theorem StopPointAPI.uniqueKeys_encode (stopPointAPI : StopPointAPI) :
    UniqueKeys stopPointAPI.encode := by
  refine .object (by simp) fun field hf => ?_
  simp only [List.mem_cons, List.not_mem_nil, or_false] at hf
  rcases hf with rfl | rfl | rfl | rfl | rfl | rfl | rfl
  · exact .string _
  · exact .bool _
  · exact .string _
  · exact .number _
  · exact .string _
  · exact stopPointAPI.pointAPI.uniqueKeys_encode
  · exact .number _

end UniqueKeys

namespace APIManager

variable {Data : Type}

theorem decoding_ignores_field_order (serialization : Serialization Data)
    (responseJSON : APIRouter → Except NSError JSON) (value : JSON)
    (hr : IsObject value ∨ IsArrayOfObjects value → serialization.RoundTrips value)
    (hu : UniqueKeys value) :
    (responseJSON .routes = .ok value → Transparent (decodeArray RouteAPI.decode) value
      (fun _ => getAllRoutes serialization responseJSON)) ∧
    (∀ stopId, responseJSON (.stop stopId) = .ok value → Transparent StopPointAPI.decode value
      (fun _ => getStop serialization responseJSON stopId)) ∧
    ∀ value', Reordered value value' →
      decodeArray RouteAPI.decode value' = decodeArray RouteAPI.decode value ∧
      StopPointAPI.decode value' = StopPointAPI.decode value := by
  refine ⟨transparent_getAllRoutes hr hu, fun stopId => transparent_getStop hr hu,
    fun value' h => ⟨?_, ?_⟩⟩
  · exact (respects_routeAPI.decodeArray value value' hu h).symm
  · exact (respects_stopPointAPI value value' hu h).symm

theorem decoding_ignores_field_order_reversing :
    Transparent StopPointAPI.decode manuel.encode
      (fun _ => getStop reversing (fun _ => .ok manuel.encode) 1) ∧
    StopPointAPI.decode (reverseFields manuel.encode) = some manuel := by
  obtain ⟨-, hgetStop, hreordered⟩ := decoding_ignores_field_order reversing
    (fun _ => .ok manuel.encode) manuel.encode (fun _ => reversing_roundTrips _)
    manuel.uniqueKeys_encode
  exact ⟨hgetStop 1 rfl, (hreordered _ (reordered_reverseFields _)).2⟩

end APIManager

end Seco
