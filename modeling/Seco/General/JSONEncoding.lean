import Seco.General.FieldOrder

namespace JSON

variable {α : Type} (encoder : α → JSON)

def encodeInt (value : Int) : JSON := .number value

def encodeArray (values : List α) : JSON := .array (values.map encoder)

def encodeIfPresent (key : String) : Option α → List (String × JSON)
  | none => []
  | some value => [(key, encoder value)]

variable {encoder} {decoder : JSON → Option α} {values : List α} {json : JSON}

theorem decodeInt_encodeInt_iff {value : Int} :
    decodeInt (encodeInt value) = some value ↔ IsInt64 value := by
  simp [decodeInt, encodeInt, IsInt64]

theorem decodeArray_encodeArray_iff : decodeArray decoder (encodeArray encoder values) = some values ↔
    ∀ value ∈ values, decoder (encoder value) = some value := by
  induction values with
  | nil => simp [decodeArray, encodeArray]
  | cons value values ih =>
    rw [List.forall_mem_cons, ← ih]
    simp only [decodeArray, encodeArray, List.map_cons, List.mapM_cons, Option.bind_eq_bind,
      Option.bind_eq_some_iff, Option.pure_def, Option.some.injEq, List.cons.injEq]
    constructor
    · rintro ⟨_, hv, _, hvs, rfl, rfl⟩
      exact ⟨hv, hvs⟩
    · rintro ⟨hv, hvs⟩
      exact ⟨value, hv, values, hvs, rfl, rfl⟩

theorem mem_of_decodeArray (h : decodeArray decoder json = some values) {value : α}
    (hv : value ∈ values) : ∃ element, decoder element = some value := by
  cases json with
  | array elements =>
    rw [decodeArray] at h
    induction elements generalizing values with
    | nil =>
      obtain rfl := Option.some.inj h
      cases hv
    | cons element elements ih =>
      rw [List.mapM_cons] at h
      obtain ⟨first, hf, h⟩ := Option.bind_eq_some_iff.mp h
      obtain ⟨rest, hr, h⟩ := Option.bind_eq_some_iff.mp h
      obtain rfl := Option.some.inj h
      rcases List.mem_cons.mp hv with rfl | hv
      · exact ⟨element, hf⟩
      · exact ih hv hr
  | _ => cases h

theorem UniqueKeys.encodeArray (h : ∀ value ∈ values, UniqueKeys (encoder value)) :
    UniqueKeys (encodeArray encoder values) := by
  refine .array fun element he => ?_
  obtain ⟨value, hv, rfl⟩ := List.mem_map.mp he
  exact h value hv

theorem exists_of_decode {key : String} {value : α} (h : decode decoder key json = some value) :
    ∃ field, decoder field = some value := by
  obtain ⟨fields, -, h⟩ := Option.bind_eq_some_iff.mp h
  obtain ⟨field, -, h⟩ := Option.bind_eq_some_iff.mp h
  exact ⟨field.2, h⟩

theorem exists_of_decodeIfPresent {key : String} {value : α}
    (h : decodeIfPresent decoder key json = some (some value)) :
    ∃ field, decoder field = some value := by
  obtain ⟨fields, -, h⟩ := Option.bind_eq_some_iff.mp h
  split at h
  next => cases h
  next => cases h
  next _ field _ _ =>
    obtain ⟨value', hd, he⟩ := Option.map_eq_some_iff.mp h
    obtain rfl := Option.some.inj he
    exact ⟨field, hd⟩

end JSON
