import Mathlib.Algebra.Order.Ring.Rat
import Mathlib.Data.List.Forall2
import Seco.General.KeyedRows

inductive JSON where
  | null
  | bool (value : Bool)
  | number (value : ℚ)
  | string (value : String)
  | array (elements : List JSON)
  | object (fields : List (String × JSON))

namespace JSON

def asDictionary : JSON → Option (List (String × JSON))
  | object fields => some fields
  | _ => none

def asDictionaries : JSON → Option (List (List (String × JSON)))
  | array elements => elements.mapM asDictionary
  | _ => none

def decodeBool : JSON → Option Bool
  | bool value => some value
  | _ => none

def decodeString : JSON → Option String
  | string value => some value
  | _ => none

def decodeDouble : JSON → Option ℚ
  | number value => some value
  | _ => none

-- 64-bit integers; `1.0` is one, `true` is not
def decodeInt : JSON → Option Int
  | number value =>
    if value.den = 1 ∧ -2 ^ 63 ≤ value.num ∧ value.num < 2 ^ 63 then some value.num else none
  | _ => none

variable {α : Type} (decoder : JSON → Option α)

def decodeArray : JSON → Option (List α)
  | array elements => elements.mapM decoder
  | _ => none

def decode (key : String) (json : JSON) : Option α :=
  json.asDictionary.bind fun fields =>
    (KeyedRows.lookup Prod.fst key fields).bind fun field => decoder field.2

def decodeIfPresent (key : String) (json : JSON) : Option (Option α) :=
  json.asDictionary.bind fun fields =>
    match KeyedRows.lookup Prod.fst key fields with
    | none => some none
    | some (_, .null) => some none
    | some (_, value) => (decoder value).map some

variable {decoder} {json : JSON} {key : String} {a : α}

def IsObject (json : JSON) : Prop := ∃ fields, json = object fields

def IsArrayOfObjects (json : JSON) : Prop :=
  ∃ elements, json = array elements ∧ ∀ element ∈ elements, IsObject element

theorem asDictionary_eq_some_iff {fields : List (String × JSON)} :
    json.asDictionary = some fields ↔ json = object fields := by
  cases json <;> simp [asDictionary]

theorem isObject_iff : IsObject json ↔ json.asDictionary.isSome = true := by
  cases json <;> simp [asDictionary, IsObject]

theorem isObject_of_decode (h : decode decoder key json = some a) : IsObject json := by
  obtain ⟨fields, hf, -⟩ := Option.bind_eq_some_iff.mp h
  exact ⟨fields, asDictionary_eq_some_iff.mp hf⟩

theorem mapM_isSome_iff {β : Type} {f : β → Option α} {bs : List β} :
    (bs.mapM f).isSome = true ↔ ∀ b ∈ bs, (f b).isSome = true := by
  induction bs with
  | nil => simp
  | cons b bs ih =>
    simp only [List.mapM_cons, List.forall_mem_cons, ← ih]
    cases f b <;> cases bs.mapM f <;> simp

theorem decodeArray_isSome_iff {elements : List JSON} :
    (decodeArray decoder (array elements)).isSome = true ↔
      ∀ element ∈ elements, (decoder element).isSome = true := mapM_isSome_iff

theorem isArrayOfObjects_iff : IsArrayOfObjects json ↔ json.asDictionaries.isSome = true := by
  constructor
  · rintro ⟨elements, rfl, h⟩
    exact mapM_isSome_iff.mpr fun element he => isObject_iff.mp (h element he)
  · intro h
    cases json with
    | array elements =>
      exact ⟨elements, rfl, fun element he => isObject_iff.mpr (mapM_isSome_iff.mp h element he)⟩
    | _ => cases h

theorem eq_array_of_asDictionaries {dictionaries : List (List (String × JSON))}
    (h : json.asDictionaries = some dictionaries) : json = array (dictionaries.map object) := by
  cases json with
  | array elements =>
    rw [asDictionaries] at h
    induction elements generalizing dictionaries with
    | nil =>
      obtain rfl := Option.some.inj h
      rfl
    | cons element elements ih =>
      rw [List.mapM_cons] at h
      obtain ⟨fields, hf, h⟩ := Option.bind_eq_some_iff.mp h
      obtain ⟨rest, hr, h⟩ := Option.bind_eq_some_iff.mp h
      obtain rfl := Option.some.inj h
      rw [asDictionary_eq_some_iff.mp hf, array.inj (ih hr)]
      rfl
  | _ => cases h

theorem isArrayOfObjects_of_decodeArray {as : List α}
    (hd : ∀ json a, decoder json = some a → IsObject json)
    (h : decodeArray decoder json = some as) : IsArrayOfObjects json := by
  cases json with
  | array elements =>
    have hs : (decodeArray decoder (array elements)).isSome = true := by simp [h]
    refine ⟨elements, rfl, fun element he => ?_⟩
    obtain ⟨a, ha⟩ := Option.isSome_iff_exists.mp (decodeArray_isSome_iff.mp hs element he)
    exact hd element a ha
  | _ => cases h

-- an object as a dictionary holds it: no key twice, at any depth
inductive UniqueKeys : JSON → Prop
  | null : UniqueKeys null
  | bool (value : Bool) : UniqueKeys (bool value)
  | number (value : ℚ) : UniqueKeys (number value)
  | string (value : String) : UniqueKeys (string value)
  | array {elements : List JSON} (h : ∀ element ∈ elements, UniqueKeys element) :
      UniqueKeys (array elements)
  | object {fields : List (String × JSON)} (hn : (fields.map Prod.fst).Nodup)
      (h : ∀ field ∈ fields, UniqueKeys field.2) : UniqueKeys (object fields)

@[simp] theorem uniqueKeys_array {elements : List JSON} :
    UniqueKeys (array elements) ↔ ∀ element ∈ elements, UniqueKeys element :=
  ⟨fun h => by cases h; assumption, .array⟩

@[simp] theorem uniqueKeys_object {fields : List (String × JSON)} :
    UniqueKeys (object fields) ↔
      (fields.map Prod.fst).Nodup ∧ ∀ field ∈ fields, UniqueKeys field.2 :=
  ⟨fun h => by cases h; constructor <;> assumption, fun ⟨hn, h⟩ => .object hn h⟩

attribute [simp] UniqueKeys.null UniqueKeys.bool UniqueKeys.number UniqueKeys.string

section Fields

def IsInt64 (value : Int) : Prop := -2 ^ 63 ≤ value ∧ value < 2 ^ 63

def Has (json : JSON) (key : String) (value : JSON) : Prop :=
  ∃ fields, json = object fields ∧ (key, value) ∈ fields

def HasIfPresent (R : JSON → α → Prop) (json : JSON) (key : String) : Option α → Prop
  | none => ∀ value, Has json key value → value = null
  | some a => ∃ value, Has json key value ∧ value ≠ null ∧ R value a

-- `R` says, without running `decoder`, what it decodes to
def Reads (decoder : JSON → Option α) (R : JSON → α → Prop) : Prop :=
  ∀ json a, UniqueKeys json → (decoder json = some a ↔ R json a)

variable {R : JSON → α → Prop}

theorem UniqueKeys.has (hu : UniqueKeys json) {value : JSON} (h : Has json key value) :
    UniqueKeys value := by
  obtain ⟨fields, rfl, hm⟩ := h
  cases hu with | object hn hu =>
  exact hu (key, value) hm

theorem lookup_field_iff {fields : List (String × JSON)} (hu : UniqueKeys (object fields))
    {value : JSON} : KeyedRows.lookup Prod.fst key fields = some (key, value) ↔
      Has (object fields) key value := by
  cases hu with | object hn hu =>
  simp [KeyedRows.lookup_eq_some_iff Prod.fst hn, Has]

theorem lookup_none_iff {fields : List (String × JSON)} :
    KeyedRows.lookup Prod.fst key fields = none ↔ ∀ value, ¬ Has (object fields) key value := by
  simp [KeyedRows.lookup_eq_none_iff, Has]

theorem reads_decodeBool : Reads decodeBool fun json value => json = .bool value := by
  intro json value _
  cases json <;> simp [decodeBool]

theorem reads_decodeString : Reads decodeString fun json value => json = .string value := by
  intro json value _
  cases json <;> simp [decodeString]

theorem reads_decodeDouble : Reads decodeDouble fun json value => json = .number value := by
  intro json value _
  cases json <;> simp [decodeDouble]

theorem decodeInt_eq_some_iff {value : Int} :
    decodeInt json = some value ↔ json = .number value ∧ IsInt64 value := by
  cases json with
  | number number =>
    rw [JSON.number.injEq, IsInt64]
    constructor
    · intro h
      rw [decodeInt] at h
      split at h
      next hr =>
        obtain rfl := Option.some.inj h
        exact ⟨Rat.ext rfl hr.1, hr.2⟩
      next => cases h
    · rintro ⟨rfl, hr⟩
      simpa [decodeInt] using hr
  | _ => simp [decodeInt]

theorem reads_decodeInt :
    Reads decodeInt fun json value => json = .number value ∧ IsInt64 value :=
  fun _ _ _ => decodeInt_eq_some_iff

theorem Reads.decode (hd : Reads decoder R) (key : String) :
    Reads (decode decoder key) fun json a => ∃ value, Has json key value ∧ R value a := by
  intro json a hu
  cases json with
  | object fields =>
    simp only [JSON.decode, asDictionary, Option.bind_some, Option.bind_eq_some_iff]
    constructor
    · rintro ⟨⟨key', value⟩, hf, hv⟩
      obtain rfl : key' = key := KeyedRows.key_of_lookup Prod.fst hf
      have hm := (lookup_field_iff hu).mp hf
      exact ⟨value, hm, (hd value a (hu.has hm)).mp hv⟩
    · rintro ⟨value, hm, hv⟩
      exact ⟨(key, value), (lookup_field_iff hu).mpr hm, (hd value a (hu.has hm)).mpr hv⟩
  | _ => simp [JSON.decode, asDictionary, Has]

theorem decodeIfPresent_of_ne_null {fields : List (String × JSON)}
    (hf : KeyedRows.lookup Prod.fst key fields = some (key, json)) (hn : json ≠ null) :
    decodeIfPresent decoder key (object fields) = (decoder json).map some := by
  cases json <;> simp_all [decodeIfPresent, asDictionary]

theorem Reads.decodeIfPresent (hd : Reads decoder R) (key : String) :
    Reads (decodeIfPresent decoder key) fun json a =>
      IsObject json ∧ HasIfPresent R json key a := by
  intro json a hu
  cases json with
  | object fields =>
    have ho : IsObject (object fields) := ⟨fields, rfl⟩
    cases hf : KeyedRows.lookup Prod.fst key fields with
    | none =>
      have hno := lookup_none_iff.mp hf
      cases a <;> simp [JSON.decodeIfPresent, asDictionary, hf, HasIfPresent, hno, ho]
    | some field =>
      obtain ⟨key', value⟩ := field
      obtain rfl : key' = key := KeyedRows.key_of_lookup Prod.fst hf
      have honly : ∀ value', Has (object fields) key' value' ↔ value' = value := fun value' => by
        rw [← lookup_field_iff hu, hf, Option.some.injEq, Prod.mk.injEq, eq_self_iff_true,
          true_and, eq_comm]
      rcases eq_or_ne value null with rfl | hn
      · cases a <;> simp [JSON.decodeIfPresent, asDictionary, hf, HasIfPresent, honly, ho]
      · rw [decodeIfPresent_of_ne_null hf hn]
        cases a with
        | none => simp [HasIfPresent, honly, hn]
        | some a =>
          have hv := hd value a (hu.has ((honly value).mpr rfl))
          simp [HasIfPresent, honly, hn, ho, hv]
  | _ => simp [JSON.decodeIfPresent, asDictionary, IsObject]

theorem Reads.decodeArray (hd : Reads decoder R) :
    Reads (decodeArray decoder) fun json as =>
      ∃ elements, json = array elements ∧ List.Forall₂ R elements as := by
  intro json as hu
  cases hu with
  | array hu =>
    rename_i elements
    simp only [JSON.decodeArray, JSON.array.injEq, exists_eq_left']
    induction elements generalizing as with
    | nil => simp [eq_comm]
    | cons element elements ih =>
      obtain ⟨hu, hus⟩ := List.forall_mem_cons.mp hu
      simp only [List.mapM_cons, Option.bind_eq_bind, Option.bind_eq_some_iff, ih _ hus,
        hd element _ hu, Option.pure_def, Option.some.injEq, List.forall₂_cons_left_iff]
      simp only [exists_and_left, eq_comm]
  | _ => simp [JSON.decodeArray]

end Fields

structure Serialization (Data : Type) where
  data : JSON → Option Data
  parse : Data → Option JSON

namespace Serialization

variable {Data : Type} (serialization : Serialization Data)

def decode (decoder : JSON → Option α) (json : JSON) : Option α := do
  let data ← serialization.data json
  let json ← serialization.parse data
  decoder json

end Serialization

end JSON
