import Seco.General.JSONDecoding

namespace JSON

theorem inductionOn {motive : JSON → Prop} (json : JSON) (null : motive .null)
    (bool : ∀ value, motive (.bool value)) (number : ∀ value, motive (.number value))
    (string : ∀ value, motive (.string value))
    (array : ∀ elements, (∀ element ∈ elements, motive element) → motive (.array elements))
    (object : ∀ fields, (∀ field ∈ fields, motive field.2) → motive (.object fields)) :
    motive json :=
  match json with
  | .null => null
  | .bool value => bool value
  | .number value => number value
  | .string value => string value
  | .array elements => array elements fun element _ =>
    inductionOn element null bool number string array object
  | .object fields => object fields fun field _ =>
    inductionOn field.2 null bool number string array object
termination_by sizeOf json
decreasing_by
  · have hlt := List.sizeOf_lt_of_mem ‹element ∈ elements›
    simp only [JSON.array.sizeOf_spec]
    omega
  · have hlt := List.sizeOf_lt_of_mem ‹field ∈ fields›
    obtain ⟨key, value⟩ := field
    simp only [JSON.object.sizeOf_spec, Prod.mk.sizeOf_spec] at hlt ⊢
    omega

inductive Reordered : JSON → JSON → Prop
  | null : Reordered null null
  | bool (value : Bool) : Reordered (bool value) (bool value)
  | number (value : ℚ) : Reordered (number value) (number value)
  | string (value : String) : Reordered (string value) (string value)
  | array {elements elements' : List JSON} (h : List.Forall₂ Reordered elements elements') :
      Reordered (array elements) (array elements')
  | object {fields between fields' : List (String × JSON)}
      (hk : fields.map Prod.fst = between.map Prod.fst)
      (h : List.Forall₂ Reordered (fields.map Prod.snd) (between.map Prod.snd))
      (hp : between.Perm fields') : Reordered (object fields) (object fields')

variable {json json' : JSON} {α β : Type} {decoder : JSON → Option α}

theorem Reordered.refl (json : JSON) : Reordered json json := by
  induction json using inductionOn with
  | null => exact .null
  | bool value => exact .bool value
  | number value => exact .number value
  | string value => exact .string value
  | array elements ih => exact .array (List.forall₂_same.mpr ih)
  | object fields ih =>
    refine .object rfl (List.forall₂_same.mpr fun value hv => ?_) (.refl fields)
    obtain ⟨field, hf, rfl⟩ := List.mem_map.mp hv
    exact ih field hf

-- the order of an object's fields makes no difference to what is decoded
def Respects (decoder : JSON → Option α) : Prop :=
  ∀ json json', UniqueKeys json → Reordered json json' → decoder json = decoder json'

theorem respects_decodeBool : Respects decodeBool := by
  rintro _ _ - (_ | _ | _ | _ | _ | _) <;> rfl

theorem respects_decodeString : Respects decodeString := by
  rintro _ _ - (_ | _ | _ | _ | _ | _) <;> rfl

theorem respects_decodeDouble : Respects decodeDouble := by
  rintro _ _ - (_ | _ | _ | _ | _ | _) <;> rfl

theorem respects_decodeInt : Respects decodeInt := by
  rintro _ _ - (_ | _ | _ | _ | _ | _) <;> rfl

theorem Respects.decodeArray (hd : Respects decoder) : Respects (decodeArray decoder) := by
  intro json json' hu hr
  cases hr with
  | array h =>
    cases hu with | array hu =>
    simp only [JSON.decodeArray]
    induction h with
    | nil => rfl
    | cons hr _ ih =>
      obtain ⟨hu, hus⟩ := List.forall_mem_cons.mp hu
      rw [List.mapM_cons, List.mapM_cons, hd _ _ hu hr, ih hus]
  | _ => rfl

theorem lookup_between {fields between : List (String × JSON)}
    (hk : fields.map Prod.fst = between.map Prod.fst)
    (h : List.Forall₂ Reordered (fields.map Prod.snd) (between.map Prod.snd)) (key : String) :
    Option.Rel Reordered ((KeyedRows.lookup Prod.fst key fields).map Prod.snd)
      ((KeyedRows.lookup Prod.fst key between).map Prod.snd) := by
  induction fields generalizing between with
  | nil =>
    obtain rfl : between = [] := by simpa using hk.symm
    exact .none
  | cons field fields ih =>
    cases between with
    | nil => cases hk
    | cons field' between =>
      obtain ⟨hkey, hk⟩ := List.cons.inj hk
      obtain ⟨hr, h⟩ := List.forall₂_cons.mp h
      rw [KeyedRows.lookup_cons, KeyedRows.lookup_cons, hkey]
      split
      · exact .some hr
      · exact ih hk h

theorem lookup_perm {fields fields' : List (String × JSON)}
    (hn : (fields.map Prod.fst).Nodup) (hp : fields.Perm fields') (key : String) :
    KeyedRows.lookup Prod.fst key fields = KeyedRows.lookup Prod.fst key fields' := by
  induction hp with
  | nil => rfl
  | cons field _ ih =>
    rw [KeyedRows.lookup_cons, KeyedRows.lookup_cons, ih (List.nodup_cons.mp hn).2]
  | swap field field' fields =>
    simp only [KeyedRows.lookup_cons]
    split <;> rename_i h
    · split <;> rename_i h'
      · simp [h, h'] at hn
      · rfl
    · rfl
  | trans hp _ ih ih' => exact (ih hn).trans (ih' ((hp.map Prod.fst).nodup_iff.mp hn))

theorem lookup_reordered {fields fields' : List (String × JSON)}
    (hu : UniqueKeys (object fields)) (hr : Reordered (object fields) (object fields'))
    (key : String) :
    (KeyedRows.lookup Prod.fst key fields = none ∧
      KeyedRows.lookup Prod.fst key fields' = none) ∨
    ∃ value value', KeyedRows.lookup Prod.fst key fields = some (key, value) ∧
      KeyedRows.lookup Prod.fst key fields' = some (key, value') ∧ UniqueKeys value ∧
      Reordered value value' := by
  cases hr with | object hk h hp =>
  cases hu with | object hn hu =>
  have hrel := lookup_between hk h key
  rw [lookup_perm (hk ▸ hn) hp key] at hrel
  cases hf : KeyedRows.lookup Prod.fst key fields with
  | none =>
    rw [hf] at hrel
    cases hf' : KeyedRows.lookup Prod.fst key fields' with
    | none => exact .inl ⟨rfl, rfl⟩
    | some field' =>
      rw [hf'] at hrel
      cases hrel
  | some field =>
    rw [hf] at hrel
    cases hf' : KeyedRows.lookup Prod.fst key fields' with
    | none =>
      rw [hf'] at hrel
      cases hrel
    | some field' =>
      rw [hf'] at hrel
      cases hrel with | some hr =>
      have hkey : field.1 = key := KeyedRows.key_of_lookup Prod.fst hf
      have hkey' : field'.1 = key := KeyedRows.key_of_lookup Prod.fst hf'
      subst hkey
      refine .inr ⟨field.2, field'.2, rfl, ?_, hu field (List.mem_of_find?_eq_some hf), hr⟩
      rw [← hkey']

theorem Respects.decode (hd : Respects decoder) (key : String) :
    Respects (decode decoder key) := by
  intro json json' hu hr
  cases hr with
  | object hk h hp =>
    rcases lookup_reordered hu (.object hk h hp) key with
      ⟨hf, hf'⟩ | ⟨value, value', hf, hf', hu, hr⟩
    · simp [JSON.decode, asDictionary, hf, hf']
    · simp [JSON.decode, asDictionary, hf, hf', hd value value' hu hr]
  | _ => rfl

theorem Reordered.null_iff (hr : Reordered json json') : json = .null ↔ json' = .null := by
  cases hr <;> simp

theorem Respects.decodeIfPresent (hd : Respects decoder) (key : String) :
    Respects (decodeIfPresent decoder key) := by
  intro json json' hu hr
  cases hr with
  | object hk h hp =>
    rcases lookup_reordered hu (.object hk h hp) key with
      ⟨hf, hf'⟩ | ⟨value, value', hf, hf', hu, hr⟩
    · simp [JSON.decodeIfPresent, asDictionary, hf, hf']
    · by_cases hn : value = .null
      · obtain rfl := hn
        obtain rfl := hr.null_iff.mp rfl
        simp [JSON.decodeIfPresent, asDictionary, hf, hf']
      · have hn' : value' ≠ .null := fun he => hn (hr.null_iff.mpr he)
        rw [decodeIfPresent_of_ne_null hf hn, decodeIfPresent_of_ne_null hf' hn',
          hd value value' hu hr]
  | _ => rfl

theorem Respects.bind {f : α → JSON → Option β} (hd : Respects decoder)
    (hf : ∀ a, Respects (f a)) : Respects fun json => decoder json >>= fun a => f a json := by
  intro json json' hu hr
  have he : decoder json = decoder json' := hd json json' hu hr
  have hfe : ∀ a, f a json = f a json' := fun a => hf a json json' hu hr
  simp only [he, hfe]

theorem Respects.pure (a : α) : Respects fun _ => some a := fun _ _ _ _ => rfl

namespace Serialization

variable {Data : Type} {serialization : Serialization Data}

-- what comes back may list the fields of any object in another order
def RoundTrips (serialization : Serialization Data) (json : JSON) : Prop :=
  ∃ parsed, (serialization.data json).bind serialization.parse = some parsed ∧
    Reordered json parsed

theorem RoundTrips.decode_eq (hr : serialization.RoundTrips json) (hd : Respects decoder)
    (hu : UniqueKeys json) : serialization.decode decoder json = decoder json := by
  obtain ⟨parsed, hp, hre⟩ := hr
  obtain ⟨data, hdata, hparse⟩ := Option.bind_eq_some_iff.mp hp
  simp [Serialization.decode, hdata, hparse, hd json parsed hu hre]

end Serialization

end JSON
