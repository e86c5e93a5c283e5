import BeanDispatch.Descriptor.Json
import BeanDispatch.Proofs.CatalogText

/-! Descriptors that are written and read back. A descriptor nests descriptors to any depth, so both
directions follow the tree: what is written of a level is read back before the level is complete.
Names, nullability, the order of the type parameters and the annotations keep their form at every
level, the annotations also where they are left out because there are none; a type is reread as it
is in a catalog. Whatever is decoded, as an object or as an array of fields, has types at every level
that come from texts, so a descriptor that was once read is written and read without change. -/

namespace BeanDispatch

open Json

/-! ### Annotations -/

namespace Annotations

def encodeMembers (m : OrderedMap String) : Json :=
  .object (m.entries.map fun member => (member.1, .str member.2))

theorem decode_encodeMembers (m : OrderedMap String) :
    (decodeMap decodeString (encodeMembers m)).map OrderedMap.ofList = .ok m := by
  rw [encodeMembers, decodeMap_object .str decodeString_str, map_ok, OrderedMap.ofList_entries]

theorem decode_encode (a : Annotations) : decode a.encode = .ok a := by
  have annotations : decodeMap (fun j => (decodeMap decodeString j).map OrderedMap.ofList)
      a.encode = .ok a.entries := decodeMap_object encodeMembers decode_encodeMembers a.entries
  rw [decode, annotations, map_ok, OrderedMap.ofList_entries]

theorem plain_encode (a : Annotations) : Plain 2 a.encode := by
  apply Plain.object
  intro entry written
  obtain ⟨_, _, rfl⟩ := List.mem_map.1 written
  apply Plain.object
  intro member written
  obtain ⟨_, _, rfl⟩ := List.mem_map.1 written
  exact .str _

end Annotations

/-! ### Descriptors with other types -/

namespace Descriptor

/-- The same descriptor with its types replaced at every level. -/
def mapTypes (f : TypeName → TypeName) : Descriptor → Descriptor
  | mk name type typeParameters nullable annotations =>
    mk name (f type) (mapAll typeParameters) nullable annotations
where
  mapAll : List Descriptor → List Descriptor
    | [] => []
    | d :: rest => d.mapTypes f :: mapAll rest

@[simp] theorem mapAll_eq_map (f : TypeName → TypeName) (ds : List Descriptor) :
    mapTypes.mapAll f ds = ds.map (mapTypes f) := by
  induction ds with
  | nil => rfl
  | cons d rest ih => simp [mapTypes.mapAll, ih]

/-! ### Reading what is written -/

mutual

theorem decode_encode : ∀ d : Descriptor, decode d.encode = .ok (d.mapTypes TypeName.reread)
  | mk name type typeParameters nullable annotations => by
    have parameters := decodeAll_encodeAll typeParameters
    cases none : annotations.isEmpty with
    | true =>
      obtain rfl := OrderedMap.eq_empty_of_isEmpty none
      simp [encode, decode, decodeFields, decodeArray, parameters, none, TypeName.decode_encode,
        Found.finish, mapTypes]
    | false =>
      simp [encode, decode, decodeFields, decodeArray, parameters, none, TypeName.decode_encode,
        Annotations.decode_encode, Found.finish, mapTypes]

theorem decodeAll_encodeAll : ∀ ds : List Descriptor,
    decodeAll (encode.encodeAll ds) = .ok (ds.map (mapTypes TypeName.reread))
  | [] => rfl
  | d :: rest => by
    simp [encode.encodeAll, decodeAll, decode_encode d, decodeAll_encodeAll rest]

end

/-! ### Depth -/

/-- The number of levels, the descriptor itself included. -/
def levels : Descriptor → Nat
  | mk _ _ typeParameters _ _ => levelsOfAll typeParameters + 1
where
  levelsOfAll : List Descriptor → Nat
    | [] => 0
    | d :: rest => max d.levels (levelsOfAll rest)

mutual

/-- A level is an object with an array, and the annotations of the last one go no deeper. -/
theorem plain_encode : ∀ d : Descriptor, Plain (2 * d.levels + 1) d.encode
  | mk name type typeParameters nullable annotations => by
    have parameters := plain_encodeAll typeParameters
    apply Plain.object
    simp only [levels, List.forall_mem_append, List.forall_mem_cons]
    refine ⟨⟨.str _, .str _, .array parameters, .bool _, List.forall_mem_nil _⟩, ?_⟩
    split
    · exact List.forall_mem_nil _
    · rw [List.forall_mem_singleton]
      exact annotations.plain_encode.mono (by omega)

theorem plain_encodeAll : ∀ (ds : List Descriptor),
    ∀ json ∈ encode.encodeAll ds, Plain (2 * levels.levelsOfAll ds + 1) json
  | [] => List.forall_mem_nil _
  | d :: rest => by
    rw [encode.encodeAll, List.forall_mem_cons, levels.levelsOfAll]
    refine ⟨(plain_encode d).mono (by omega), fun json later => ?_⟩
    exact (plain_encodeAll rest json later).mono (by omega)

end

/-- A written descriptor stands for its tree, if a reader follows it to its last level. -/
theorem document_encode {d : Descriptor} (within : 2 * d.levels + 1 ≤ depthLimit) :
    document d.encode.pretty = (d.encode, true) :=
  d.plain_encode.document_pretty within

/-! ### Descriptors that were read -/

/-- A descriptor whose types are read back as themselves, at every level. -/
def Legible (d : Descriptor) : Prop := d.mapTypes TypeName.reread = d

theorem legible_mk {name : String} {type : TypeName} {typeParameters : List Descriptor}
    {nullable : Bool} {annotations : Annotations} (legible : type.Legible)
    (parameters : ∀ d ∈ typeParameters, d.Legible) :
    Legible (mk name type typeParameters nullable annotations) := by
  have same : typeParameters.map (mapTypes TypeName.reread) = typeParameters :=
    map_eq_self_iff.2 parameters
  rw [Legible, mapTypes, mapAll_eq_map, same, show type.reread = type from legible]

structure Found.Legible (found : Found) : Prop where
  type : ∀ type ∈ found.type, type.Legible
  typeParameters : ∀ ds ∈ found.typeParameters, ∀ d ∈ ds, d.Legible

theorem Found.legible_start : Found.Legible {} := ⟨nofun, nofun⟩

theorem ensures_finish {found : Found} (legible : found.Legible) :
    Ensures Descriptor.Legible found.finish :=
  (ensures_required legible.type).bind fun _ isLegible =>
    ensures_ok (legible_mk isLegible
      (getD_of_forall_mem legible.typeParameters (List.forall_mem_nil _)))

theorem ensures_decodeTail (name : String) {type : TypeName} {typeParameters : List Descriptor}
    (legible : type.Legible) (parameters : ∀ d ∈ typeParameters, d.Legible) (items : List Json) :
    Ensures Legible (decodeTail name type typeParameters items) := by
  fun_cases decodeTail name type typeParameters items with
  | case1 => exact ensures_ok (legible_mk legible parameters)
  | case2 nullable => exact ensures_update fun _ => legible_mk legible parameters
  | case3 nullable annotations surplus =>
    refine (ensures_any _).bind fun nullable _ => (ensures_any _).bind fun annotations _ => ?_
    split
    · exact ensures_ok (legible_mk legible parameters)
    · exact ensures_error _

/-! A decoder goes down the tree, so its five parts are followed together. -/

mutual

theorem ensures_decode : ∀ json : Json, Ensures Legible (decode json)
  | .object members => by
    rw [decode]
    exact (ensures_decodeFields members Found.legible_start).bind fun _ => ensures_finish
  | .array items => by
    rw [decode]
    exact ensures_decodePositional items
  | .flawed view => by
    rw [decode]
    exact ensures_decode view
  | .broken | .null | .bool _ | .number _ | .str _ => ensures_error _

theorem ensures_decodePositional : ∀ items : List Json, Ensures Legible (decodePositional items)
  | [] => ensures_error _
  | [name] => (ensures_any (decodeString name)).bind fun _ _ => ensures_error _
  | [name, type] => by
    refine (ensures_any (decodeString name)).bind fun name _ => ?_
    exact (TypeName.ensures_decode type).bind fun type legible =>
      ensures_ok (legible_mk legible (List.forall_mem_nil _))
  | name :: type :: typeParameters :: rest => by
    rw [decodePositional]
    refine (ensures_any (decodeString name)).bind fun name _ => ?_
    refine (TypeName.ensures_decode type).bind fun type legible => ?_
    refine (ensures_decodeArray typeParameters).bind fun ds parameters => ?_
    exact ensures_decodeTail name legible parameters rest

theorem ensures_decodeArray : ∀ json : Json,
    Ensures (fun ds => ∀ d ∈ ds, d.Legible) (decodeArray json)
  | .array items => by
    rw [decodeArray]
    exact ensures_decodeAll items
  | .flawed view => by
    rw [decodeArray]
    exact ensures_decodeArray view
  | .broken | .null | .bool _ | .number _ | .str _ | .object _ => ensures_error _

theorem ensures_decodeAll : ∀ items : List Json,
    Ensures (fun ds => ∀ d ∈ ds, d.Legible) (decodeAll items)
  | [] => ensures_ok (List.forall_mem_nil _)
  | json :: rest => by
    rw [decodeAll]
    refine (ensures_decode json).bind fun d legible => ?_
    exact (ensures_decodeAll rest).bind fun ds later =>
      ensures_ok (List.forall_mem_cons.2 ⟨legible, later⟩)

theorem ensures_decodeFields : ∀ (members : List (String × Json)) {found : Found},
    found.Legible → Ensures Found.Legible (decodeFields found members)
  | [], _, legible => ensures_ok legible
  | (key, json) :: rest, found, legible => by
    have ⟨type, typeParameters⟩ := legible
    have parameters := ensures_decodeArray json
    have later : ∀ {found : Found}, found.Legible →
        Ensures Found.Legible (decodeFields found rest) := ensures_decodeFields rest
    rw [decodeFields]
    split_ifs
    · exact (ensures_any _).bind fun _ _ => later ⟨type, typeParameters⟩
    · exact (ensures_once TypeName.ensures_decode json).bind fun _ holds =>
        later ⟨holds, typeParameters⟩
    · cases found.typeParameters with
      | some ds => exact ensures_error _
      | none => exact parameters.bind fun _ holds => later ⟨type, forall_mem_some holds⟩
    · exact (ensures_any _).bind fun _ _ => later ⟨type, typeParameters⟩
    · exact (ensures_any _).bind fun _ _ => later ⟨type, typeParameters⟩
    · exact (ensures_any _).bind fun _ _ => later legible

end

/-! ### Texts -/

/-- A descriptor that is written is read back, and at every level each class that is named like a
keyword is replaced by the keyword and nothing else is changed. The same holds for every text whose
tree is the written one. Every descriptor that was read from some text comes back unchanged. -/
theorem decodeText_encode :
    (∀ d : Descriptor, decode d.encode = .ok (d.mapTypes TypeName.reread) ∧
      ∀ text, document text = (d.encode, true) →
        decodeText decode text = .ok (d.mapTypes TypeName.reread)) ∧
    ∀ (text : String) (d : Descriptor), decodeText decode text = .ok d →
      decode d.encode = .ok d ∧
        ∀ again, document again = (d.encode, true) → decodeText decode again = .ok d := by
  constructor
  · intro d
    refine ⟨decode_encode d, fun text holds => ?_⟩
    rw [decodeText_of_document holds, decode_encode]
  · intro text d read
    have legible : d.mapTypes TypeName.reread = d :=
      ensures_decodeText ensures_decode text d read
    have same : decode d.encode = .ok d := by rw [decode_encode, legible]
    refine ⟨same, fun again holds => ?_⟩
    rw [decodeText_of_document holds, same]

/-- A parameter without a name whose type arguments go two levels down and end in a class named
`int`, with an annotation that has members and one that has none. -/
def balances : Descriptor :=
  mk "" (.named "Map")
    [mk "K" (.named "String") [] false OrderedMap.empty,
      mk "V" (.named "List") [mk "E" (.named "int") [] true OrderedMap.empty] false
        (OrderedMap.ofList [("Size", OrderedMap.ofList [("min", "1"), ("max", "9")])])]
    true (OrderedMap.ofList [("NotNull", OrderedMap.empty)])

def rereadBalances : Descriptor :=
  mk "" (.named "Map")
    [mk "K" (.named "String") [] false OrderedMap.empty,
      mk "V" (.named "List") [mk "E" (.primitive .int) [] true OrderedMap.empty] false
        (OrderedMap.ofList [("Size", OrderedMap.ofList [("min", "1"), ("max", "9")])])]
    true (OrderedMap.ofList [("NotNull", OrderedMap.empty)])

theorem decodeText_encode_balances :
    document balances.encode.pretty = (balances.encode, true) ∧
      decodeText decode balances.encode.pretty = .ok rereadBalances ∧
      decode rereadBalances.encode = .ok rereadBalances := by
  have written := document_encode (show 2 * balances.levels + 1 ≤ depthLimit by decide)
  have read := (decodeText_encode.1 balances).2 _ written
  exact ⟨written, read, (decodeText_encode.2 _ rereadBalances read).1⟩

end Descriptor

end BeanDispatch
