import BeanDispatch.Catalog.Json
import BeanDispatch.Proofs.Decoding
import Mathlib.Tactic.SplitIfs

/-! Catalogs that are written and read back. A type is written as its text, so a class named like a
keyword is read back as the keyword: `TypeName.reread` is what becomes of a type, and a type is
legible if it stays. All else in a catalog keeps its form. The written catalog is a plain tree, and
decoding goes through its members one by one, so what is read back is the catalog with each type
reread. Whatever is decoded has types that come from texts and are thus legible, so a catalog that
was once read is written and read without change. -/

namespace BeanDispatch

open Json

/-! ### Types -/

namespace TypeName

/-- The names that a written type does not keep for a class. -/
def keywords : List String := ["void", "boolean", "int", "long", "double"]

/-- What a reader takes the written type for: a class named like a keyword becomes the keyword. -/
def reread : TypeName → TypeName
  | named "void" => void
  | named "boolean" => primitive .boolean
  | named "int" => primitive .int
  | named "long" => primitive .long
  | named "double" => primitive .double
  | type => type

theorem ofText_text (type : TypeName) : ofText type.text = type.reread := by
  cases type with
  | void => rfl
  | primitive kind => cases kind <;> rfl
  | named name =>
    by_cases reserved : name ∈ keywords
    · revert name
      decide
    · simp only [keywords, List.mem_cons, List.not_mem_nil, not_or, or_false] at reserved
      simp [ofText, text, Primitive.ofKeyword?, reread, reserved]

theorem text_ofText (written : String) : (ofText written).text = written := by
  by_cases reserved : written ∈ keywords
  · revert written
    decide
  · simp only [keywords, List.mem_cons, List.not_mem_nil, not_or, or_false] at reserved
    simp [ofText, text, Primitive.ofKeyword?, reserved]

theorem reread_ofText (written : String) : (ofText written).reread = ofText written := by
  rw [← ofText_text, text_ofText]

/-- Only a class named like a keyword is taken for something else. -/
theorem reread_eq_self_iff {type : TypeName} :
    type.reread = type ↔ ∀ name ∈ keywords, type ≠ named name := by
  constructor
  · rintro kept name reserved rfl
    revert name
    decide
  · intro free
    cases type with
    | void => rfl
    | primitive kind => rfl
    | named name =>
      have free : name ∉ keywords := fun reserved => free name reserved rfl
      simp only [keywords, List.mem_cons, List.not_mem_nil, not_or, or_false] at free
      simp [reread, free]

end TypeName

/-! ### Catalogs with other types -/

/-- The same signature with its types replaced. -/
def Signature.mapTypes (f : TypeName → TypeName) (s : Signature) : Signature :=
  ⟨s.name, s.params.map f, f s.result⟩

def Signature.types (s : Signature) : List TypeName := s.result :: s.params

theorem Signature.mapTypes_eq_self_iff {f : TypeName → TypeName} {s : Signature} :
    s.mapTypes f = s ↔ ∀ type ∈ s.types, f type = type := by
  cases s
  simp [mapTypes, types, map_eq_self_iff, and_comm]

namespace Target

def mapTypes (f : TypeName → TypeName) : Target → Target
  | fieldGet field => fieldGet { field with type := f field.type }
  | fieldSet field => fieldSet { field with type := f field.type }
  | method m style => method { m with signature := m.signature.mapTypes f } style
  | intercepted t =>
    intercepted { t with method.signature := t.method.signature.mapTypes f }

def types : Target → List TypeName
  | fieldGet field => [field.type]
  | fieldSet field => [field.type]
  | method m _ => m.signature.types
  | intercepted t => t.method.signature.types

theorem mapTypes_eq_self_iff {f : TypeName → TypeName} {t : Target} :
    t.mapTypes f = t ↔ ∀ type ∈ t.types, f type = type := by
  cases t with
  | fieldGet field =>
    cases field
    simp [mapTypes, types]
  | fieldSet field =>
    cases field
    simp [mapTypes, types]
  | method m style =>
    cases m
    simp [mapTypes, types, Signature.mapTypes_eq_self_iff]
  | intercepted t =>
    rcases t with ⟨⟨_, _, _⟩, _, _, _⟩
    simp [mapTypes, types, Signature.mapTypes_eq_self_iff]

end Target

namespace Catalog

def mapTypes (f : TypeName → TypeName) (c : Catalog) : Catalog :=
  { c with targets := c.targets.map (Target.mapTypes f) }

def types (c : Catalog) : List TypeName := c.targets.flatMap Target.types

theorem mapTypes_eq_self_iff {f : TypeName → TypeName} {c : Catalog} :
    c.mapTypes f = c ↔ ∀ type ∈ c.types, f type = type := by
  have targets : c.mapTypes f = c ↔ ∀ t ∈ c.targets, t.mapTypes f = t := by
    cases c
    simp [mapTypes, map_eq_self_iff]
  rw [targets]
  simp only [types, List.mem_flatMap, Target.mapTypes_eq_self_iff]
  exact ⟨fun each type ⟨t, inTargets, inTypes⟩ => each t inTargets type inTypes,
    fun each t inTargets type inTypes => each type ⟨t, inTargets, inTypes⟩⟩

end Catalog

/-! ### Reading what is written -/

theorem TypeName.decode_encode (type : TypeName) : decode type.encode = .ok type.reread :=
  congrArg Except.ok (ofText_text type)

theorem TypeName.plain_encode {limit : Nat} (type : TypeName) : Plain limit type.encode := .str _

namespace Signature

theorem decode_encode (surplus : DecodeError) (s : Signature) :
    decode surplus s.encode = .ok (s.mapTypes TypeName.reread) := by
  have params := decodeList_encode TypeName.decode_encode s.params
  simp [decode, encode, decoder, params, TypeName.decode_encode, mapTypes]

theorem plain_encode (s : Signature) : Plain 2 s.encode := by
  apply Plain.object
  simp only [List.forall_mem_cons]
  refine ⟨.str _, .array ?_, .str _, List.forall_mem_nil _⟩
  intro json written
  obtain ⟨type, _, rfl⟩ := List.mem_map.1 written
  exact type.plain_encode

end Signature

theorem DispatchStyle.decode_keyword (style : DispatchStyle) :
    decode (.str style.keyword) = .ok style := by
  cases style <;> rfl

theorem Target.Kind.decode_keyword (kind : Kind) : decode (.str kind.keyword) = .ok kind := by
  cases kind <;> rfl

namespace Target

theorem splitKind_other (kind : Option Kind) (content members : List (String × Json))
    (others : ∀ member ∈ members, member.1 ≠ "kind" ∧ member.2.readable = true) :
    splitKind kind content members = .ok (kind, content.reverse ++ members) := by
  induction members generalizing content with
  | nil => simp [splitKind]
  | cons member members ih =>
    obtain ⟨named, readable⟩ := others member List.mem_cons_self
    rw [splitKind, if_neg named, readThrough, if_pos readable, ok_bind,
      ih (member :: content) fun later inRest => others later (List.mem_cons_of_mem member inRest)]
    simp

/-- A target that begins with its kind is decoded as one of this kind from what follows. -/
theorem decode_kind_first (kind : Kind) {members : List (String × Json)}
    (others : ∀ member ∈ members, member.1 ≠ "kind" ∧ member.2.readable = true) :
    decode (.object (("kind", .str kind.keyword) :: members)) =
      decodeContent kind (.object members) := by
  rw [decode, splitKind, if_pos rfl]
  simp [kind.decode_keyword, splitKind_other (some kind) [] members others]

theorem decode_encodeField (kind : Kind) (make : FieldTarget → Target) (field : FieldTarget)
    (made : decodeContent kind = (fieldDecoder make).decode .invalidLength) :
    decode (encodeField kind field) = .ok (make { field with type := field.type.reread }) := by
  rw [encodeField, decode_kind_first, made]
  · simp [fieldDecoder, TypeName.decode_encode]
  · simp [TypeName.encode, readable]

theorem decode_encode (t : Target) : decode t.encode = .ok (t.mapTypes TypeName.reread) := by
  cases t with
  | fieldGet field => exact decode_encodeField .fieldGet fieldGet field rfl
  | fieldSet field => exact decode_encodeField .fieldSet fieldSet field rfl
  | method m style =>
    rw [encode, encodeMethod, List.cons_append, decode_kind_first]
    · simp [decodeContent, methodDecoder, Signature.decode_encode, DispatchStyle.decode_keyword,
        mapTypes]
    · simp [m.signature.plain_encode.readable, readable]
  | intercepted t =>
    rw [encode, encodeMethod, List.cons_append, decode_kind_first]
    · simp [decodeContent, interceptedDecoder, Signature.decode_encode, mapTypes]
    · simp [t.method.signature.plain_encode.readable, readable]

theorem plain_encodeField (kind : Kind) (field : FieldTarget) :
    Plain 3 (encodeField kind field) := by
  apply Plain.object
  simp only [List.forall_mem_cons]
  exact ⟨.str _, .str _, .str _, .str _, List.forall_mem_nil _⟩

theorem plain_encodeMethod (kind : Kind) (m : MethodTarget) {more : List (String × Json)}
    (plain : ∀ member ∈ more, Plain 2 member.2) : Plain 3 (encodeMethod kind m more) := by
  apply Plain.object
  simp only [List.cons_append, List.forall_mem_cons]
  exact ⟨.str _, .str _, m.signature.plain_encode, .bool _, plain⟩

theorem plain_encode (t : Target) : Plain 3 t.encode := by
  cases t with
  | fieldGet field => exact plain_encodeField .fieldGet field
  | fieldSet field => exact plain_encodeField .fieldSet field
  | method m style =>
    apply plain_encodeMethod
    simp only [List.forall_mem_cons]
    exact ⟨.str _, List.forall_mem_nil _⟩
  | intercepted t =>
    apply plain_encodeMethod
    simp only [List.forall_mem_cons]
    exact ⟨.str _, .str _, .str _, List.forall_mem_nil _⟩

end Target

namespace Catalog

theorem decode_encode (c : Catalog) : decode c.encode = .ok (c.mapTypes TypeName.reread) := by
  have targets := decodeList_encode Target.decode_encode c.targets
  simp [decode, encode, decoder, targets, mapTypes]

theorem plain_encode (c : Catalog) : Plain 5 c.encode := by
  apply Plain.object
  simp only [List.forall_mem_cons]
  refine ⟨.str _, .array ?_, List.forall_mem_nil _⟩
  intro json written
  obtain ⟨t, _, rfl⟩ := List.mem_map.1 written
  exact t.plain_encode

theorem ofDescription_written (c : Catalog) :
    ofDescription c.description = .ok (c.mapTypes TypeName.reread) :=
  (c.plain_encode.decodeText_pretty (by decide) decode).trans c.decode_encode

end Catalog

/-! ### Types that were read -/

/-- A type that is read back as itself. -/
def TypeName.Legible (type : TypeName) : Prop := type.reread = type

theorem TypeName.ensures_decode (json : Json) : Ensures Legible (decode json) :=
  (ensures_any (decodeString json)).map fun written _ => reread_ofText written

namespace Signature

def Legible (s : Signature) : Prop := ∀ type ∈ s.types, type.Legible

structure Found.Legible (found : Found) : Prop where
  params : ∀ params ∈ found.params, ∀ type ∈ params, type.Legible
  result : ∀ type ∈ found.result, type.Legible

theorem legible_mk {name : String} {params : List TypeName} {result : TypeName}
    (paramsLegible : ∀ type ∈ params, type.Legible) (resultLegible : result.Legible) :
    Legible ⟨name, params, result⟩ := List.forall_mem_cons.2 ⟨resultLegible, paramsLegible⟩

theorem ensures_decode (surplus : DecodeError) (json : Json) :
    Ensures Legible (decode surplus json) := by
  have void : TypeName.void.Legible := rfl
  have params := ensures_decodeList TypeName.ensures_decode
  refine RecordDecoder.ensures Found.Legible ?_ ?_ ?_ ?_ surplus json
  · exact ⟨by simp [decoder], by simp [decoder]⟩
  · intro found key json legible
    simp only [decoder]
    split_ifs
    · exact ensures_update fun _ => ⟨legible.params, legible.result⟩
    · exact (ensures_once params json).bind fun _ holds => ensures_ok ⟨holds, legible.result⟩
    · exact (ensures_once TypeName.ensures_decode json).bind fun _ holds =>
        ensures_ok ⟨legible.params, holds⟩
    · exact ensures_update fun _ => legible
  · intro found legible
    exact ensures_update fun _ => legible_mk (getD_of_forall_mem legible.params nofun)
      (getD_of_forall_mem legible.result void)
  · refine (ensuresItem_any _).bind fun name _ => ?_
    refine (ensuresItem_optional nofun params).bind fun params areLegible => ?_
    refine (ensuresItem_optional void TypeName.ensures_decode).bind fun _ isLegible => ?_
    exact ensuresItem_pure (legible_mk areLegible isLegible)

end Signature

namespace Target

def Legible (t : Target) : Prop := ∀ type ∈ t.types, type.Legible

structure Found.Legible (found : Found) : Prop where
  type : ∀ type ∈ found.type, type.Legible
  signature : ∀ s ∈ found.signature, s.Legible

theorem Found.legible_start : Found.Legible {} := ⟨nofun, nofun⟩

theorem ensures_fieldDecoder {make : FieldTarget → Target}
    (types : ∀ field, (make field).types = [field.type]) (content : Json) :
    Ensures Legible ((fieldDecoder make).decode .invalidLength content) := by
  have made : ∀ {owner name type}, type.Legible → Legible (make ⟨owner, name, type⟩) := by
    intro owner name type legible
    simpa only [Legible, types, List.forall_mem_singleton] using legible
  refine RecordDecoder.ensures Found.Legible Found.legible_start ?_ ?_ ?_ _ content
  · intro found key json legible
    simp only [fieldDecoder]
    split_ifs
    · exact ensures_update fun _ => ⟨legible.type, legible.signature⟩
    · exact ensures_update fun _ => ⟨legible.type, legible.signature⟩
    · exact (ensures_once TypeName.ensures_decode json).bind fun _ holds =>
        ensures_ok ⟨holds, legible.signature⟩
    · exact ensures_ok legible
  · intro found legible
    refine (ensures_any (required "owner" found.owner)).bind fun owner _ => ?_
    refine (ensures_any (required "name" found.name)).bind fun name _ => ?_
    exact (ensures_required legible.type).bind fun type holds => ensures_ok (made holds)
  · refine (ensuresItem_any _).bind fun owner _ => (ensuresItem_any _).bind fun name _ => ?_
    exact (ensuresItem_required TypeName.ensures_decode).bind fun type holds =>
      ensuresItem_pure (made holds)

theorem ensures_methodDecoder (content : Json) :
    Ensures Legible (methodDecoder.decode .invalidLength content) := by
  have signature := Signature.ensures_decode .invalidLength
  refine RecordDecoder.ensures Found.Legible Found.legible_start ?_ ?_ ?_ _ content
  · intro found key json legible
    simp only [methodDecoder]
    split_ifs
    · exact ensures_update fun _ => ⟨legible.type, legible.signature⟩
    · exact (ensures_once signature json).bind fun _ holds => ensures_ok ⟨legible.type, holds⟩
    · exact ensures_update fun _ => ⟨legible.type, legible.signature⟩
    · exact ensures_update fun _ => ⟨legible.type, legible.signature⟩
    · exact ensures_ok legible
  · intro found legible
    refine (ensures_any (required "declaring" found.declaring)).bind fun declaring _ => ?_
    exact (ensures_required legible.signature).bind fun s holds => ensures_ok holds
  · refine (ensuresItem_any _).bind fun declaring _ => ?_
    refine (ensuresItem_required signature).bind fun s holds => ?_
    refine (ensuresItem_any _).bind fun viaInterface _ => ?_
    exact (ensuresItem_any _).bind fun style _ => ensuresItem_pure holds

theorem ensures_interceptedDecoder (content : Json) :
    Ensures Legible (interceptedDecoder.decode .invalidLength content) := by
  have signature := Signature.ensures_decode .invalidLength
  refine RecordDecoder.ensures Found.Legible Found.legible_start ?_ ?_ ?_ _ content
  · intro found key json legible
    simp only [interceptedDecoder]
    split_ifs
    · exact ensures_update fun _ => ⟨legible.type, legible.signature⟩
    · exact (ensures_once signature json).bind fun _ holds => ensures_ok ⟨legible.type, holds⟩
    · exact ensures_update fun _ => ⟨legible.type, legible.signature⟩
    · exact ensures_update fun _ => ⟨legible.type, legible.signature⟩
    · exact ensures_update fun _ => ⟨legible.type, legible.signature⟩
    · exact ensures_update fun _ => ⟨legible.type, legible.signature⟩
    · exact ensures_ok legible
  · intro found legible
    refine (ensures_any (required "declaring" found.declaring)).bind fun declaring _ => ?_
    refine (ensures_required legible.signature).bind fun s holds => ?_
    refine (ensures_any _).bind fun proxy _ => (ensures_any _).bind fun bridge _ => ?_
    exact (ensures_any _).bind fun thisType _ => ensures_ok holds
  · refine (ensuresItem_any _).bind fun declaring _ => ?_
    refine (ensuresItem_required signature).bind fun s holds => ?_
    refine (ensuresItem_any _).bind fun viaInterface _ => (ensuresItem_any _).bind fun proxy _ => ?_
    refine (ensuresItem_any _).bind fun bridge _ => (ensuresItem_any _).bind fun thisType _ => ?_
    exact ensuresItem_pure holds

theorem ensures_decodeContent (kind : Kind) (content : Json) :
    Ensures Legible (decodeContent kind content) := by
  cases kind with
  | fieldGet => exact ensures_fieldDecoder (fun _ => rfl) content
  | fieldSet => exact ensures_fieldDecoder (fun _ => rfl) content
  | method => exact ensures_methodDecoder content
  | intercepted => exact ensures_interceptedDecoder content

theorem ensures_decode (json : Json) : Ensures Legible (decode json) := by
  fun_induction decode json with
  | case1 members =>
    refine (ensures_any _).bind fun split _ => ?_
    exact (ensures_any _).bind fun kind _ => ensures_decodeContent kind _
  | case2 => exact ensures_error _
  | case3 kind content =>
    refine (ensures_any _).bind fun kind _ => ?_
    exact (ensures_any _).bind fun _ _ => ensures_decodeContent kind _
  | case4 view ih => exact ih
  | case5 => exact ensures_error _
  | case6 => exact ensures_error _

end Target

namespace Catalog

def Legible (c : Catalog) : Prop := ∀ type ∈ c.types, type.Legible

structure Found.Legible (found : Found) : Prop where
  targets : ∀ targets ∈ found.targets, ∀ t ∈ targets, t.Legible

theorem legible_mk {thisType : String} {targets : List Target} (each : ∀ t ∈ targets, t.Legible) :
    Legible ⟨thisType, targets⟩ := by
  intro type mentioned
  obtain ⟨t, inTargets, inTypes⟩ := List.mem_flatMap.1 mentioned
  exact each t inTargets type inTypes

theorem ensures_decode (json : Json) : Ensures Legible (decode json) := by
  have targets := ensures_decodeList Target.ensures_decode
  refine RecordDecoder.ensures Found.Legible ⟨by simp [decoder]⟩ ?_ ?_ ?_ _ json
  · intro found key json legible
    simp only [decoder]
    split_ifs
    · exact ensures_update fun _ => ⟨legible.targets⟩
    · exact (ensures_once targets json).bind fun _ holds => ensures_ok ⟨holds⟩
    · exact ensures_update fun _ => legible
  · intro found legible
    exact ensures_update fun _ => legible_mk (getD_of_forall_mem legible.targets nofun)
  · refine (ensuresItem_any _).bind fun thisType _ => ?_
    exact (ensuresItem_optional nofun targets).bind fun _ holds =>
      ensuresItem_pure (legible_mk holds)

/-- Whatever text a catalog was read from, its types are read back as themselves. -/
theorem legible_of_ofDescription {text : String} {c : Catalog} (read : ofDescription text = .ok c) :
    c.Legible := ensures_decodeText ensures_decode text c read

theorem legible_iff {c : Catalog} :
    c.Legible ↔ ∀ name ∈ TypeName.keywords, .named name ∉ c.types := by
  simp only [Legible, TypeName.Legible, TypeName.reread_eq_self_iff]
  exact ⟨fun legible name reserved mentioned => legible _ mentioned name reserved rfl,
    fun absent type mentioned name reserved same => absent name reserved (same ▸ mentioned)⟩

/-- A catalog that is written is read back with each class that is named like a keyword replaced by
the keyword, so it comes back unchanged if and only if it mentions no such class. Every catalog that
was read from some text comes back unchanged. -/
theorem ofDescription_description :
    (∀ c : Catalog, ofDescription c.description = .ok (c.mapTypes TypeName.reread)) ∧
    (∀ c : Catalog, ofDescription c.description = .ok c ↔
      ∀ name ∈ TypeName.keywords, .named name ∉ c.types) ∧
    (∀ (text : String) (c : Catalog), ofDescription text = .ok c →
      ofDescription c.description = .ok c) := by
  have unchanged : ∀ c : Catalog, ofDescription c.description = .ok c ↔ c.Legible := by
    intro c
    rw [ofDescription_written, Except.ok.injEq, mapTypes_eq_self_iff]
    rfl
  refine ⟨ofDescription_written, ?_, ?_⟩
  · intro c
    rw [unchanged, legible_iff]
  · intro text c read
    exact (unchanged c).2 (legible_of_ofDescription read)

/-- A catalog with a field of a class named `int` and a method with a parameter of a class named
`void`, among targets of all four kinds. -/
def ledger : Catalog :=
  ⟨"LedgerMirror", [
    .fieldGet ⟨"Ledger", "total", .named "int"⟩,
    .fieldSet ⟨"Ledger", "owner", .named "String"⟩,
    .method ⟨"Ledger", ⟨"close", [.named "void", .primitive .long], .void⟩, false⟩ .both,
    .intercepted ⟨⟨"Account", ⟨"post", [.primitive .int], .named "Ledger"⟩, true⟩, "LedgerProxy",
      "post$bridge", "LedgerMirror"⟩]⟩

def rereadLedger : Catalog :=
  ⟨"LedgerMirror", [
    .fieldGet ⟨"Ledger", "total", .primitive .int⟩,
    .fieldSet ⟨"Ledger", "owner", .named "String"⟩,
    .method ⟨"Ledger", ⟨"close", [.void, .primitive .long], .void⟩, false⟩ .both,
    .intercepted ⟨⟨"Account", ⟨"post", [.primitive .int], .named "Ledger"⟩, true⟩, "LedgerProxy",
      "post$bridge", "LedgerMirror"⟩]⟩

theorem ofDescription_description_ledger :
    ledger ≠ rereadLedger ∧ ofDescription ledger.description = .ok rereadLedger ∧
      ofDescription rereadLedger.description = .ok rereadLedger := by
  have read : ofDescription ledger.description = .ok rereadLedger :=
    ofDescription_description.1 ledger
  exact ⟨by decide, read, ofDescription_description.2.2 ledger.description rereadLedger read⟩

end Catalog

end BeanDispatch
