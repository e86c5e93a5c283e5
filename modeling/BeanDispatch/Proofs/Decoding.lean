import BeanDispatch.Json.Decode
import BeanDispatch.Proofs.Action
import BeanDispatch.Proofs.JsonText
import BeanDispatch.Proofs.Lists

/-! Laws of decoding. A plain tree can be read through, and its written form is decoded like it.
`Ensures` says that whatever is decoded has a property, and `EnsuresItem` says it of what is made of
the next items of an array; both pass through sequencing. A record ensures a property if the fields
found so far keep an invariant that suffices at the end, and if the record that is made of the items
of an array has the property as well. -/

namespace BeanDispatch.Json

variable {α β σ : Type}

/-! ### Records that are complete -/

@[simp] theorem pure_eq_ok (a : α) : (pure a : Decoded α) = .ok a := rfl

@[simp] theorem ok_bind (a : α) (f : α → Decoded β) : (Except.ok a >>= f) = f a := rfl

@[simp] theorem map_ok (f : α → β) (a : α) : (Except.ok a : Decoded α).map f = .ok (f a) := rfl

@[simp] theorem decodeString_str (s : String) : decodeString (str s) = .ok s := rfl

@[simp] theorem decodeBool_bool (b : Bool) : decodeBool (bool b) = .ok b := rfl

@[simp] theorem once_none (name : String) (decode : Json → Decoded α) (json : Json) :
    once name none decode json = (decode json).map some := rfl

@[simp] theorem required_some (name : String) (a : α) : required name (some a) = .ok a := rfl

/-- A record written as an object is decoded one member after the other. -/
@[simp] theorem RecordDecoder.decode_object (d : RecordDecoder σ α) (surplus : DecodeError)
    (members : List (String × Json)) :
    d.decode surplus (object members) =
      (members.foldlM (fun found member => d.field found member.1 member.2) d.start) >>= d.finish :=
  rfl

theorem decodeList_encode {encode : α → Json} {decode : Json → Decoded β} {f : α → β}
    (each : ∀ a, decode (encode a) = .ok (f a)) (xs : List α) :
    decodeList decode (array (xs.map encode)) = .ok (xs.map f) := by
  have items : (xs.map encode).mapM decode = .ok (xs.map f) := by
    rw [List.mapM_map]
    exact Checked.mapM_eq_map fun a _ => each a
  exact items

theorem decodeMap_object {α : Type} (encode : α → Json) {decode : Json → Decoded α}
    (each : ∀ a, decode (encode a) = .ok a) (entries : List (String × α)) :
    decodeMap decode (.object (entries.map fun entry => (entry.1, encode entry.2))) =
      .ok entries := by
  simp only [decodeMap, decodeMembers, ok_bind, List.mapM_map, Function.comp_def, each, pure_eq_ok]
  exact (Checked.mapM_eq_map fun entry _ => rfl).trans (congrArg _ (List.map_id entries))

/-! ### Plain trees -/

theorem readable_array {items : List Json} (each : ∀ json ∈ items, json.readable = true) :
    (array items).readable = true := by
  rw [readable]
  induction items with
  | nil => rfl
  | cons json items ih =>
    rw [readable.allItems, each json List.mem_cons_self, Bool.true_and]
    exact ih fun later inLater => each later (List.mem_cons_of_mem json inLater)

theorem readable_object {members : List (String × Json)}
    (each : ∀ member ∈ members, member.2.readable = true) :
    (object members).readable = true := by
  rw [readable]
  induction members with
  | nil => rfl
  | cons member members ih =>
    rw [readable.allMembers, each member List.mem_cons_self, Bool.true_and]
    exact ih fun later inLater => each later (List.mem_cons_of_mem member inLater)

theorem Plain.readable {limit : Nat} {json : Json} (plain : Plain limit json) :
    json.readable = true := by
  induction plain with
  | null => rfl
  | bool b => rfl
  | str s => rfl
  | array each ih => exact readable_array ih
  | object each ih => exact readable_object ih

/-- A text that holds one tree and nothing else is decoded like the tree. -/
theorem decodeText_of_document {text : String} {json : Json} (holds : document text = (json, true))
    (decode : Json → Decoded α) : decodeText decode text = decode json := by
  simp only [decodeText, holds, if_true]
  exact bind_pure (decode json)

theorem Plain.decodeText_pretty {limit : Nat} {json : Json} (plain : Plain limit json)
    (within : limit ≤ depthLimit) (decode : Json → Decoded α) :
    decodeText decode json.pretty = decode json :=
  decodeText_of_document (plain.document_pretty within) decode

/-! ### Properties of what is decoded -/

/-- Whatever is decoded has the property. -/
def Ensures (P : α → Prop) (x : Decoded α) : Prop := ∀ a, x = .ok a → P a

variable {P : α → Prop} {Q : β → Prop}

theorem ensures_ok {a : α} (holds : P a) : Ensures P (.ok a) := by
  rintro _ ⟨⟩
  exact holds

theorem ensures_error (problem : DecodeError) : Ensures P (.error problem) := nofun

theorem ensures_any (x : Decoded α) : Ensures (fun _ => True) x := fun _ _ => trivial

theorem Ensures.bind {x : Decoded α} {f : α → Decoded β} (first : Ensures P x)
    (rest : ∀ a, P a → Ensures Q (f a)) : Ensures Q (x >>= f) := by
  intro b decoded
  obtain ⟨a, isFirst, isRest⟩ := Checked.bind_eq_ok.1 decoded
  exact rest a (first a isFirst) b isRest

theorem Ensures.map {x : Decoded α} {f : α → β} (ensures : Ensures P x)
    (image : ∀ a, P a → Q (f a)) : Ensures Q (x.map f) := by
  cases x with
  | error problem => exact ensures_error problem
  | ok a => exact ensures_ok (image a (ensures a rfl))

theorem ensures_decodeList {decode : Json → Decoded α} (each : ∀ json, Ensures P (decode json))
    (json : Json) : Ensures (fun as => ∀ a ∈ as, P a) (decodeList decode json) := by
  intro as decoded a inList
  obtain ⟨items, _, decoded⟩ := Checked.bind_eq_ok.1 decoded
  obtain ⟨item, _, isItem⟩ := Checked.exists_of_mem_mapM decoded inList
  exact each item a isItem

theorem ensures_decodeText {decode : Json → Decoded α} (each : ∀ json, Ensures P (decode json))
    (text : String) : Ensures P (decodeText decode text) := by
  refine (each (document text).1).bind fun a holds => ?_
  change Ensures P (if (document text).2 then .ok a else .error .notJson)
  split
  · exact ensures_ok holds
  · exact ensures_error _

/-! ### Fields -/

theorem ensures_once {name : String} {found : Option α} {decode : Json → Decoded α}
    (each : ∀ json, Ensures P (decode json)) (json : Json) :
    Ensures (fun a? => ∀ a ∈ a?, P a) (once name found decode json) := by
  cases found with
  | some a => exact ensures_error _
  | none => exact (each json).map fun a => forall_mem_some

theorem ensures_required {name : String} {found : Option α} (holds : ∀ a ∈ found, P a) :
    Ensures P (required name found) := by
  cases found with
  | none => exact ensures_error _
  | some a => exact ensures_ok (holds a rfl)

theorem ensures_update {Inv : σ → Prop} {x : Decoded α} {update : α → σ}
    (kept : ∀ a, Inv (update a)) : Ensures Inv (do return update (← x)) :=
  (ensures_any x).bind fun a _ => ensures_ok (kept a)

/-! ### Items -/

/-- Whatever is decoded from the next items has the property. -/
def EnsuresItem (P : α → Prop) (x : Positional α) : Prop :=
  ∀ items, Ensures (fun decoded => P decoded.1) (x.run items)

theorem ensuresItem_any (x : Positional α) : EnsuresItem (fun _ => True) x :=
  fun items => ensures_any (x.run items)

theorem ensuresItem_pure {a : α} (holds : P a) : EnsuresItem P (pure a) :=
  fun _ => ensures_ok holds

theorem EnsuresItem.bind {x : Positional α} {f : α → Positional β} (first : EnsuresItem P x)
    (rest : ∀ a, P a → EnsuresItem Q (f a)) : EnsuresItem Q (x >>= f) :=
  fun items => (first items).bind fun decoded holds => rest decoded.1 holds decoded.2

theorem item?_cons (decode : Json → Decoded α) (json : Json) (rest : List Json) :
    (item? decode).run (json :: rest) = (decode json).map fun a => (some a, rest) := by
  cases first : decode json <;> simp [item?, first]
  rfl

theorem ensuresItem_item? {decode : Json → Decoded α} (each : ∀ json, Ensures P (decode json)) :
    EnsuresItem (fun a? => ∀ a ∈ a?, P a) (item? decode) := by
  intro items
  cases items with
  | nil => exact ensures_ok nofun
  | cons json rest =>
    rw [item?_cons]
    exact (each json).map fun a => forall_mem_some

theorem ensuresItem_required {decode : Json → Decoded α} (each : ∀ json, Ensures P (decode json)) :
    EnsuresItem P (requiredItem decode) := by
  refine (ensuresItem_item? each).bind fun a? holds => ?_
  cases a? with
  | none => exact fun _ => ensures_error _
  | some a => exact ensuresItem_pure (holds a rfl)

theorem ensuresItem_optional {decode : Json → Decoded α} {fallback : α} (default : P fallback)
    (each : ∀ json, Ensures P (decode json)) : EnsuresItem P (optionalItem fallback decode) :=
  (ensuresItem_item? each).bind fun _ holds =>
    ensuresItem_pure (getD_of_forall_mem holds default)

/-! ### Records -/

theorem RecordDecoder.ensures {d : RecordDecoder σ α} (Inv : σ → Prop) (start : Inv d.start)
    (field : ∀ found key json, Inv found → Ensures Inv (d.field found key json))
    (finish : ∀ found, Inv found → Ensures P (d.finish found))
    (positional : EnsuresItem P d.positional) (surplus : DecodeError) (json : Json) :
    Ensures P (d.decode surplus json) := by
  fun_induction RecordDecoder.decode d surplus json with
  | case1 members =>
    have fields : ∀ found, Inv found →
        Ensures Inv (members.foldlM (fun found m => d.field found m.1 m.2) found) := by
      induction members with
      | nil => exact fun found holds => ensures_ok holds
      | cons member members ih =>
        intro found holds
        rw [List.foldlM_cons]
        exact (field found member.1 member.2 holds).bind ih
    exact (fields d.start start).bind finish
  | case2 items =>
    refine (positional items).bind fun ⟨a, rest⟩ holds => ?_
    change Ensures P (if rest.isEmpty then .ok a else .error surplus)
    split
    · exact ensures_ok holds
    · exact ensures_error _
  | case3 view ih => exact ih
  | case4 => exact ensures_error _
  | case5 => exact ensures_error _

end BeanDispatch.Json
