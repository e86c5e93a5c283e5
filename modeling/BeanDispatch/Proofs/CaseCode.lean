import BeanDispatch.Proofs.Interception
import BeanDispatch.Proofs.SingleDispatch

/-! The code of every case. What a target offers to a kind of dispatch has one code, whose length is
a function of the signature alone, and a draft of it fails to be assembled only if it is too long:
every label is placed, and a draft that is short enough has no address that would not fit. The code
ends its case and jumps only to addresses that it has, so a branch table accepts it. -/

namespace BeanDispatch

/-! ### Addresses -/

namespace Draft

variable {d : Draft} {code : List Instruction}

theorem mem_placesFrom {address : Nat} {found : List (Label × Nat)} {entry : Label × Nat}
    (placed : entry ∈ d.placesFrom address found) :
    entry ∈ found ∨ entry.2 ≤ address + d.length := by
  induction d generalizing address found with
  | nil => exact .inl placed
  | cons line rest ih =>
    cases line with
    | place label =>
      rcases ih placed with here | later
      · rcases List.mem_cons.1 here with rfl | before
        · exact .inr (Nat.le_add_right _ _)
        · exact .inl before
      · exact .inr later
    | instruction i | branchFalse label =>
      rcases ih placed with before | later
      · exact .inl before
      · refine .inr (Nat.le_trans later ?_)
        simp only [length, steps, step?, List.filterMap_cons, List.length_cons]
        omega

/-- A label stands somewhere in the code or right behind it. -/
theorem address?_le {label : Label} {address : Nat} (placed : d.address? label = some address) :
    address ≤ d.length := by
  obtain ⟨before, after, listed, _⟩ := List.lookup_eq_some_iff.1 placed
  have member : (label, address) ∈ d.placesFrom 0 [] := by
    rw [listed]
    exact List.mem_append_right before List.mem_cons_self
  rcases mem_placesFrom member with absent | inside
  · cases absent
  · rwa [Nat.zero_add] at inside

theorem address?_exact (assembled : d.assemble = .ok code) {label : Label} {address : Nat}
    (placed : d.address? label = some address) : address.toUInt16.toNat = address := by
  have small : address ≤ 65535 := Nat.le_trans (address?_le placed) (assemble_ok assembled).1
  exact UInt16.toNat_ofNat_of_lt (show _ < 65536 by omega)

end Draft

/-! ### The codes and their lengths -/

/-- The number of instructions that turn a result of the type into a reference. -/
def TypeName.conversions : TypeName → Nat
  | .named _ => 0
  | _ => 1

namespace Emission

theorem length_normalize (type : TypeName) :
    (Emission.normalize type).length = type.conversions := by
  cases type <;> rfl

theorem length_multiCall (m : MethodTarget) :
    (multiCall m).length = 4 + 2 * m.signature.arity + m.signature.result.conversions := by
  simp only [multiCall, List.length_append, List.length_cons, List.length_nil, loadTargetAs,
    length_loadArguments, length_normalize, Signature.arity]
  omega

end Emission

open Emission

namespace MultiAccess

/-- The signature of the method, which the bridge of an intercepted one shares but for its name. -/
def signature : MultiAccess → Signature
  | .call m => m.signature
  | .intercept x => x.method.signature

def code : MultiAccess → List Instruction
  | .call m => multiCall m
  | .intercept x => interceptedCode x (5 + (multiCall x.bridgeMethod).length).toUInt16

/-- The length of the code, from the number of parameters and the result type. -/
def codeLength : MultiAccess → Nat
  | .call m => 4 + 2 * m.signature.arity + m.signature.result.conversions
  | .intercept x => 13 + 4 * x.method.signature.arity + 2 * x.method.signature.result.conversions

theorem length_code (access : MultiAccess) : access.code.length = access.codeLength := by
  cases access with
  | call m => exact length_multiCall m
  | intercept x =>
    have bridge : (multiCall x.bridgeMethod).length =
        4 + 2 * x.method.signature.arity + x.method.signature.result.conversions :=
      length_multiCall x.bridgeMethod
    simp only [code, codeLength, interceptedCode, List.length_append, List.length_cons,
      List.length_nil, bridge, length_multiCall x.method]
    omega

end MultiAccess

namespace SingleAccess

def code : SingleAccess → List Instruction
  | .read f => readField f
  | .write f => writeField f
  | .call m => singleCall m

/-- The case of a dispatch with one argument is always short. -/
theorem length_code_le (access : SingleAccess) : access.code.length ≤ 8 := by
  cases access with
  | read f => cases type : f.type <;> simp [code, readField, loadTargetAs, type]
  | write f => simp [code, writeField, loadTargetAs]
  | call m =>
    cases params : m.signature.params <;> cases result : m.signature.result <;>
      simp [code, singleCall, loadTargetAs, Emission.normalize, params, result]

end SingleAccess

def MethodTarget.searchCode (m : MethodTarget) : List Instruction :=
  [.resolve m.declaring m.signature.name (ParameterList.ofTypes m.signature.params)]

/-! ### Accepted code -/

/-- The last instruction ends the case. -/
def EndsCase (code : List Instruction) : Prop :=
  ∃ body last, code = body ++ [last] ∧ last.isTerminal = true

theorem EndsCase.append {back : List Instruction} (ends : EndsCase back)
    (front : List Instruction) : EndsCase (front ++ back) := by
  obtain ⟨body, last, rfl, terminal⟩ := ends
  exact ⟨front ++ body, last, (List.append_assoc _ _ _).symm, terminal⟩

/-- Code that ends its case and jumps only to addresses that it has. -/
structure SelfContained (code : List Instruction) : Prop where
  ends : EndsCase code
  inside : ∀ address, .branchFalse address ∈ code → address.toNat < code.length

theorem SelfContained.length_pos {code : List Instruction} (contained : SelfContained code) :
    0 < code.length := by
  obtain ⟨body, last, rfl, _⟩ := contained.ends
  rw [List.length_append]
  exact Nat.succ_pos _

theorem SelfContained.lt_length_of_getElem? {code : List Instruction} {address : Nat}
    {i : Instruction} (contained : SelfContained code) (here : code[address]? = some i)
    (continues : i.isTerminal = false) : address + 1 < code.length := by
  obtain ⟨body, last, rfl, terminal⟩ := contained.ends
  obtain ⟨inside, isHere⟩ := List.getElem?_eq_some_iff.1 here
  rw [List.length_append, List.length_singleton] at inside ⊢
  refine Nat.succ_lt_succ (Nat.lt_of_le_of_ne (Nat.le_of_lt_succ inside) fun atEnd => ?_)
  subst atEnd
  rw [List.getElem_concat_length rfl] at isHere
  rw [isHere, continues] at terminal
  cases terminal

theorem SelfContained.defect?_eq_none {code : List Instruction} (sound : SelfContained code)
    (key : UInt32) : (Case.mk key code.toArray).defect? = none := by
  obtain ⟨body, last, rfl, terminal⟩ := sound.ends
  have back : (body ++ [last]).toArray.back? = some last := by
    rw [List.back?_toArray, List.getLast?_concat]
  have noStray : (Case.mk key (body ++ [last]).toArray).strayJump? = none := by
    rw [Case.strayJump?, List.find?_eq_none]
    intro address jumps stray
    obtain ⟨i, member, target⟩ := List.mem_filterMap.1 jumps
    cases i with
    | branchFalse found =>
      cases target
      have below := sound.inside address member
      simp only [List.size_toArray, decide_eq_true_iff] at stray
      omega
    | _ => cases target
  simp only [Case.defect?, back, if_pos terminal, noStray, Option.map_none]

theorem SelfContained.of_no_defect {c : Case} (sound : c.defect? = none) :
    SelfContained c.code.toList := by
  cases back : c.code.back? with
  | none =>
    rw [Case.defect?, back] at sound
    cases sound
  | some last =>
    simp only [Case.defect?, back] at sound
    split at sound
    · rename_i terminal
      rw [Option.map_eq_none_iff, Case.strayJump?, List.find?_eq_none] at sound
      rw [← Array.getLast?_toList] at back
      obtain ⟨body, whole⟩ := List.getLast?_eq_some_iff.1 back
      refine ⟨⟨body, last, whole, terminal⟩, fun address branches => ?_⟩
      have jumps : address ∈ c.code.toList.filterMap Instruction.jumpTarget? :=
        List.mem_filterMap.2 ⟨.branchFalse address, branches, rfl⟩
      simpa using sound address jumps
    · cases sound

namespace Emission

/-- Code that asks nothing does not branch and needs only an end. -/
theorem selfContained_of_straight (body : List Instruction)
    (straight : ∀ i ∈ body ++ [.ret], i.asks = false) : SelfContained (body ++ [.ret]) := by
  refine ⟨⟨body, .ret, rfl, rfl⟩, fun address branches => ?_⟩
  cases straight _ branches

theorem selfContained_searchCode (m : MethodTarget) : SelfContained m.searchCode := by
  refine ⟨⟨[], _, rfl, rfl⟩, fun address branches => ?_⟩
  rcases List.mem_singleton.1 branches with ⟨⟩

theorem selfContained_default : SelfContained [.unknownIndex] := by
  refine ⟨⟨[], _, rfl, rfl⟩, fun address branches => ?_⟩
  rcases List.mem_singleton.1 branches with ⟨⟩

theorem asks_single (access : SingleAccess) : ∀ i ∈ access.code, i.asks = false := by
  cases access with
  | read f =>
    cases type : f.type <;>
      simp [SingleAccess.code, readField, loadTargetAs, type, Instruction.asks]
  | write f => simp [SingleAccess.code, writeField, loadTargetAs, Instruction.asks]
  | call m =>
    cases params : m.signature.params <;> cases result : m.signature.result <;>
      simp [SingleAccess.code, singleCall, loadTargetAs, call, Emission.normalize, params, result,
        Instruction.asks]

theorem selfContained_single (access : SingleAccess) : SelfContained access.code := by
  have straight := asks_single access
  cases access with
  | read f => exact selfContained_of_straight _ straight
  | write f =>
    exact selfContained_of_straight (loadTargetAs f.owner ++ [.loadArgument,
      .checkCast f.type, .putField f.owner f.name f.type, .pushNull]) straight
  | call m => exact selfContained_of_straight _ straight

theorem mem_interceptedCode {x : InterceptedTarget} {address branch : UInt16}
    (branches : .branchFalse branch ∈ interceptedCode x address) : branch = address := by
  have bridge := Machine.branchFalse_notMem_multiCall x.bridgeMethod branch
  have direct := Machine.branchFalse_notMem_multiCall x.method branch
  simpa [interceptedCode, bridge, direct] using branches

/-- Both branches of an intercepted case lead to the direct call, which is not empty. -/
theorem selfContained_multi {access : MultiAccess}
    (small : access.codeLength ≤ Draft.maxAddress) : SelfContained access.code := by
  cases access with
  | call m => exact selfContained_of_straight _ (asks_multiCall m)
  | intercept x =>
    rw [← MultiAccess.length_code] at small
    have exactly := interceptedCode_address small
    refine ⟨?_, fun address branches => ?_⟩
    · have direct : EndsCase (multiCall x.method) := ⟨_, .ret, rfl, rfl⟩
      exact direct.append _
    · rw [mem_interceptedCode branches, exactly, MultiAccess.length_code, MultiAccess.codeLength]
      have bridge : (multiCall x.bridgeMethod).length =
          4 + 2 * x.method.signature.arity + x.method.signature.result.conversions :=
        length_multiCall x.bridgeMethod
      omega

end Emission

end BeanDispatch
