import BeanDispatch.Proofs.CaseCode

/-! When emission fails. A target has at most one problem for a kind of dispatch, which is a matter
of its own data: an intercepted method of another type, more parameters than positions, code that is
too long to address, or more than one parameter for dispatch with one argument. The first target
with a problem decides the error, all targets of dispatch with an argument list before those of
dispatch with one argument, and a catalog without problems is emitted. No draft has a label without
a place, and no branch table is refused. -/

namespace BeanDispatch

open Emission

/-! ### Problems -/

/-- The problem of a method with this many parameters whose case has this length. -/
def sizeProblem? (index : UInt32) (arity length : Nat) : Option EmitError :=
  if maxParameters < arity then some (.tooManyParameters index arity)
  else if Draft.maxAddress < length then some (.draft index (.tooLong length))
  else none

namespace MultiAccess

/-- The type that an intercepted method belongs to, if it is not this one. -/
def foreign? (thisType : String) : MultiAccess → Option String
  | .call _ => none
  | .intercept x => if x.thisType = thisType then none else some x.thisType

/-- Why the target at an index has no dispatch with an argument list. -/
def problem? (thisType : String) (index : UInt32) (access : MultiAccess) : Option EmitError :=
  match access.foreign? thisType with
  | some found => some (.foreignTarget index thisType found)
  | none => sizeProblem? index access.signature.arity access.codeLength

theorem codeLength_le {thisType : String} {index : UInt32} {access : MultiAccess}
    (fine : access.problem? thisType index = none) : access.codeLength ≤ Draft.maxAddress := by
  rw [problem?] at fine
  split at fine
  · cases fine
  · rw [sizeProblem?] at fine
    split at fine
    · cases fine
    · split at fine
      · cases fine
      · rename_i short
        exact Nat.le_of_not_lt short

end MultiAccess

def SingleAccess.problem? (index : UInt32) : SingleAccess → Option EmitError
  | .call m =>
    if 1 < m.signature.arity then
      some (.singleArity index (m.declaring ++ "." ++ m.signature.name) m.signature.arity)
    else none
  | _ => none

/-- The first problem of a catalog. -/
def Catalog.problem? (c : Catalog) : Option EmitError :=
  ((c.select Target.multi?).findSome? fun offer => offer.2.problem? c.thisType offer.1).or
    ((c.select Target.single?).findSome? fun offer => offer.2.problem? offer.1)

/-! ### Cases -/

namespace Emission

def caseOf (index : UInt32) (code : List Instruction) : Case := ⟨index, code.toArray⟩

theorem assembleCase_eq {index : UInt32} {draft : Draft} {code : List Instruction}
    (assembles : draft.assemble =
      if Draft.maxAddress < code.length then .error (.tooLong code.length) else .ok code) :
    assembleCase index draft =
      if Draft.maxAddress < code.length then .error (.draft index (.tooLong code.length))
      else .ok (caseOf index code) := by
  rw [assembleCase, assembles]
  by_cases long : Draft.maxAddress < code.length
  · rw [if_pos long, if_pos long]
  · rw [if_neg long, if_neg long]
    rfl

/-- A method whose number of parameters is checked before its draft is assembled. -/
theorem checkedCase_eq {index : UInt32} {m : MethodTarget} {draft : Draft}
    {code : List Instruction}
    (assembles : draft.assemble =
      if Draft.maxAddress < code.length then .error (.tooLong code.length) else .ok code) :
    ((do checkParameters index m; return draft) >>= assembleCase index) =
      (sizeProblem? index m.signature.arity code.length).elim (.ok (caseOf index code)) .error := by
  rw [checkParameters, sizeProblem?]
  by_cases many : maxParameters < m.signature.arity
  · rw [if_pos many, if_pos many]
    rfl
  · rw [if_neg many, if_neg many]
    show assembleCase index draft = _
    rw [assembleCase_eq assembles]
    by_cases long : Draft.maxAddress < code.length
    · rw [if_pos long, if_pos long]
      rfl
    · rw [if_neg long, if_neg long]
      rfl

theorem multiCase_eq (thisType : String) (index : UInt32) (access : MultiAccess) :
    (multiDraft thisType index access >>= assembleCase index) =
      (access.problem? thisType index).elim (.ok (caseOf index access.code)) .error := by
  rw [MultiAccess.problem?, ← MultiAccess.length_code]
  cases access with
  | call m => exact checkedCase_eq (assemble_instructions_eq _)
  | intercept x =>
    rw [multiDraft, MultiAccess.foreign?]
    by_cases own : x.thisType = thisType
    · rw [if_neg (not_not_intro own), if_pos own]
      exact checkedCase_eq (assemble_interceptedCall_eq x)
    · rw [if_pos own, if_neg own]
      rfl

theorem singleCase_eq (index : UInt32) (access : SingleAccess) :
    (singleDraft index access >>= assembleCase index) =
      (access.problem? index).elim (.ok (caseOf index access.code)) .error := by
  have short : ¬Draft.maxAddress < access.code.length := by
    have few := access.length_code_le
    rw [Draft.maxAddress]
    omega
  have assembles : assembleCase index (instructions access.code) =
      .ok (caseOf index access.code) := by
    rw [assembleCase_eq (assemble_instructions_eq _), if_neg short]
  cases access with
  | read f => exact assembles
  | write f => exact assembles
  | call m =>
    rw [singleDraft, SingleAccess.problem?]
    by_cases many : 1 < m.signature.arity
    · rw [if_pos many, if_pos many]
      rfl
    · rw [if_neg many, if_neg many]
      exact assembles

theorem searchCase_eq (index : UInt32) (m : MethodTarget) :
    (locatorDraft index m >>= assembleCase index) = .ok (caseOf index m.searchCode) := by
  have short : ¬Draft.maxAddress < m.searchCode.length := (by decide : ¬Draft.maxAddress < 1)
  show assembleCase index (instructions m.searchCode) = _
  rw [assembleCase_eq (assemble_instructions_eq _), if_neg short]

end Emission

/-! ### Routines -/

theorem Catalog.select_ascending {α : Type} {c : Catalog}
    (small : c.targets.length ≤ Nat.pow 2 32) (view : Target → Option α) :
    (c.select view).Pairwise fun a b => a.1 < b.1 := by
  rw [select, List.pairwise_filterMap, List.pairwise_iff_getElem]
  intro i j hi hj less first found second after
  rw [List.getElem_zipIdx, Option.map_eq_some_iff] at found after
  obtain ⟨_, _, rfl⟩ := found
  obtain ⟨_, _, rfl⟩ := after
  rw [List.length_zipIdx] at hi hj
  dsimp only
  rw [Nat.zero_add, Nat.zero_add, UInt32.lt_iff_toNat_lt, index_exact small hi,
    index_exact small hj]
  exact less

namespace Emission

variable {α : Type} {offers : List (UInt32 × α)} {draft : UInt32 → α → Except EmitError Draft}
  {code : α → List Instruction}

/-- A routine fails with the first problem of its offers, and has sound cases if there is none. -/
theorem routineOf_eq (kind : RoutineKind) (problem? : UInt32 → α → Option EmitError)
    (ascending : offers.Pairwise fun a b => a.1 < b.1)
    (cases : ∀ index offer, (draft index offer >>= assembleCase index) =
      (problem? index offer).elim (.ok (caseOf index (code offer))) .error)
    (sound : ∀ index offer, problem? index offer = none → SelfContained (code offer)) :
    routineOf kind offers draft =
      (offers.findSome? fun offer => problem? offer.1 offer.2).elim
        (.ok (if offers.isEmpty then none
          else some ⟨kind, (offers.map fun offer => caseOf offer.1 (code offer.2)).toArray⟩))
        .error := by
  have listed : (offers.mapM fun offer => do assembleCase offer.1 (← draft offer.1 offer.2)) =
      (offers.findSome? fun offer => problem? offer.1 offer.2).elim
        (.ok (offers.map fun offer => caseOf offer.1 (code offer.2))) .error :=
    Checked.mapM_eq_elim fun offer _ => cases offer.1 offer.2
  rw [routineOf, listed]
  cases first : offers.findSome? fun offer => problem? offer.1 offer.2 with
  | some error => rfl
  | none =>
    rw [List.findSome?_eq_none_iff] at first
    have noDefect : firstDefect? none (offers.map fun offer => caseOf offer.1 (code offer.2)) =
        none := by
      refine firstDefect?_eq_none (List.pairwise_map.2 ascending) nofun fun c member => ?_
      obtain ⟨offer, offered, rfl⟩ := List.mem_map.1 member
      exact (sound offer.1 offer.2 (first offer offered)).defect?_eq_none offer.1
    show (if _ then pure none else _) = _
    rw [List.isEmpty_map, Routine.assemble, noDefect]
    cases offers.isEmpty <;> rfl

end Emission

namespace Catalog

variable {c : Catalog}

/-- The outcome of emission is a matter of the first problem. -/
theorem emit_outcome (small : c.targets.length ≤ Nat.pow 2 32) (options : EmitOptions) :
    (∀ error, c.problem? = some error → c.emit options = .error error) ∧
      (c.problem? = none → ∃ s, c.emit options = .ok s) := by
  have many := routineOf_eq .dispatch _ (select_ascending small Target.multi?)
    (multiCase_eq c.thisType) fun _ _ fine => selfContained_multi (MultiAccess.codeLength_le fine)
  have single := routineOf_eq .dispatchOne _ (select_ascending small Target.single?)
    singleCase_eq fun _ access _ => selfContained_single access
  have search := routineOf_eq .targetMethod (fun _ _ => none)
    (select_ascending small Target.located?) searchCase_eq fun _ m _ => selfContained_searchCode m
  have never : ((c.select Target.located?).findSome? fun _ => (none : Option EmitError)) = none :=
    List.findSome?_eq_none_iff.2 fun _ _ => rfl
  rw [never] at search
  rw [problem?, emit, many]
  cases (c.select Target.multi?).findSome? fun offer => offer.2.problem? c.thisType offer.1 with
  | some error =>
    refine ⟨fun other first => ?_, fun none => ?_⟩
    · cases first
      rfl
    · cases none
  | none =>
    rw [Option.none_or, single]
    cases (c.select Target.single?).findSome? fun offer => offer.2.problem? offer.1 with
    | some error =>
      refine ⟨fun other first => ?_, fun none => ?_⟩
      · cases first
        rfl
      · cases none
    | none =>
      refine ⟨nofun, fun _ => ?_⟩
      rw [search]
      cases options.locator <;> exact ⟨_, rfl⟩

theorem problem?_cases {error : EmitError} (first : c.problem? = some error) :
    (∃ index found, error = .foreignTarget index c.thisType found) ∨
      (∃ index arity, error = .tooManyParameters index arity) ∨
      (∃ index length, error = .draft index (.tooLong length)) ∨
      ∃ index method arity, error = .singleArity index method arity := by
  rcases Option.or_eq_some_iff.1 first with many | ⟨_, single⟩
  · obtain ⟨⟨index, access⟩, _, problem⟩ := List.exists_of_findSome?_eq_some many
    dsimp only [MultiAccess.problem?, sizeProblem?] at problem
    split at problem
    · exact .inl ⟨index, _, (Option.some.inj problem).symm⟩
    · split at problem
      · exact .inr (.inl ⟨index, _, (Option.some.inj problem).symm⟩)
      · split at problem
        · exact .inr (.inr (.inl ⟨index, _, (Option.some.inj problem).symm⟩))
        · cases problem
  · obtain ⟨⟨index, access⟩, _, problem⟩ := List.exists_of_findSome?_eq_some single
    cases access with
    | call m =>
      dsimp only [SingleAccess.problem?] at problem
      split at problem
      · exact .inr (.inr (.inr ⟨index, _, _, (Option.some.inj problem).symm⟩))
      · cases problem
    | read f | write f => cases problem

end Catalog

namespace Emission

/-- Every address of a draft and every position of its parameters is one that an instruction can
hold. -/
structure Fits (d : Draft) (signature : Signature) : Prop where
  addresses : ∀ label address, d.address? label = some address →
    address.toUInt16.toNat = address
  positions : ∀ position < signature.arity, position.toUInt16.toNat = position

theorem position_exact {arity position : Nat} (few : arity ≤ maxParameters)
    (inside : position < arity) : position.toUInt16.toNat = position :=
  UInt16.toNat_ofNat_of_lt (Nat.lt_of_lt_of_le inside few)

theorem signature_arity_le {thisType : String} {index : UInt32} {access : MultiAccess} {d : Draft}
    (drawn : multiDraft thisType index access = .ok d) :
    access.signature.arity ≤ maxParameters := by
  cases access with
  | call m => exact (arity_le_of_multiDraft drawn).1
  | intercept x => exact (arity_le_of_multiDraft_intercept drawn).1

end Emission

namespace Catalog

/-- Emission fails with the first problem of the catalog and with nothing else, and succeeds if
there is none. No label is left without a place, no branch table is refused, and no address or
position in the emitted code is cut off. No target is asked for what it does not offer: the types
`MultiAccess`, `SingleAccess` and `MethodTarget` of what is drafted have no such cases, so the part
on the three views only says when a target has an offer. -/
theorem emit_eq_error_iff {c : Catalog} (small : c.targets.length ≤ Nat.pow 2 32)
    (options : EmitOptions) :
    (∀ error, c.emit options = .error error ↔ c.problem? = some error) ∧
      ((∃ s, c.emit options = .ok s) ↔ c.problem? = none) ∧
      (∀ index label, c.emit options ≠ .error (.draft index (.unplaced label))) ∧
      (∀ error, c.emit options ≠ .error (.routine error)) ∧
      (∀ target : Target, (target.supportsMulti = true → target.isMethod = true) ∧
        (target.supportsSingle = true → target.isIntercepted = false) ∧
        (target.isMethod = true → ∃ m, target.located? = some m)) ∧
      ∀ s, c.emit options = .ok s → ∀ offer ∈ c.select Target.multi?, ∃ d code,
        multiDraft c.thisType offer.1 offer.2 = .ok d ∧ d.assemble = .ok code ∧
        s.codeFor? .dispatch offer.1 = some code.toArray ∧ Fits d offer.2.signature := by
  obtain ⟨fails, succeeds⟩ := emit_outcome small options
  have failure : ∀ error, c.emit options = .error error ↔ c.problem? = some error := by
    refine fun error => ⟨fun failed => ?_, fails error⟩
    cases first : c.problem? with
    | some other =>
      rw [fails other first] at failed
      cases failed
      rfl
    | none =>
      obtain ⟨s, emitted⟩ := succeeds first
      rw [emitted] at failed
      cases failed
  refine ⟨failure, ⟨fun ⟨s, emitted⟩ => ?_, succeeds⟩, fun index label failed => ?_,
    fun error failed => ?_, fun target => ?_, fun s emitted ⟨index, access⟩ offered => ?_⟩
  · cases first : c.problem? with
    | none => rfl
    | some error =>
      rw [fails error first] at emitted
      cases emitted
  · rcases problem?_cases ((failure _).1 failed) with
      ⟨_, _, ⟨⟩⟩ | ⟨_, _, ⟨⟩⟩ | ⟨_, _, ⟨⟩⟩ | ⟨_, _, _, ⟨⟩⟩
  · rcases problem?_cases ((failure _).1 failed) with
      ⟨_, _, ⟨⟩⟩ | ⟨_, _, ⟨⟩⟩ | ⟨_, _, ⟨⟩⟩ | ⟨_, _, _, ⟨⟩⟩
  · refine ⟨?_, ?_, Option.isSome_iff_exists.1⟩
    · cases target with
      | fieldGet f | fieldSet f => exact nofun
      | method m style | intercepted x => exact fun _ => rfl
    · cases target with
      | fieldGet f | fieldSet f | method m style => exact fun _ => rfl
      | intercepted x => exact nofun
  · obtain ⟨d, code, drawn, assembled, runs⟩ :=
      routineOf_code (emit_routines emitted).1 offered
    exact ⟨d, code, drawn, assembled, runs, fun _ _ => Draft.address?_exact assembled,
      fun _ => position_exact (signature_arity_le drawn)⟩

/-- Two arguments where one is passed, and later an intercepted method of another type. -/
def refused : Catalog :=
  ⟨"CounterType",
    [.method ⟨"Counter", ⟨"move", [.primitive .int, .primitive .int], .void⟩, false⟩ .both,
      .intercepted { Counter.audited with thisType := "GaugeType" }]⟩

/-- The later target decides, since it is one of dispatch with an argument list. -/
theorem emit_refused :
    refused.targets.length ≤ Nat.pow 2 32 ∧
      refused.emit {} = .error (.foreignTarget 1 "CounterType" "GaugeType") := by
  have small : refused.targets.length ≤ Nat.pow 2 32 := by decide
  exact ⟨small, ((emit_eq_error_iff small {}).1 _).2 rfl⟩

end Catalog

end BeanDispatch
