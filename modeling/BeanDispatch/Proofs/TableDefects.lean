import BeanDispatch.Proofs.CaseCode

/-! The verdict on a branch table. A list of cases is accepted exactly if its keys ascend and the
code of every case is sound: its last instruction ends the case, and every branch leads to an
instruction. Any other list has a first case that cannot stand after the cases before it, and the
table is refused for what is wrong with that one. Its key is looked at first, then whether it has
code, then how the code ends, and then its branches in their order. -/

namespace BeanDispatch

/-! ### Code -/

/-- The instructions that end a case: a return, a search, and the fault for unknown indices. -/
inductive Instruction.Ending : Instruction → Prop
  | ret : Ending .ret
  | resolve (owner name : String) (params : ParameterList) : Ending (.resolve owner name params)
  | unknownIndex : Ending .unknownIndex

theorem Instruction.isTerminal_iff {i : Instruction} : i.isTerminal = true ↔ i.Ending := by
  constructor
  · intro terminal
    cases i with
    | ret => exact .ret
    | resolve owner name params => exact .resolve owner name params
    | unknownIndex => exact .unknownIndex
    | _ => cases terminal
  · rintro ⟨⟩ <;> rfl

theorem Instruction.jumpTarget?_eq_some_iff {i : Instruction} {address : UInt16} :
    i.jumpTarget? = some address ↔ i = .branchFalse address := by
  cases i <;> simp [jumpTarget?]

namespace Case

variable {c : Case} {defect : Defect}

/-- There is code, its last instruction ends the case, and every branch leads to an instruction. -/
structure Sound (c : Case) : Prop where
  ends : ∃ last, c.code.back? = some last ∧ last.Ending
  inside : ∀ address, .branchFalse address ∈ c.code → address.toNat < c.code.size

/-- What is wrong with the code of a case: that there is none, else that it does not end the case,
else the first branch that leads outside. -/
inductive CodeDefect (c : Case) : Defect → Prop
  | noCode (none : c.code = #[]) : CodeDefect c (.noCode c.key)
  | unterminated {last : Instruction} (isLast : c.code.back? = some last)
    (goesOn : ¬ last.Ending) : CodeDefect c (.unterminated c.key)
  | jumpOutOfRange {last : Instruction} (isLast : c.code.back? = some last) (ends : last.Ending)
    {front back : List Instruction} {address : UInt16}
    (here : c.code.toList = front ++ .branchFalse address :: back)
    (outside : c.code.size ≤ address.toNat)
    (first : ∀ earlier, .branchFalse earlier ∈ front → earlier.toNat < c.code.size) :
    CodeDefect c (.jumpOutOfRange c.key address c.code.size)

/-- What is wrong with a case after a case with the key `previous`: that its own key does not come
after that one, else what is wrong with its code. -/
inductive DefectAfter (previous : Option UInt32) (c : Case) : Defect → Prop
  | unordered {key : UInt32} (isPrevious : previous = some key) (below : c.key ≤ key) :
    DefectAfter previous c (.unordered key c.key)
  | code (follows : ∀ key ∈ previous, key < c.key) {defect : Defect}
    (wrong : c.CodeDefect defect) : DefectAfter previous c defect

theorem sound_iff_selfContained : c.Sound ↔ SelfContained c.code.toList := by
  constructor
  · rintro ⟨⟨last, isLast, ends⟩, inside⟩
    rw [← Array.getLast?_toList] at isLast
    obtain ⟨body, whole⟩ := List.getLast?_eq_some_iff.1 isLast
    exact ⟨⟨body, last, whole, Instruction.isTerminal_iff.2 ends⟩,
      fun address branches => inside address (Array.mem_toList_iff.1 branches)⟩
  · rintro ⟨⟨body, last, whole, terminal⟩, inside⟩
    refine ⟨⟨last, ?_, Instruction.isTerminal_iff.1 terminal⟩,
      fun address branches => inside address (Array.mem_toList_iff.2 branches)⟩
    rw [← Array.getLast?_toList, whole, List.getLast?_concat]

theorem defect?_eq_none_iff : c.defect? = none ↔ c.Sound := by
  rw [sound_iff_selfContained]
  exact ⟨.of_no_defect, fun contained => contained.defect?_eq_none c.key⟩

/-- The branch that is reported is the first one that leads outside. -/
theorem strayJump?_eq_some_iff {address : UInt16} :
    c.strayJump? = some address ↔ c.code.size ≤ address.toNat ∧
      ∃ front back, c.code.toList = front ++ .branchFalse address :: back ∧
        ∀ earlier, .branchFalse earlier ∈ front → earlier.toNat < c.code.size := by
  rw [strayJump?, List.find?_filterMap, Option.bind_eq_some_iff]
  constructor
  · rintro ⟨i, found, jumps⟩
    obtain rfl := Instruction.jumpTarget?_eq_some_iff.1 jumps
    obtain ⟨outside, front, back, whole, first⟩ := List.find?_eq_some_iff_append.1 found
    refine ⟨by simpa [Instruction.jumpTarget?] using outside, front, back, whole, ?_⟩
    intro earlier branches
    simpa [Instruction.jumpTarget?] using first _ branches
  · rintro ⟨outside, front, back, whole, first⟩
    refine ⟨.branchFalse address, List.find?_eq_some_iff_append.2 ⟨?_, front, back, whole, ?_⟩, rfl⟩
    · simpa [Instruction.jumpTarget?] using outside
    · intro i member
      cases i with
      | branchFalse earlier => simpa [Instruction.jumpTarget?] using first earlier member
      | _ => rfl

theorem CodeDefect.defect?_eq (wrong : c.CodeDefect defect) : c.defect? = some defect := by
  cases wrong with
  | noCode none =>
    rw [defect?, none]
    rfl
  | unterminated isLast goesOn =>
    simp only [defect?, isLast, if_neg (mt Instruction.isTerminal_iff.1 goesOn)]
  | jumpOutOfRange isLast ends here outside first =>
    have stray := strayJump?_eq_some_iff.2 ⟨outside, _, _, here, first⟩
    simp only [defect?, isLast, if_pos (Instruction.isTerminal_iff.2 ends), stray, Option.map_some]

theorem codeDefect_of_defect? (found : c.defect? = some defect) : c.CodeDefect defect := by
  cases isLast : c.code.back? with
  | none =>
    simp only [defect?, isLast] at found
    cases found
    exact .noCode (Array.back?_eq_none_iff.1 isLast)
  | some last =>
    simp only [defect?, isLast] at found
    split at found
    · rename_i terminal
      obtain ⟨address, stray, rfl⟩ := Option.map_eq_some_iff.1 found
      obtain ⟨outside, front, back, here, first⟩ := strayJump?_eq_some_iff.1 stray
      exact .jumpOutOfRange isLast (Instruction.isTerminal_iff.1 terminal) here outside first
    · rename_i goesOn
      cases found
      exact .unterminated isLast (mt Instruction.isTerminal_iff.2 goesOn)

theorem defect?_eq_some_iff : c.defect? = some defect ↔ c.CodeDefect defect :=
  ⟨codeDefect_of_defect?, CodeDefect.defect?_eq⟩

end Case

/-! ### Lists of cases -/

/-- A list of cases has the defect of its first case, if that one has a defect after the previous
key, and else the defect of the rest. -/
theorem firstDefect?_cons_eq_some_iff {previous : Option UInt32} {c : Case} {rest : List Case}
    {defect : Defect} :
    firstDefect? previous (c :: rest) = some defect ↔
      c.DefectAfter previous defect ∨
        (∀ key ∈ previous, key < c.key) ∧ c.defect? = none ∧
          firstDefect? (some c.key) rest = some defect := by
  have unfolds : (∀ key ∈ previous, key < c.key) →
      firstDefect? previous (c :: rest) = c.defect?.or (firstDefect? (some c.key) rest) := by
    intro follows
    cases previous with
    | none => rfl
    | some key => exact if_neg (UInt32.not_le.2 (follows key rfl))
  constructor
  · intro found
    by_cases follows : ∀ key ∈ previous, key < c.key
    · rw [unfolds follows, Option.or_eq_some_iff] at found
      rcases found with here | ⟨sound, later⟩
      · exact .inl (.code follows (Case.defect?_eq_some_iff.1 here))
      · exact .inr ⟨follows, sound, later⟩
    · cases previous with
      | none => exact absurd nofun follows
      | some key =>
        have below : c.key ≤ key := by simpa using follows
        rw [firstDefect?, if_pos below] at found
        cases found
        exact .inl (.unordered rfl below)
  · rintro (wrong | ⟨follows, sound, later⟩)
    · cases wrong with
      | unordered isPrevious below =>
        subst isPrevious
        rw [firstDefect?, if_pos below]
      | code follows wrong => rw [unfolds follows, wrong.defect?_eq, Option.some_or]
    · rw [unfolds follows, sound, Option.none_or, later]

/-- The key of the last of some cases that stand after a case with the key `previous`. -/
def lastKey? (previous : Option UInt32) (before : List Case) : Option UInt32 :=
  (before.getLast?.map Case.key).or previous

theorem lastKey?_cons (previous : Option UInt32) (c : Case) (before : List Case) :
    lastKey? previous (c :: before) = lastKey? (some c.key) before := by
  cases before with
  | nil => rfl
  | cons d rest => simp [lastKey?, List.getLast?_cons]

/-- The defect of a list is that of its first case that has one after the cases before it. -/
theorem firstDefect?_eq_some_iff {previous : Option UInt32} {cases : List Case} {defect : Defect} :
    firstDefect? previous cases = some defect ↔
      ∃ before c after, cases = before ++ c :: after ∧ firstDefect? previous before = none ∧
        c.DefectAfter (lastKey? previous before) defect := by
  induction cases generalizing previous with
  | nil => simp [firstDefect?]
  | cons d rest ih =>
    rw [firstDefect?_cons_eq_some_iff]
    constructor
    · rintro (wrong | ⟨follows, sound, later⟩)
      · exact ⟨[], d, rest, rfl, rfl, wrong⟩
      · obtain ⟨before, c, after, rfl, none, wrong⟩ := ih.1 later
        refine ⟨d :: before, c, after, rfl, ?_, ?_⟩
        · exact firstDefect?_cons_eq_none_iff.2 ⟨follows, sound, none⟩
        · rw [lastKey?_cons]
          exact wrong
    · rintro ⟨before, c, after, whole, none, wrong⟩
      cases before with
      | nil =>
        cases whole
        exact .inl wrong
      | cons e before =>
        cases whole
        obtain ⟨follows, sound, noneLater⟩ := firstDefect?_cons_eq_none_iff.1 none
        rw [lastKey?_cons] at wrong
        exact .inr ⟨follows, sound, ih.2 ⟨before, c, after, rfl, noneLater, wrong⟩⟩

theorem firstDefect?_eq_none_iff {cases : List Case} :
    firstDefect? none cases = none ↔ Ascending cases ∧ ∀ c ∈ cases, c.Sound := by
  constructor
  · intro none
    obtain ⟨ascending, _, sound⟩ := ascending_of_no_defect none
    exact ⟨ascending, fun c member => Case.defect?_eq_none_iff.1 (sound c member)⟩
  · rintro ⟨ascending, sound⟩
    exact firstDefect?_eq_none ascending nofun
      fun c member => Case.defect?_eq_none_iff.2 (sound c member)

/-- A list of cases makes a routine exactly if its keys ascend and the code of every case is sound,
and then the routine has these cases in this order. Otherwise the error names what is wrong with the
first case that cannot stand after the ones before it. -/
theorem Routine.assemble_verdict (kind : RoutineKind) (cases : List Case) :
    ((∃ r, assemble kind cases = .ok r) ↔ Ascending cases ∧ ∀ c ∈ cases, c.Sound) ∧
    (∀ r, assemble kind cases = .ok r → r.kind = kind ∧ r.cases.toList = cases) ∧
    ∀ e, assemble kind cases = .error e ↔
      e.kind = kind ∧ ∃ before c after, cases = before ++ c :: after ∧
        (Ascending before ∧ ∀ d ∈ before, d.Sound) ∧
        c.DefectAfter (before.getLast?.map Case.key) e.defect := by
  refine ⟨?_, fun r accepted => ?_, fun e => ?_⟩
  · rw [← firstDefect?_eq_none_iff]
    exact ⟨fun ⟨_, accepted⟩ => (assemble_eq_ok_iff.1 accepted).1,
      fun none => ⟨_, assemble_eq_ok_iff.2 ⟨none, rfl⟩⟩⟩
  · obtain ⟨_, rfl⟩ := assemble_eq_ok_iff.1 accepted
    exact ⟨rfl, rfl⟩
  · obtain ⟨otherKind, defect⟩ := e
    have refused : assemble kind cases = .error ⟨otherKind, defect⟩ ↔
        otherKind = kind ∧ firstDefect? none cases = some defect := by
      rw [assemble]
      cases firstDefect? none cases with
      | none => simp
      | some found => simp [eq_comm]
    simp only [refused, firstDefect?_eq_some_iff, firstDefect?_eq_none_iff, lastKey?,
      Option.or_none]

/-- The second case has no code, stands in the wrong place, and is not the last one to be wrong. -/
example : Routine.assemble .dispatch [⟨3, #[.ret]⟩, ⟨3, #[]⟩, ⟨5, #[.pushNull]⟩] =
    .error ⟨.dispatch, .unordered 3 3⟩ := rfl

end BeanDispatch
