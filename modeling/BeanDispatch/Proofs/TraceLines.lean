import BeanDispatch.Machine.Trace
import BeanDispatch.Proofs.CaseCoverage

/-! The lines of a trace. A line shows by its first three characters what it is about, whatever names
and values stand in it: the entry of a routine begins with its name, and all other lines are indented
by two, an instruction followed by a digit of its address. So the short form of a trace can be made
from the full one by looking at the lines alone. The lines of instructions are those of the listing,
as long as an address is not cut off. -/

namespace BeanDispatch

/-! ### What a line is about -/

inductive LineKind
  | entry
  | instruction
  | jump
  | call
  | completion
  | fault
deriving DecidableEq

namespace LineKind

/-- Reads off a line what it is about. -/
def ofLine (line : String) : LineKind :=
  match line.toList with
  | ' ' :: ' ' :: mark :: _ =>
    if mark = ' ' then jump
    else if mark = 'c' then call
    else if mark = '=' then completion
    else if mark = '!' then fault
    else instruction
  | _ => entry

/-- An instruction that is executed or a branch that is taken. -/
def isStep : LineKind → Bool
  | instruction => true
  | jump => true
  | _ => false

/-- The outcome of a run. -/
def isOutcome : LineKind → Bool
  | completion => true
  | fault => true
  | _ => false

end LineKind

theorem exists_toList_twoDigits (n : Nat) :
    ∃ digit rest, (twoDigits n).toList = digit :: rest ∧ digit.isDigit = true := by
  unfold twoDigits
  split
  · exact ⟨'0', (toString n).toList, by simp, rfl⟩
  · have digits : (toString n).toList = Nat.toDigits 10 n := Nat.toList_repr
    cases number : Nat.toDigits 10 n with
    | nil => exact absurd number Nat.toDigits_ne_nil
    | cons digit rest =>
      refine ⟨digit, rest, digits.trans number, ?_⟩
      exact Nat.isDigit_of_mem_toDigits (by decide) (by decide) (number ▸ List.mem_cons_self)

namespace Event

def kind : Event → LineKind
  | enter _ _ _ => .entry
  | instruction _ _ => .instruction
  | jump _ => .jump
  | call _ _ => .call
  | complete _ => .completion
  | fault _ => .fault

theorem ofLine_line (label : Ref → String) (e : Event) :
    LineKind.ofLine (e.line label) = e.kind := by
  cases e with
  | enter routine index matched =>
    cases routine <;> simp [line, LineKind.ofLine, RoutineKind.text, kind]
  | instruction address i =>
    obtain ⟨digit, rest, first, isDigit⟩ := exists_toList_twoDigits address.toNat
    have other : ∀ mark : Char, mark.isDigit = false → digit ≠ mark := by
      rintro mark noDigit rfl
      cases noDigit.symm.trans isDigit
    simp [line, codeLine, LineKind.ofLine, first, kind, other]
  | jump address => simp [line, LineKind.ofLine, kind]
  | call owner method => simp [line, LineKind.ofLine, kind]
  | complete completion => simp [line, LineKind.ofLine, kind]
  | fault f => simp [line, LineKind.ofLine, kind]

theorem shown_verbose (e : Event) : e.shown .verbose = true := rfl

theorem shown_brief (e : Event) : e.shown .brief = !e.kind.isStep := by
  cases e <;> rfl

end Event

theorem traceLines_verbose (label : Ref → String) (events : List Event) :
    traceLines label .verbose events = events.map (Event.line label) := by
  rw [traceLines, List.filter_eq_self.2 fun e _ => e.shown_verbose]

/-- Lines are told apart by what they are about as their events are. -/
theorem filter_line (label : Ref → String) (keeps : LineKind → Bool) (events : List Event) :
    ((events.map (Event.line label)).filter fun line => keeps (LineKind.ofLine line)) =
      (events.filter fun e => keeps e.kind).map (Event.line label) := by
  simp only [List.filter_map, Function.comp_def, Event.ofLine_line]

/-- The short form of a trace is the full one without instructions and branches. -/
theorem traceLines_brief (label : Ref → String) (events : List Event) :
    traceLines label .brief events =
      (traceLines label .verbose events).filter fun line => !(LineKind.ofLine line).isStep := by
  rw [traceLines_verbose, filter_line label (fun kind => !kind.isStep), traceLines]
  exact congrArg _ (List.filter_congr fun e _ => e.shown_brief)

/-! ### Lines of the listing -/

namespace RoutineSet

theorem getElem?_codeLines {code : Array Instruction} {address : Nat} {i : Instruction}
    (here : code[address]? = some i) : (codeLines code)[address]? = some (codeLine address i) := by
  rw [← Array.getElem?_toList] at here
  simp [codeLines, here]

theorem exists_listing (s : RoutineSet) (kind : RoutineKind) :
    ∃ above below, s.listing = String.join
      ((above ++ routineLines kind (s.routine? kind) ++ below).map fun line => line ++ "\n") := by
  have lines : ∃ header, s.listing = String.join
      ((header ++ routineLines .dispatch s.dispatch ++ routineLines .dispatchOne s.dispatchOne ++
        routineLines .targetMethod s.targetMethod).map fun line => line ++ "\n") := ⟨_, rfl⟩
  obtain ⟨header, isListing⟩ := lines
  rw [isListing]
  cases kind with
  | dispatch => exact ⟨header, _, by rw [List.append_assoc _ (routineLines .dispatchOne _)]; rfl⟩
  | dispatchOne => exact ⟨_, _, rfl⟩
  | targetMethod => exact ⟨_, [], by rw [List.append_nil]; rfl⟩

/-- What the listing writes above the code that runs for an index. -/
def codeHeader (s : RoutineSet) (kind : RoutineKind) (index : UInt32) : String :=
  if (s.case? kind index).isSome then "case " ++ toString index.toNat ++ ":" else "default:"

theorem exists_listed {s : RoutineSet} {kind : RoutineKind} {index : UInt32}
    {code : Array Instruction} (runs : s.codeFor? kind index = some code) :
    ∃ before after, routineLines kind (s.routine? kind) =
      before ++ s.codeHeader kind index :: codeLines code ++ after := by
  obtain ⟨r, present, rfl⟩ := Option.map_eq_some_iff.1 runs
  cases found : r.case? index with
  | some c =>
    have isCase : s.case? kind index = some c := by rw [case?, present, Option.bind_some, found]
    obtain ⟨member, key⟩ := Routine.mem_of_bisect found
    obtain ⟨front, back, split⟩ := List.append_of_mem member
    have header : s.codeHeader kind index = "case " ++ toString c.key.toNat ++ ":" := by
      rw [codeHeader, isCase, key]
      rfl
    refine ⟨"" :: ("[" ++ kind.text ++ "]") :: front.flatMap caseLines,
      back.flatMap caseLines ++ "default:" :: codeLines Routine.defaultCode, ?_⟩
    rw [header, present, Routine.codeFor, found, routineLines, split]
    simp [caseLines]
  | none =>
    have noCase : s.case? kind index = none := by rw [case?, present, Option.bind_some, found]
    refine ⟨"" :: ("[" ++ kind.text ++ "]") :: r.cases.toList.flatMap caseLines, [], ?_⟩
    rw [codeHeader, noCase, present, Routine.codeFor, found, routineLines]
    simp

end RoutineSet

end BeanDispatch
