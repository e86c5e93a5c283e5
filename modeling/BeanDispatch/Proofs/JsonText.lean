import BeanDispatch.Json.Printer
import BeanDispatch.Json.Reader
import Mathlib.Data.List.Forall2

/-! What is written is read back. The reader passes over the white space that the writer puts
between parts, finds the characters of a string behind their escapes, and takes the items of an
array and the members of an object one at a time. `Reads` says of a written text that a reader in so
many containers finds one tree in it and leaves what follows; fuel for the length of the text is
enough. Every tree without numbers and without flaws is read back from its written form as itself,
provided that its containers do not go deeper than a reader follows them. -/

namespace BeanDispatch.Json

/-! ### White space -/

/-- A text that a reader passes over. -/
def Blank (space : String) : Prop := ∀ text, afterSpace (space.toList ++ text) = afterSpace text

theorem blank_empty : Blank "" := fun _ => rfl

theorem blank_newline : Blank "\n" := fun _ => rfl

theorem blank_space : Blank " " := fun _ => rfl

theorem blank_indent : Blank "  " := fun _ => rfl

theorem Blank.append {first second : String} (blank : Blank first) (more : Blank second) :
    Blank (first ++ second) := by
  intro text
  rw [String.toList_append, List.append_assoc, blank, more]

theorem value_blank {space : String} (blank : Blank space) (fuel depth : Nat) (text : List Char) :
    value fuel depth (space.toList ++ text) = value fuel depth text := by
  rw [value.eq_def, value.eq_def fuel depth text, blank]

/-! ### Strings -/

/-- The part of a string that a written character is read as: a control character without a letter
of its own stands as a code unit. -/
def writtenPiece (c : Char) : Piece :=
  if c.toNat < 0x20 ∧ c ∉ ['\x08', '\t', '\n', '\x0c', '\r'] then .unit c.toNat else .char c

theorem codeUnit?_hexDigit {n : Nat} (small : n < 0x20) :
    codeUnit? '0' '0' (hexDigit (n / 16)) (hexDigit n) = some n := by
  have table : ∀ n < 0x20, codeUnit? '0' '0' (hexDigit (n / 16)) (hexDigit n) = some n := by decide
  exact table n small

theorem pieces_writtenChar (acc : List Piece) (c : Char) (text : List Char) :
    pieces acc (writtenChar c ++ text) = pieces (writtenPiece c :: acc) text := by
  by_cases lettered : c ∈ ['\x08', '\t', '\n', '\x0c', '\r', '"', '\\']
  · revert c
    simp only [List.forall_mem_cons]
    exact ⟨rfl, rfl, rfl, rfl, rfl, rfl, rfl, fun _ absent => absurd absent List.not_mem_nil⟩
  · simp only [List.mem_cons, List.not_mem_nil, not_or, or_false] at lettered
    by_cases control : c.toNat < 0x20
    · simp [writtenChar, writtenPiece, lettered, control, pieces, codeUnit?_hexDigit control]
    · simp [writtenChar, writtenPiece, lettered, control, pieces]

theorem pieces_written (cs : List Char) (acc : List Piece) (text : List Char) :
    pieces acc (cs.flatMap writtenChar ++ '"' :: text) =
      some ((cs.map writtenPiece).reverse ++ acc, text) := by
  induction cs generalizing acc with
  | nil => rfl
  | cons c cs ih =>
    rw [List.flatMap_cons, List.append_assoc, pieces_writtenChar, ih]
    simp

theorem joined?_unit {n : Nat} (small : n < 0x20) (acc : List Char) (rest : List Piece) :
    joined? acc (.unit n :: rest) = joined? (Char.ofNat n :: acc) rest := by
  have high : isHighSurrogate n = false := decide_eq_false (by omega)
  have low : isLowSurrogate n = false := decide_eq_false (by omega)
  rcases rest with _ | ⟨_ | _, _⟩ <;> simp [joined?, high, low]

theorem joined?_writtenPiece (cs : List Char) (acc : List Char) :
    joined? acc (cs.map writtenPiece) = some (acc.reverse ++ cs) := by
  induction cs generalizing acc with
  | nil => simp [joined?]
  | cons c cs ih =>
    rw [List.map_cons, writtenPiece]
    split
    next unit => rw [joined?_unit unit.1, Char.ofNat_toNat, ih]; simp
    next => rw [joined?, ih]; simp

/-- The text of a string behind its opening quote is read up to the closing one. -/
theorem string?_written (s : String) (text : List Char) :
    string? (s.toList.flatMap writtenChar ++ '"' :: text) = some (some s, text) := by
  simp [string?, pieces_written, joined?_writtenPiece]

theorem toList_writtenString (s : String) :
    (writtenString s).toList = '"' :: s.toList.flatMap writtenChar ++ ['"'] := by
  simp [writtenString]

/-! ### Values -/

/-- In this many containers a text that begins with the written one is read as the tree, and what
follows is left. -/
def Reads (depth : Nat) (written : String) (json : Json) : Prop :=
  ∀ fuel rest, written.length ≤ fuel →
    value fuel depth (written.toList ++ rest) = (json, some rest)

theorem reads_of_step {depth : Nat} {written : String} {json : Json} (nonempty : 0 < written.length)
    (step : ∀ fuel rest, written.length ≤ fuel + 1 →
      value (fuel + 1) depth (written.toList ++ rest) = (json, some rest)) :
    Reads depth written json := by
  intro fuel rest enough
  cases fuel with
  | zero => omega
  | succ fuel => exact step fuel rest enough

theorem reads_null (depth : Nat) : Reads depth "null" null :=
  reads_of_step (by decide) fun _ _ _ => rfl

theorem reads_bool (depth : Nat) (b : Bool) :
    Reads depth (if b then "true" else "false") (bool b) :=
  match b with
  | false => reads_of_step (by decide) fun _ _ _ => rfl
  | true => reads_of_step (by decide) fun _ _ _ => rfl

theorem afterSpace_writtenString (s : String) (rest : List Char) :
    afterSpace ((writtenString s).toList ++ rest) =
      '"' :: (s.toList.flatMap writtenChar ++ '"' :: rest) := by
  rw [toList_writtenString]
  simp [afterSpace]

theorem reads_string (depth : Nat) (s : String) : Reads depth (writtenString s) (str s) := by
  apply reads_of_step
  · rw [← String.length_toList, toList_writtenString]
    simp
  · intro fuel rest _
    rw [value.eq_def, afterSpace_writtenString]
    simp [string?_written]

theorem Reads.afterSpace_ne {depth : Nat} {written : String} {json : Json}
    (reads : Reads depth written json) (rest after : List Char) :
    afterSpace (written.toList ++ rest) ≠ ']' :: after := by
  intro closed
  have read := reads (written.length + 1) rest (Nat.le_succ _)
  rw [value.eq_def, closed] at read
  simp [numeral?, digits] at read

/-! ### Parts between commas -/

/-- The parts with a comma after each but the last, and white space after each comma. -/
def separated (space : String) (parts : List String) : String := ("," ++ space).intercalate parts

theorem separated_singleton (space part : String) : separated space [part] = part :=
  String.intercalate_singleton

theorem toList_separated_cons_cons (space first second : String) (parts : List String) :
    (separated space (first :: second :: parts)).toList =
      first.toList ++ ',' :: (space.toList ++ (separated space (second :: parts)).toList) := by
  rw [separated, String.intercalate_cons_cons]
  simp [separated]

theorem exists_toList_separated (space part : String) (parts : List String) :
    ∃ behind, (separated space (part :: parts)).toList = part.toList ++ behind := by
  cases parts with
  | nil => exact ⟨[], by rw [separated_singleton, List.append_nil]⟩
  | cons second parts => exact ⟨_, toList_separated_cons_cons space part second parts⟩

/-- A loop that takes one part at a time takes them all in order, up to what closes them. Before
each part stands the same white space; `more` and `last` say what one round of the loop does. -/
theorem loop_separated {α : Type} {loop : Nat → List α → List Char → Outcome}
    {finish : List α → Json} {Written : String → α → Prop} {before after : String} {closing : Char}
    (more : ∀ {part a}, Written part a → ∀ fuel done rest, part.length ≤ fuel →
      loop (fuel + 1) done (before.toList ++ (part.toList ++ ',' :: rest)) =
        loop fuel (a :: done) rest)
    (last : ∀ {part a}, Written part a → ∀ fuel done rest, part.length ≤ fuel →
      loop (fuel + 1) done (before.toList ++ (part.toList ++ (after.toList ++ closing :: rest))) =
        (finish (a :: done).reverse, some rest))
    {parts : List String} {found : List α} (each : List.Forall₂ Written parts found)
    (nonempty : parts ≠ []) (fuel : Nat) (done : List α) (rest : List Char)
    (enough : (separated before parts).length < fuel) :
    loop fuel done (before.toList ++ ((separated before parts).toList ++
        (after.toList ++ closing :: rest))) =
      (finish (done.reverse ++ found), some rest) := by
  induction each generalizing fuel done with
  | nil => exact absurd rfl nonempty
  | @cons part a parts found first others ih =>
    obtain ⟨fuel, rfl⟩ := Nat.exists_eq_add_one_of_ne_zero (Nat.ne_of_gt (Nat.zero_lt_of_lt enough))
    cases others with
    | nil =>
      rw [separated_singleton] at enough ⊢
      rw [last first fuel done rest (by omega), List.reverse_cons]
    | @cons second _ parts _ _ _ =>
      have layout := toList_separated_cons_cons before part second parts
      have length := congrArg List.length layout
      simp only [List.length_append, List.length_cons, String.length_toList] at length
      have later := ih (List.cons_ne_nil _ _) fuel (a :: done) (by omega)
      rw [List.reverse_cons, List.append_assoc, List.singleton_append] at later
      rw [← later, ← more first fuel done _ (by omega), layout]
      simp only [List.append_assoc, List.cons_append]

/-- The end of a line and the indentation of the next. -/
def lineBreak (indent : String) : String := "\n" ++ indent

theorem Blank.lineBreak {indent : String} (blank : Blank indent) : Blank (lineBreak indent) :=
  blank_newline.append blank

/-- A block as `loop_separated` finds it behind the opening bracket. -/
theorem toList_block {parts : List String} (nonempty : parts ≠ []) (opening closing : Char)
    (indent : String) (rest : List Char) :
    (block (String.singleton opening) (String.singleton closing) indent parts).toList ++ rest =
      opening :: ((lineBreak (indent ++ "  ")).toList ++
        ((separated (lineBreak (indent ++ "  ")) parts).toList ++
          ((lineBreak indent).toList ++ closing :: rest))) := by
  have filled : parts.isEmpty = false := List.isEmpty_eq_false_iff.2 nonempty
  have separator : ",\n" ++ (indent ++ "  ") = "," ++ lineBreak (indent ++ "  ") := by
    rw [lineBreak, ← String.append_assoc]
    rfl
  simp [block, separated, lineBreak, filled, separator]

/-- A block is longer than its parts, so the fuel for it is more than enough for them. -/
theorem length_separated_lt {parts : List String} (nonempty : parts ≠ []) (opening closing : Char)
    (indent : String) :
    (separated (lineBreak (indent ++ "  ")) parts).length + 1 <
      (block (String.singleton opening) (String.singleton closing) indent parts).length := by
  have layout := congrArg List.length (toList_block nonempty opening closing indent [])
  rw [List.append_nil, String.length_toList] at layout
  rw [layout]
  simp only [List.length_cons, List.length_append, String.length_toList]
  omega

/-- What one step of the reader does at the opening bracket settles how a block is read. -/
theorem reads_block {depth : Nat} {opening closing : Char} {indent : String} {parts : List String}
    {json : Json} (nonempty : parts ≠ [])
    (content : ∀ fuel rest, (separated (lineBreak (indent ++ "  ")) parts).length < fuel →
      value (fuel + 1) depth (opening :: ((lineBreak (indent ++ "  ")).toList ++
        ((separated (lineBreak (indent ++ "  ")) parts).toList ++
          ((lineBreak indent).toList ++ closing :: rest)))) = (json, some rest)) :
    Reads depth (block (String.singleton opening) (String.singleton closing) indent parts)
      json := by
  have longer := length_separated_lt nonempty opening closing indent
  apply reads_of_step (by omega)
  intro fuel rest enough
  rw [toList_block nonempty]
  exact content fuel rest (by omega)

/-! ### Arrays and objects -/

section Steps

variable {fuel depth : Nat} {text after rest : List Char} {json : Json}

theorem items_more (item : value fuel depth text = (json, some after))
    (comma : afterSpace after = ',' :: rest) (done : List Json) :
    items (fuel + 1) depth done text = items fuel depth (json :: done) rest := by
  rw [items.eq_def]
  simp only [item, comma]

theorem items_last (item : value fuel depth text = (json, some after))
    (closed : afterSpace after = ']' :: rest) (done : List Json) :
    items (fuel + 1) depth done text = (array (json :: done).reverse, some rest) := by
  rw [items.eq_def]
  simp only [item, closed]

variable {name : String} {named behind : List Char}

theorem members_more (quoted : afterSpace text = '"' :: named)
    (key : string? named = some (some name, ':' :: behind))
    (member : value fuel depth behind = (json, some after))
    (comma : afterSpace after = ',' :: rest) (done : List (String × Json)) :
    members (fuel + 1) depth done none text =
      members fuel depth ((name, json) :: done) none rest := by
  rw [members.eq_def]
  have colon : afterSpace (':' :: behind) = ':' :: behind := rfl
  simp only [quoted, key, colon, member, comma, Option.getD_some]

theorem members_last (quoted : afterSpace text = '"' :: named)
    (key : string? named = some (some name, ':' :: behind))
    (member : value fuel depth behind = (json, some after))
    (closed : afterSpace after = '\x7d' :: rest) (done : List (String × Json)) :
    members (fuel + 1) depth done none text =
      (object ((name, json) :: done).reverse, some rest) := by
  rw [members.eq_def]
  have colon : afterSpace (':' :: behind) = ':' :: behind := rfl
  simp only [quoted, key, colon, member, closed, Option.getD_some]

/-- An opening bracket with something behind it, not too deep, starts the items of an array. -/
theorem value_array (within : depth < depthLimit)
    (filled : ∀ after, afterSpace text ≠ ']' :: after) :
    value (fuel + 1) depth ('[' :: text) = items fuel (depth + 1) [] text := by
  have start : afterSpace ('[' :: text) = '[' :: text := rfl
  rw [value.eq_def, start]
  simp only [limited, if_pos (Nat.succ_le_of_lt within)]

theorem value_object (within : depth < depthLimit) (quoted : afterSpace text = '"' :: named) :
    value (fuel + 1) depth ('\x7b' :: text) = members fuel (depth + 1) [] none text := by
  have start : afterSpace ('\x7b' :: text) = '\x7b' :: text := rfl
  rw [value.eq_def, start]
  simp only [limited, if_pos (Nat.succ_le_of_lt within), quoted]
  rfl

end Steps

theorem reads_empty_array {depth : Nat} (within : depth < depthLimit) :
    Reads depth "[]" (array []) := by
  apply reads_of_step (by decide)
  intro fuel rest _
  exact if_pos (Nat.succ_le_of_lt within)

theorem reads_empty_object {depth : Nat} (within : depth < depthLimit) :
    Reads depth "\x7b\x7d" (object []) := by
  apply reads_of_step (by decide)
  intro fuel rest _
  exact if_pos (Nat.succ_le_of_lt within)

theorem items_separated {depth : Nat} {before after : String} (space : Blank before)
    (last : Blank after) {parts : List String} {found : List Json}
    (each : List.Forall₂ (Reads depth) parts found) (nonempty : parts ≠ []) {fuel : Nat}
    (enough : (separated before parts).length < fuel) (rest : List Char) :
    items fuel depth [] (before.toList ++ ((separated before parts).toList ++
        (after.toList ++ ']' :: rest))) = (array found, some rest) := by
  apply @loop_separated _ (fun fuel => items fuel depth) array (Reads depth) before after ']'
  · intro part json reads fuel done rest enough
    have item := (value_blank space fuel depth _).trans (reads fuel (',' :: rest) enough)
    exact items_more item rfl done
  · intro part json reads fuel done rest enough
    have item := (value_blank space fuel depth _).trans
      (reads fuel (after.toList ++ ']' :: rest) enough)
    exact items_last item (last _) done
  · exact each
  · exact nonempty
  · exact enough

/-- A member as it is written: its name, a colon and its value. -/
def ReadsMember (depth : Nat) (written : String) (member : String × Json) : Prop :=
  ∃ text, written = writtenString member.1 ++ ": " ++ text ∧ Reads depth text member.2

theorem members_separated {depth : Nat} {before after : String} (space : Blank before)
    (last : Blank after) {parts : List String} {found : List (String × Json)}
    (each : List.Forall₂ (ReadsMember depth) parts found) (nonempty : parts ≠ []) {fuel : Nat}
    (enough : (separated before parts).length < fuel) (rest : List Char) :
    members fuel depth [] none (before.toList ++ ((separated before parts).toList ++
        (after.toList ++ '\x7d' :: rest))) = (object found, some rest) := by
  apply @loop_separated _ (fun fuel done => members fuel depth done none) object
    (ReadsMember depth) before after '\x7d'
  · intro part member reads fuel done rest enough
    obtain ⟨text, rfl, reads⟩ := reads
    simp only [String.length_append] at enough
    simp only [String.toList_append, List.append_assoc]
    have behind := (value_blank blank_space fuel depth _).trans
      (reads fuel (',' :: rest) (by omega))
    exact members_more ((space _).trans (afterSpace_writtenString _ _)) (string?_written _ _)
      behind rfl done
  · intro part member reads fuel done rest enough
    obtain ⟨text, rfl, reads⟩ := reads
    simp only [String.length_append] at enough
    simp only [String.toList_append, List.append_assoc]
    have behind := (value_blank blank_space fuel depth _).trans
      (reads fuel (after.toList ++ '\x7d' :: rest) (by omega))
    exact members_last ((space _).trans (afterSpace_writtenString _ _)) (string?_written _ _)
      behind (last _) done
  · exact each
  · exact nonempty
  · exact enough

theorem reads_array {depth : Nat} {indent : String} (blank : Blank indent)
    (within : depth < depthLimit) {parts : List String} {found : List Json}
    (each : List.Forall₂ (Reads (depth + 1)) parts found) :
    Reads depth (block "[" "]" indent parts) (array found) := by
  have inner : Blank (lineBreak (indent ++ "  ")) := (blank.append blank_indent).lineBreak
  cases each with
  | nil => exact reads_empty_array within
  | @cons part json parts found first others =>
    apply @reads_block depth '[' ']' indent (part :: parts) _ (List.cons_ne_nil _ _)
    intro fuel rest enough
    rw [value_array within]
    · exact items_separated inner blank.lineBreak (.cons first others) (List.cons_ne_nil _ _)
        enough rest
    · intro after
      obtain ⟨behind, begins⟩ := exists_toList_separated (lineBreak (indent ++ "  ")) part parts
      rw [inner, begins, List.append_assoc]
      exact first.afterSpace_ne _ after

theorem reads_object {depth : Nat} {indent : String} (blank : Blank indent)
    (within : depth < depthLimit) {parts : List String} {found : List (String × Json)}
    (each : List.Forall₂ (ReadsMember (depth + 1)) parts found) :
    Reads depth (block "\x7b" "\x7d" indent parts) (object found) := by
  have inner : Blank (lineBreak (indent ++ "  ")) := (blank.append blank_indent).lineBreak
  cases each with
  | nil => exact reads_empty_object within
  | @cons part member parts found first others =>
    apply @reads_block depth '\x7b' '\x7d' indent (part :: parts) _ (List.cons_ne_nil _ _)
    intro fuel rest enough
    obtain ⟨behind, begins⟩ := exists_toList_separated (lineBreak (indent ++ "  ")) part parts
    obtain ⟨text, written, _⟩ := id first
    rw [value_object within]
    · exact members_separated inner blank.lineBreak (.cons first others) (List.cons_ne_nil _ _)
        enough rest
    · rw [inner, begins, written]
      simp only [String.toList_append, List.append_assoc]
      exact afterSpace_writtenString _ _

/-! ### Trees -/

/-- Trees without numbers and without flaws, with containers at most so deep. -/
inductive Plain : Nat → Json → Prop
  | null {limit : Nat} : Plain limit null
  | bool {limit : Nat} (b : Bool) : Plain limit (bool b)
  | str {limit : Nat} (s : String) : Plain limit (str s)
  | array {limit : Nat} {items : List Json} (each : ∀ json ∈ items, Plain limit json) :
    Plain (limit + 1) (array items)
  | object {limit : Nat} {members : List (String × Json)}
    (each : ∀ member ∈ members, Plain limit member.2) : Plain (limit + 1) (object members)

theorem Plain.mono {limit more : Nat} {json : Json} (plain : Plain limit json)
    (deeper : limit ≤ more) : Plain more json := by
  induction plain generalizing more with
  | null => exact .null
  | bool b => exact .bool b
  | str s => exact .str s
  | array each ih =>
    obtain ⟨more, rfl⟩ : ∃ n, more = n + 1 := ⟨more - 1, by omega⟩
    exact .array fun json member => ih json member (by omega)
  | object each ih =>
    obtain ⟨more, rfl⟩ : ∃ n, more = n + 1 := ⟨more - 1, by omega⟩
    exact .object fun member inMembers => ih member inMembers (by omega)

theorem blockItems_reads {depth : Nat} {indent : String} {items : List Json}
    (each : ∀ json ∈ items, Reads depth (prettyFrom indent json) json) :
    List.Forall₂ (Reads depth) (prettyFrom.blockItems indent items) items := by
  induction items with
  | nil => exact .nil
  | cons json items ih =>
    exact .cons (each json List.mem_cons_self)
      (ih fun later member => each later (List.mem_cons_of_mem json member))

theorem blockMembers_reads {depth : Nat} {indent : String} {members : List (String × Json)}
    (each : ∀ member ∈ members, Reads depth (prettyFrom indent member.2) member.2) :
    List.Forall₂ (ReadsMember depth) (prettyFrom.blockMembers indent members) members := by
  induction members with
  | nil => exact .nil
  | cons member members ih =>
    exact .cons ⟨_, rfl, each member List.mem_cons_self⟩
      (ih fun later inLater => each later (List.mem_cons_of_mem member inLater))

theorem Plain.reads {limit : Nat} {json : Json} (plain : Plain limit json) {depth : Nat}
    (within : depth + limit ≤ depthLimit) {indent : String} (blank : Blank indent) :
    Reads depth (prettyFrom indent json) json := by
  induction plain generalizing depth indent with
  | null => exact reads_null depth
  | bool b => exact reads_bool depth b
  | str s => exact reads_string depth s
  | array each ih =>
    apply reads_array blank (by omega)
    exact blockItems_reads fun json member => ih json member (by omega) (blank.append blank_indent)
  | object each ih =>
    apply reads_object blank (by omega)
    exact blockMembers_reads fun member inMembers =>
      ih member inMembers (by omega) (blank.append blank_indent)

/-- A plain tree, written over several lines, is read back as the same tree, and nothing follows. -/
theorem Plain.document_pretty {limit : Nat} {json : Json} (plain : Plain limit json)
    (within : limit ≤ depthLimit) : document json.pretty = (json, true) := by
  have enough : json.pretty.length ≤ 2 * json.pretty.toList.length + 2 := by
    rw [String.length_toList]
    omega
  have reads : Reads 0 json.pretty json := plain.reads (by omega) blank_empty
  have read := reads _ [] enough
  rw [List.append_nil] at read
  rw [document, read]
  rfl

end BeanDispatch.Json
