import CoreTally.Counter.Binding
import CoreTally.Proofs.Numerals
import CoreTally.Proofs.Words

/-
  The state of a task in one line. Its fields stand behind the
  last closing parenthesis, which is the one that closes the name
  of the command, because no field holds another. So whatever the
  name looks like, the processor is the field that is counted from
  there.

  Key definitions include:
    * `StatLine.Fields`
    * `StatLine.Record`
    * `StatLine.Record.line`

  Key theorems include:
    * `StatLine.processor?_eq_some_iff`
    * `StatLine.Record.fields_line`
    * `StatLine.processor_is_found_behind_name`
-/

namespace CoreTally

namespace StatLine

------------------------------------------------------------
-- Fields
------------------------------------------------------------

/- The fields of a line are the words behind its last `)`. -/
def Fields
    (line : List Char)
    (fields : List (List Char)) : Prop :=
  ∃ before after,
    line = before ++ ')' :: after ∧
      ')' ∉ after ∧
        Text.Words after fields

theorem fields_iff
    (line : List Char)
    (fields : List (List Char)) :
    Fields line fields ↔
      ∃ after,
        Text.afterLast? ')' line = some after ∧
          Text.words after = fields := by
  simp only [Fields, Text.afterLast?_eq_some_iff, Text.words_eq_iff]
  constructor
  · rintro ⟨before, after, hLine, hAfter, hFields⟩
    exact ⟨after, ⟨hAfter, before, hLine⟩, hFields⟩
  · rintro ⟨after, ⟨hAfter, before, hLine⟩, hFields⟩
    exact ⟨before, after, hLine, hAfter, hFields⟩

theorem Fields.unique
    {line : List Char}
    {fields other : List (List Char)}
    (hFields : Fields line fields)
    (hOther : Fields line other) :
    fields = other := by
  rcases (fields_iff _ _).mp hFields with ⟨after, hAfter, rfl⟩
  rcases (fields_iff _ _).mp hOther with ⟨after', hAfter', rfl⟩
  rw [hAfter] at hAfter'
  rw [Option.some.inj hAfter']

/- A carriage return behind the fields is none of them. -/
theorem fields_append_return_iff
    (line : List Char)
    (fields : List (List Char)) :
    Fields (line ++ ['\r']) fields ↔ Fields line fields := by
  have hWords :
      ∀ after, Text.words (after ++ ['\r']) = Text.words after := by
    intro after
    rw [Text.words_append_cons rfl]
    exact List.append_nil _
  simp only [Fields, ← Text.words_eq_iff]
  constructor
  · rintro ⟨before, after, hLine, hAfter, hFields⟩
    rcases List.eq_nil_or_concat after with rfl | ⟨init, c, rfl⟩
    · have hLast := (List.append_inj' hLine rfl).2
      contradiction
    · rw [List.concat_eq_append, ← List.cons_append,
        ← List.append_assoc] at hLine
      rcases List.append_inj' hLine rfl with ⟨hInit, hReturn⟩
      rw [List.concat_eq_append, ← hReturn, hWords] at hFields
      refine ⟨before, init, hInit, ?_, hFields⟩
      exact fun hMem => hAfter (by simp [hMem])
  · rintro ⟨before, after, rfl, hAfter, hFields⟩
    refine ⟨before, after ++ ['\r'], by simp, by simpa using hAfter, ?_⟩
    rw [hWords, hFields]

/-
  The processor is the field of its number in the first line, and
  it is found only if that field is a numeral.
-/
theorem processor?_eq_some_iff
    (stat : String)
    (cpu : UInt32) :
    processor? stat = some cpu ↔
      ∃ fields field,
        Fields (Text.firstLine stat.toList) fields ∧
          fields[processorField - firstFieldAfterName]? =
            some field ∧
          Text.Literal field cpu.toNat := by
  rw [processor?]
  rcases Text.lines_cases stat.toList with
    ⟨hLines, hFirst⟩ | ⟨line, later, hLines, hFirst⟩
  · rw [hLines, hFirst]
    simp [Fields]
  · have hFields :
        ∀ fields,
          Fields (Text.firstLine stat.toList) fields ↔
            Fields line fields := by
      intro fields
      rcases hFirst with hFirst | hFirst
      · rw [hFirst]
      · rw [hFirst, fields_append_return_iff]
    simp only [hLines, hFields, fields_iff]
    cases Text.afterLast? ')' line with
    | none => simp
    | some after =>
        cases hField :
            (Text.words after)[processorField -
              firstFieldAfterName]? with
        | none => simp [hField]
        | some field => simp [hField, Text.uint32?_eq_some_iff]

/- With too few fields there is no processor among them. -/
theorem processor?_of_few
    {stat : String}
    (hFew :
      ∀ fields,
        Fields (Text.firstLine stat.toList) fields →
          fields.length < 37) :
    processor? stat = none := by
  rw [Option.eq_none_iff_forall_ne_some]
  intro cpu hCpu
  rcases (processor?_eq_some_iff stat cpu).mp hCpu with
    ⟨fields, field, hFields, hField, _⟩
  have hShort :
      fields.length ≤ processorField - firstFieldAfterName :=
    Nat.le_of_lt_succ (hFew fields hFields)
  rw [List.getElem?_eq_none hShort] at hField
  contradiction

------------------------------------------------------------
-- Records
------------------------------------------------------------

/- The characters that a line may have behind the name. -/
def Plain (text : List Char) : Prop :=
  '\n' ∉ text ∧ ')' ∉ text

/-
  What is told of a task: its number and the name of its command,
  36 fields of no concern, the processor, and the remainder of the
  line. Number and name may hold anything but a line feed.
-/
structure Record where
  task : List Char
  name : List Char
  fillers : List (List Char)
  cpu : UInt32
  remainder : List Char
  task_in_line : '\n' ∉ task
  name_in_line : '\n' ∉ name
  length_fillers : fillers.length = 36
  fillers_words : ∀ filler ∈ fillers, Text.IsWord filler
  fillers_plain : ∀ filler ∈ fillers, ')' ∉ filler
  remainder_plain : Plain remainder
  remainder_apart : Text.EndsWord remainder

namespace Record

variable (record : Record)

/- The fields up to the processor. -/
def fields : List (List Char) :=
  record.fillers ++ [Nat.toDigits 10 record.cpu.toNat]

/- The line begins with the number and the name in parentheses. -/
def head : List Char :=
  record.task ++ " (".toList ++ record.name

/- What stands behind the name. -/
def tail : List Char :=
  record.fields.flatMap (' ' :: ·) ++ record.remainder

/- The line of a record. -/
def line : List Char :=
  record.head ++ ')' :: record.tail

/- Fields are words without a closing parenthesis. -/
theorem clean_of_mem_fields
    {field : List Char}
    (hField : field ∈ record.fields) :
    Text.IsWord field ∧ ')' ∉ field := by
  rcases List.mem_append.mp hField with hFiller | hCpu
  · exact ⟨record.fillers_words field hFiller,
      record.fillers_plain field hFiller⟩
  · rw [List.mem_singleton.mp hCpu]
    have hDigits := Text.numeral_toDigits record.cpu.toNat
    refine ⟨⟨hDigits.present, fun c hDigit =>
      Text.isBlank_of_isDigit (hDigits.digits c hDigit)⟩, ?_⟩
    intro hClose
    exact absurd (hDigits.digits ')' hClose) (by decide)

theorem plain_tail :
    Plain record.tail := by
  have hFields :
      ∀ field ∈ record.fields, Plain field := by
    intro field hField
    rcases record.clean_of_mem_fields hField with ⟨hWord, hClose⟩
    exact ⟨hWord.notMem rfl, hClose⟩
  unfold Plain tail
  simp only [List.mem_append, List.mem_flatMap, List.mem_cons,
    not_or, not_exists, not_and]
  exact
    ⟨⟨fun field hField => ⟨by decide, (hFields field hField).1⟩,
        record.remainder_plain.1⟩,
      fun field hField => ⟨by decide, (hFields field hField).2⟩,
        record.remainder_plain.2⟩

/- A record stays in its line. -/
theorem notMem_line :
    '\n' ∉ record.line := by
  simp [line, head, record.task_in_line, record.name_in_line,
    record.plain_tail.1]

/-
  The closing parenthesis of the name is the last one. The fields
  behind it are those of the record and the words that remain.
-/
theorem fields_line :
    Fields record.line
      (record.fields ++ Text.words record.remainder) := by
  refine ⟨record.head, record.tail, rfl, record.plain_tail.2, ?_⟩
  rw [← Text.words_eq_iff]
  exact Text.words_spaced
    (fun _ hField => (record.clean_of_mem_fields hField).1)
    record.remainder_apart

/- The field of the processor comes after the fillers. -/
theorem getElem?_fields :
    (record.fields ++ Text.words record.remainder)[
        processorField - firstFieldAfterName]? =
      some (Nat.toDigits 10 record.cpu.toNat) := by
  have hNumber :
      processorField - firstFieldAfterName = record.fillers.length :=
    record.length_fillers.symm
  rw [fields, List.append_assoc, hNumber,
    List.getElem?_append_right (Nat.le_refl _), Nat.sub_self]
  rfl

end Record

------------------------------------------------------------
-- Processors
------------------------------------------------------------

/-
  The processor of a record is found, whatever the name of the
  command and whatever comes after the line. Nothing is found in a
  first line without a closing parenthesis, or with too few fields
  behind the last one.
-/
theorem processor_is_found_behind_name :
    (∀ (record : Record) (stat : String),
      (stat.toList = record.line ∨
        ∃ rest, stat.toList = record.line ++ '\n' :: rest) →
      processor? stat = some record.cpu) ∧
    ∀ stat : String,
      let line := Text.firstLine stat.toList
      (')' ∉ line → processor? stat = none) ∧
        ∀ fields,
          Fields line fields →
            fields.length < 37 →
              processor? stat = none := by
  constructor
  · intro record stat hStat
    have hLine : Text.firstLine stat.toList = record.line := by
      rcases hStat with hStat | ⟨rest, hStat⟩
      · rw [hStat, Text.firstLine_of_notMem record.notMem_line]
      · rw [hStat, Text.firstLine_append_cons record.notMem_line]
    rw [processor?_eq_some_iff, hLine]
    exact ⟨_, _, record.fields_line, record.getElem?_fields,
      .plain (Text.numeral_toDigits _)⟩
  · intro stat line
    constructor
    · intro hClose
      apply processor?_of_few
      rintro _ ⟨before, after, hLine, _⟩
      have hMem : ')' ∈ line := by
        rw [show line = before ++ ')' :: after from hLine]
        simp
      exact absurd hMem hClose
    · intro fields hFields hFew
      apply processor?_of_few
      intro other hOther
      rwa [hOther.unique hFields]

/-
  The name of the command looks like the fields behind it, and a
  line that ends too early is followed by one that does not.
-/
theorem processor_is_found_behind_name_of_fields :
    let record : Record :=
      { task := ['7']
        name := [')', ' ', 'R', ' ', '(', '1', ' ', '\t', ')', ')']
        fillers := List.replicate 36 ['0']
        cpu := 11
        remainder := [' ', '-', '1', '\r']
        task_in_line := by decide
        name_in_line := by decide
        length_fillers := by decide
        fillers_words := by
          intro filler hFiller
          rw [List.eq_of_mem_replicate hFiller]
          exact ⟨by decide, List.forall_mem_singleton.mpr rfl⟩
        fillers_plain := by decide
        remainder_plain := by unfold Plain; decide
        remainder_apart := fun _ hFirst =>
          Option.some.inj hFirst ▸ rfl }
    let stat := String.ofList (record.line ++ '\n' :: [')', ' ', '5'])
    let short :=
      String.ofList (['7', ' ', '(', ')', ' ', 'R', '\n'] ++ record.line)
    processor? stat = some 11 ∧
      Fields (Text.firstLine short.toList) [['R']] ∧
        [['R']].length < 37 ∧
          processor? short = none := by
  intro record stat short
  have hStat : stat.toList = record.line ++ '\n' :: [')', ' ', '5'] :=
    String.toList_ofList
  have hFields : Fields (Text.firstLine short.toList) [['R']] := by
    rw [fields_iff]
    exact ⟨[' ', 'R'], by rw [String.toList_ofList]; rfl, rfl⟩
  rcases processor_is_found_behind_name with ⟨hFound, hRefused⟩
  exact ⟨hFound record stat (.inr ⟨_, hStat⟩), hFields, by decide,
    (hRefused short).2 _ hFields (by decide)⟩

end StatLine

end CoreTally
