import CoreTally.Metric.Report
import CoreTally.Proofs.Numerals
import Mathlib.Data.List.Forall2

/-
  The lines that are printed of a session. An entry has a line
  with numerals for its instant and its value, which tells it from
  all other entries. The lines of an event begin with its name,
  and those of a unit with its number.

  Key definitions include:
    * `Entry.Shown`
    * `Entry.Told`
    * `EventReport.Listed`
    * `UnitReport.Listed`
    * `SessionReport.Listed`
    * `unlines`

  Key theorems include:
    * `Entry.Shown.unique`
    * `Entry.told_text`
    * `SessionReport.listed_lines`
-/

namespace CoreTally

------------------------------------------------------------
-- Lines of Entries
------------------------------------------------------------

namespace Entry

/- The end of the line of an entry, which remarks permanence. -/
def lineEnd (permanent : Bool) : String :=
  if permanent then ", permanent \x7d" else " \x7d"

/-
  A line shows an entry if it has a numeral for its instant, one
  with a sign for its value and the end that fits.
-/
def Shown (entry : Entry) (line : String) : Prop :=
  ∃ instant value : List Char,
    Text.Numeral instant entry.instant.toNat ∧
      Text.Signed value entry.value.toInt ∧
      line.toList =
        "    \x7b timestamp: ".toList ++
          (instant ++
            (", value: ".toList ++
              (value ++ (lineEnd entry.permanent).toList)))

/- A line tells an entry if it shows that one and no other. -/
def Told (entry : Entry) (line : String) : Prop :=
  ∀ other : Entry, other.Shown line ↔ other = entry

end Entry

namespace Text

/- The characters that numbers are written with. -/
def isNumeric (c : Char) : Bool :=
  c.isDigit || c == '+' || c == '-'

theorem Numeral.isNumeric
    {text : List Char}
    {n : Nat}
    (hText : Numeral text n) :
    ∀ c ∈ text, isNumeric c = true := by
  intro c hMem
  simp [Text.isNumeric, hText.digits c hMem]

theorem Signed.isNumeric
    {text : List Char}
    {n : Int}
    (hText : Signed text n) :
    ∀ c ∈ text, isNumeric c = true := by
  rcases hText with (hNumeral | hNumeral) | hNumeral
  · exact hNumeral.isNumeric
  · exact List.forall_mem_cons.mpr ⟨rfl, hNumeral.isNumeric⟩
  · exact List.forall_mem_cons.mpr ⟨rfl, hNumeral.isNumeric⟩

/- Where a number ends in a text is known by what follows. -/
theorem append_numeric_inj
    {number other rest rest' : List Char}
    (hNumber : ∀ c ∈ number, isNumeric c = true)
    (hOther : ∀ c ∈ other, isNumeric c = true)
    (hRest : ∀ c ∈ rest.head?, isNumeric c = false)
    (hRest' : ∀ c ∈ rest'.head?, isNumeric c = false)
    (hSame : number ++ rest = other ++ rest') :
    number = other ∧ rest = rest' := by
  have hStop :
      ∀ {rest : List Char},
        (∀ c ∈ rest.head?, isNumeric c = false) →
          rest.takeWhile isNumeric = [] := by
    intro rest hRest
    cases rest with
    | nil => rfl
    | cons c rest => simp [hRest c rfl]
  have hTaken := congrArg (List.takeWhile isNumeric) hSame
  rw [List.takeWhile_append_of_pos hNumber, hStop hRest,
    List.takeWhile_append_of_pos hOther, hStop hRest',
    List.append_nil, List.append_nil] at hTaken
  subst hTaken
  exact ⟨rfl, List.append_cancel_left hSame⟩

end Text

namespace Entry

variable {entry other : Entry}
variable {line : String}

theorem head?_lineEnd
    (permanent : Bool) :
    ∀ c ∈ (lineEnd permanent).toList.head?,
      Text.isNumeric c = false := by
  intro c hFirst
  cases permanent with
  | false =>
      have hSpace : c = ' ' := by
        simpa [lineEnd, eq_comm] using hFirst
      rw [hSpace]
      rfl
  | true =>
      have hComma : c = ',' := by
        simpa [lineEnd, eq_comm] using hFirst
      rw [hComma]
      rfl

theorem lineEnd_inj
    {one other : Bool}
    (hSame : (lineEnd one).toList = (lineEnd other).toList) :
    one = other := by
  revert hSame
  cases one <;> cases other <;> decide

/- No line shows two entries. -/
theorem Shown.unique
    (hEntry : entry.Shown line)
    (hOther : other.Shown line) :
    entry = other := by
  rcases hEntry with ⟨instant, value, hInstant, hValue, hLine⟩
  rcases hOther with ⟨instant', value', hInstant', hValue', hLine'⟩
  have hComma :
      ∀ rest,
        ∀ c ∈ (", value: ".toList ++ rest).head?,
          Text.isNumeric c = false := by
    intro rest c hHead
    cases hHead
    decide
  rw [hLine] at hLine'
  rcases Text.append_numeric_inj hInstant.isNumeric
    hInstant'.isNumeric (hComma _) (hComma _)
    (List.append_cancel_left hLine') with ⟨rfl, hRest⟩
  rcases Text.append_numeric_inj hValue.isNumeric
    hValue'.isNumeric (head?_lineEnd _) (head?_lineEnd _)
    (List.append_cancel_left hRest) with ⟨rfl, hEnd⟩
  have hSameInstant : entry.instant = other.instant := by
    rw [← UInt64.toNat_inj, ← hInstant.value, hInstant'.value]
  have hSameValue : entry.value = other.value :=
    Int64.toInt_inj.mp (hValue.unique hValue')
  have hSamePermanence := lineEnd_inj hEnd
  cases entry
  cases other
  simp_all

/- An entry is told by the line that is printed of it. -/
theorem told_text
    (entry : Entry) :
    entry.Told ("    " ++ entry.text) := by
  have hText :
      entry.text =
        "\x7b timestamp: " ++ toString entry.instant.toNat ++
          ", value: " ++ toString entry.value.toInt ++
          (if entry.permanent then ", permanent" else "") ++
          " \x7d" := rfl
  have hShown : entry.Shown ("    " ++ entry.text) := by
    refine ⟨_, _, Text.numeral_toString _, Text.signed_toString _,
      ?_⟩
    rw [hText, lineEnd]
    cases entry.permanent <;> simp
  intro other
  constructor
  · exact fun hOther => hOther.unique hShown
  · rintro rfl
    exact hShown

end Entry

------------------------------------------------------------
-- Lines of Reports
------------------------------------------------------------

/- The lines on an event: its name, and each entry in order. -/
def EventReport.Listed
    (row : EventReport)
    (lines : List String) : Prop :=
  ∃ shown,
    lines = ("  " ++ row.event ++ ":") :: shown ∧
      List.Forall₂ Entry.Told row.entries shown

/- The lines on a unit: its number, and each event in order. -/
def UnitReport.Listed
    (one : UnitReport)
    (lines : List String) : Prop :=
  ∃ (number : List Char) (blocks : List (List String)),
    Text.Numeral number one.unit.toNat ∧
      lines =
        ("metrics on unit " ++ String.ofList number ++ ":") ::
          blocks.flatten ∧
      List.Forall₂ EventReport.Listed one.events blocks

/- The lines on a session: each unit in order. -/
def SessionReport.Listed
    (report : SessionReport)
    (lines : List String) : Prop :=
  ∃ blocks : List (List String),
    lines = blocks.flatten ∧
      List.Forall₂ UnitReport.Listed report.units blocks

/- Lines as a text, each with a line feed behind it. -/
def unlines (lines : List String) : String :=
  String.join (lines.map (· ++ "\n"))

theorem unlines_cons
    (line : String)
    (lines : List String) :
    unlines (line :: lines) = line ++ "\n" ++ unlines lines :=
  String.join_cons

theorem unlines_flatMap
    {α : Type}
    (lines : α → List String)
    (items : List α) :
    unlines (items.flatMap lines) =
      String.join (items.map fun item => unlines (lines item)) := by
  induction items with
  | nil => rfl
  | cons item items ih =>
      rw [List.flatMap_cons, List.map_cons, String.join_cons, ← ih,
        unlines, List.map_append, String.join_append]
      rfl

/- The lines that are printed of a report. -/
def EventReport.lines (row : EventReport) : List String :=
  ("  " ++ row.event ++ ":") ::
    row.entries.map fun entry => "    " ++ entry.text

def UnitReport.lines (one : UnitReport) : List String :=
  s!"metrics on unit {one.unit}:" ::
    one.events.flatMap EventReport.lines

def SessionReport.lines (report : SessionReport) : List String :=
  report.units.flatMap UnitReport.lines

theorem EventReport.listed_lines
    (row : EventReport) :
    row.Listed row.lines := by
  refine ⟨_, rfl, ?_⟩
  rw [List.forall₂_map_right_iff, List.forall₂_same]
  exact fun entry _ => entry.told_text

theorem UnitReport.listed_lines
    (one : UnitReport) :
    one.Listed one.lines := by
  refine ⟨_, one.events.map EventReport.lines,
    Text.numeral_toString _, ?_, ?_⟩
  · rw [String.ofList_toList]
    rfl
  · rw [List.forall₂_map_right_iff, List.forall₂_same]
    exact fun row _ => row.listed_lines

theorem SessionReport.listed_lines
    (report : SessionReport) :
    report.Listed report.lines := by
  refine ⟨report.units.map UnitReport.lines, rfl, ?_⟩
  rw [List.forall₂_map_right_iff, List.forall₂_same]
  exact fun one _ => one.listed_lines

------------------------------------------------------------
-- Printed Sessions
------------------------------------------------------------

/- The readings of an event are printed by its lines. -/
theorem EventReport.unlines_lines
    (row : EventReport)
    (series : Series)
    (hEntries : row.entries = series.entries) :
    unlines row.lines = Session.seriesText row.event series := by
  rw [lines, unlines_cons, unlines, List.map_map,
    Session.seriesText, hEntries]
  have hHead :
      "  " ++ row.event ++ ":" ++ "\n" =
        "  " ++ row.event ++ ":\n" := String.append_assoc
  rw [hHead]
  rfl

end CoreTally
