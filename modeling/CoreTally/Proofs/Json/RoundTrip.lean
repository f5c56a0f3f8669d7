import CoreTally.Json.Reader
import CoreTally.Proofs.Json.Scanning
import CoreTally.Text.Pieces

/-
  What is printed with a line for every value is read as the
  value that it was printed from. Arrays and objects are alike
  here: they have brackets, and parts with commas in between.

  Key definitions include:
    * `Json.Plain`
    * `Json.Reads`
    * `Json.Container`

  Key theorems include:
    * `Json.Container.reads_block`
    * `Json.Plain.reads`
    * `Json.parse?_pretty`
-/

namespace CoreTally.Json

------------------------------------------------------------
-- Plain Values
------------------------------------------------------------

/-
  Values that can be told from their text: their numbers are
  integers, and all of their strings have a text.
-/
inductive Plain : Json → Prop
| null :
    Plain .null
| bool
    (value : Bool) :
    Plain (.bool value)
| int
    (n : Int) :
    Plain (.int n)
| str
    (text : String) :
    Plain (.str text)
| array
    (items : List Json)
    (hItems : ∀ item ∈ items, Plain item) :
    Plain (.array items)
| record
    (members : List (String × Json))
    (hMembers : ∀ member ∈ members, Plain member.2) :
    Plain (.record members)

------------------------------------------------------------
-- Reading
------------------------------------------------------------

/- Some tokens take the reader from one state to another. -/
def Leads
    (tokens : List Token)
    (before after : Progress) : Prop :=
  tokens.foldlM Progress.step? before = some after

theorem leads_singleton
    {token : Token}
    {before after : Progress}
    (hStep : before.step? token = some after) :
    Leads [token] before after := by
  simp [Leads, hStep]

theorem Leads.append
    {first second : List Token}
    {before between after : Progress}
    (hFirst : Leads first before between)
    (hSecond : Leads second between after) :
    Leads (first ++ second) before after := by
  unfold Leads at *
  rw [List.foldlM_append, hFirst]
  exact hSecond

/- A text is read as a value, wherever a value is due. -/
def Reads
    (text : List Char)
    (value : Json) : Prop :=
  ∃ tokens,
    (∀ rest, Stops rest → Scans text tokens rest) ∧
      ∀ frames, Leads tokens (.due frames) (.done frames value)

/- A single token that no rest goes on with is read at once. -/
theorem reads_of_token
    {text : List Char}
    {token : Token}
    {value : Json}
    (hScans : ∀ rest, Stops rest → Scans text [token] rest)
    (hBegin :
      ∀ frames,
        Progress.begin? frames token =
          some (.done frames value)) :
    Reads text value :=
  ⟨[token], hScans, fun frames => leads_singleton (hBegin frames)⟩

/-
  A value that is read where one is due is read behind an
  opening bracket, since it does not start with a closing one.
-/
theorem Leads.openArray
    {tokens : List Token}
    {frames : List Frame}
    {value : Json}
    (hLeads :
      Leads tokens (.due (.array [] :: frames))
        (.done (.array [] :: frames) value)) :
    Leads tokens (.openArray frames)
      (.done (.array [] :: frames) value) := by
  unfold Leads at *
  cases tokens with
  | nil =>
      rw [List.foldlM_nil] at hLeads
      cases hLeads
  | cons token tokens =>
      -- The two states differ on a closing bracket only, and no
      -- value begins with one.
      rw [List.foldlM_cons] at hLeads ⊢
      cases token with
      | closeArray => contradiction
      | _ => exact hLeads

theorem stops_of_mark
    {c : Char}
    (hMark :
      c.isDigit = false ∧ c ≠ '.' ∧ c ≠ 'e' ∧ c ≠ 'E')
    {rest : List Char} :
    Stops (c :: rest) := hMark

theorem stops_of_isSpace
    {c : Char}
    (hSpace : isSpace c = true)
    (rest : List Char) :
    Stops (c :: rest) := by
  simp only [isSpace, Bool.or_eq_true, beq_iff_eq] at hSpace
  rcases hSpace with ((rfl | rfl) | rfl) | rfl
  all_goals exact stops_of_mark (by decide)

------------------------------------------------------------
-- Containers
------------------------------------------------------------

/-
  How the parts of a container are read: in which states the
  reader is in front of a part and behind one, with the parts
  before it, last first, and what it makes of its brackets and
  of the commas.
-/
structure Container (α : Type) where
  opening : String
  closing : String
  openToken : Token
  closeToken : Token
  enter : List Frame → List α → Progress
  filled : List Frame → List α → α → Progress
  whole : List α → Json
  scansOpening :
    ∀ rest, Scans opening.toList [openToken] rest
  scansClosing :
    ∀ rest, Scans closing.toList [closeToken] rest
  stopsClosing :
    ∀ rest, Stops (closing.toList ++ rest)
  opens :
    ∀ frames,
      (Progress.due frames).step? openToken =
        some (enter frames [])
  closesEmpty :
    ∀ frames,
      (enter frames []).step? closeToken =
        some (.done frames (whole []))
  separates :
    ∀ frames before part,
      (filled frames before part).step? .comma =
        some (enter frames (part :: before))
  closes :
    ∀ frames before part,
      (filled frames before part).step? closeToken =
        some (.done frames (whole (part :: before).reverse))

namespace Container

/- Arrays, with values as parts. -/
def array : Container Json where
  opening := "["
  closing := "]"
  openToken := .openArray
  closeToken := .closeArray
  enter frames
    | [] => .openArray frames
    | value :: before => .due (.array (value :: before) :: frames)
  filled frames before value := .done (.array before :: frames) value
  whole := .array
  scansOpening := scans_mark rfl
  scansClosing := scans_mark rfl
  stopsClosing _ := stops_of_mark (by decide)
  opens _ := rfl
  closesEmpty _ := rfl
  separates _ _ _ := rfl
  closes _ _ _ := rfl

/- Objects, with members as parts. -/
def object : Container (Option String × Json) where
  opening := "\x7b"
  closing := "\x7d"
  openToken := .openObject
  closeToken := .closeObject
  enter := .member
  filled frames before member :=
    .done (.object before member.1 :: frames) member.2
  whole := .object
  scansOpening := scans_mark rfl
  scansClosing := scans_mark rfl
  stopsClosing _ := stops_of_mark (by decide)
  opens _ := rfl
  closesEmpty _ := rfl
  separates _ _ _ := rfl
  closes _ _ _ := rfl

variable {α β : Type}

/- A text is read as a part, wherever a part may stand. -/
def Takes
    (container : Container α)
    (text : List Char)
    (part : α) : Prop :=
  ∃ tokens,
    (∀ rest, Stops rest → Scans text tokens rest) ∧
      ∀ frames before,
        Leads tokens (container.enter frames before)
          (container.filled frames before part)

/- The text behind a part, up to the closing bracket. -/
def tail
    (container : Container α)
    (separator blanks : List Char)
    (texts : List (List Char)) : List Char :=
  texts.flatMap (',' :: separator ++ ·) ++
    (blanks ++ container.closing.toList)

theorem tail_cons
    (container : Container α)
    (separator blanks text : List Char)
    (texts : List (List Char)) :
    container.tail separator blanks (text :: texts) =
      [','] ++ (separator ++
        (text ++ container.tail separator blanks texts)) := by
  simp [tail]

/- It does not go on with a number in front of it. -/
theorem stops_tail
    (container : Container α)
    (separator : List Char)
    {blanks : List Char}
    (hBlanks : ∀ c ∈ blanks, isSpace c = true)
    (texts : List (List Char))
    (rest : List Char) :
    Stops (container.tail separator blanks texts ++ rest) := by
  cases texts with
  | nil =>
      rw [tail, List.flatMap_nil, List.nil_append,
        List.append_assoc]
      cases blanks with
      | nil => exact container.stopsClosing rest
      | cons c blanks =>
          exact stops_of_isSpace (hBlanks c (by simp)) _
  | cons text texts =>
      rw [tail_cons, List.append_assoc, List.singleton_append]
      exact stops_of_mark (by decide)

/- What follows a part is read up to the end of the container. -/
theorem takes_tail
    (container : Container α)
    {separator blanks : List Char}
    (hSeparator : ∀ c ∈ separator, isSpace c = true)
    (hBlanks : ∀ c ∈ blanks, isSpace c = true)
    (text : β → List Char)
    (part : β → α)
    {items : List β}
    (hItems : ∀ item ∈ items, container.Takes (text item) (part item)) :
    ∃ tokens,
      (∀ rest,
        Scans (container.tail separator blanks (items.map text))
          tokens rest) ∧
        ∀ frames before last,
          Leads tokens (container.filled frames before last)
            (.done frames
              (container.whole
                ((last :: before).reverse ++ items.map part))) := by
  -- The part in front and those before it stay arbitrary, since
  -- each part becomes the one in front of the next.
  induction items with
  | nil =>
      refine ⟨[container.closeToken], ?_, ?_⟩
      · intro rest
        exact (scans_spaces hBlanks _).append
          (container.scansClosing rest)
      · intro frames before last
        rw [List.map_nil, List.append_nil]
        exact leads_singleton (container.closes frames before last)
  | cons item items ih =>
      rcases ih fun other hOther => hItems other (by simp [hOther])
        with ⟨after, hScansAfter, hLeadsAfter⟩
      rcases hItems item (by simp) with
        ⟨tokens, hScans, hLeads⟩
      refine ⟨.comma :: (tokens ++ after), ?_, ?_⟩
      · intro rest
        have hStops :=
          container.stops_tail separator hBlanks
            (items.map text) rest
        rw [List.map_cons, tail_cons]
        exact (scans_mark rfl _).append
          ((scans_spaces hSeparator _).append
            ((hScans _ hStops).append (hScansAfter rest)))
      · intro frames before last
        have hComma :=
          leads_singleton (container.separates frames before last)
        have hPart := hLeads frames (last :: before)
        have hRest := hLeadsAfter frames (last :: before) (part item)
        have hAll := hComma.append (hPart.append hRest)
        simpa using hAll

theorem isSpace_of_mem_newLine
    (depth : Nat) :
    ∀ c ∈ (newLine depth).toList, isSpace c = true := by
  intro c hBlank
  rw [newLine, String.toList_ofList, List.mem_cons,
    List.mem_replicate] at hBlank
  rcases hBlank with rfl | ⟨_, rfl⟩
  · rfl
  · rfl

/- The text of a container with parts, from its opening bracket. -/
theorem toList_block_cons
    (container : Container α)
    (depth : Nat)
    (text : String)
    (texts : List String) :
    (block container.opening container.closing depth
        (text :: texts)).toList =
      container.opening.toList ++
        ((newLine (depth + 1)).toList ++
          (text.toList ++
            container.tail (newLine (depth + 1)).toList
              (newLine depth).toList
              (texts.map String.toList))) := by
  have hParts :
      (("," ++ newLine (depth + 1)).intercalate
          (text :: texts)).toList =
        text.toList ++
          (texts.map String.toList).flatMap
            (',' :: (newLine (depth + 1)).toList ++ ·) := by
    rw [String.toList_intercalate, String.toList_append,
      List.map_cons, Text.intercalate_cons]
    rfl
  simp only [block, String.toList_append, hParts, tail,
    List.append_assoc]

/- Parts between brackets are read as a container of them. -/
theorem reads_block
    (container : Container α)
    (depth : Nat)
    (text : β → String)
    (part : β → α)
    {items : List β}
    (hItems :
      ∀ item ∈ items,
        container.Takes (text item).toList (part item)) :
    Reads
      (block container.opening container.closing depth
        (items.map text)).toList
      (container.whole (items.map part)) := by
  cases items with
  | nil =>
      refine ⟨[container.openToken, container.closeToken], ?_, ?_⟩
      · intro rest _
        rw [List.map_nil, block, String.toList_append]
        exact (container.scansOpening _).append
          (container.scansClosing rest)
      · intro frames
        exact (leads_singleton (container.opens frames)).append
          (leads_singleton (container.closesEmpty frames))
  | cons item items =>
      rcases hItems item (by simp) with
        ⟨tokens, hScans, hLeads⟩
      have hOthers :
          ∀ other ∈ items,
            container.Takes (text other).toList (part other) := by
        intro other hOther
        exact hItems other (by simp [hOther])
      rcases container.takes_tail
          (isSpace_of_mem_newLine (depth + 1))
          (isSpace_of_mem_newLine depth)
          (fun item => (text item).toList) part hOthers
        with ⟨after, hScansAfter, hLeadsAfter⟩
      refine ⟨container.openToken :: (tokens ++ after), ?_, ?_⟩
      · intro rest _
        have hStops :=
          container.stops_tail (newLine (depth + 1)).toList
            (isSpace_of_mem_newLine depth)
            (items.map fun item => (text item).toList) rest
        rw [List.map_cons, toList_block_cons, List.map_map]
        exact (container.scansOpening _).append
          ((scans_spaces (isSpace_of_mem_newLine _) _).append
            ((hScans _ hStops).append (hScansAfter rest)))
      · intro frames
        have hOpen := leads_singleton (container.opens frames)
        have hAll :=
          hOpen.append
            ((hLeads frames []).append
              (hLeadsAfter frames [] (part item)))
        simpa using hAll

theorem takes_array
    {text : List Char}
    {value : Json}
    (hReads : Reads text value) :
    array.Takes text value := by
  rcases hReads with ⟨tokens, hScans, hLeads⟩
  refine ⟨tokens, hScans, ?_⟩
  intro frames before
  cases before with
  | nil => exact (hLeads _).openArray
  | cons last before => exact hLeads _

/- A name and a value with a colon in between make a member. -/
theorem takes_object
    (name : String)
    {text : String}
    {value : Json}
    (hReads : Reads text.toList value) :
    object.Takes (quote name ++ ": " ++ text).toList
      (some name, value) := by
  rcases hReads with ⟨tokens, hScans, hLeads⟩
  refine ⟨.string (some name) :: .colon :: tokens, ?_, ?_⟩
  · intro rest hStops
    rw [String.toList_append, String.toList_append,
      List.append_assoc]
    exact (scans_quote name _).append
      ((scans_mark rfl _).append
        ((scans_space rfl _).append (hScans rest hStops)))
  · intro frames before
    have hName :
        Leads [.string (some name), .colon]
          (object.enter frames before)
          (.due (.object before (some name) :: frames)) := by
      cases before <;> rfl
    exact hName.append (hLeads _)

end Container

------------------------------------------------------------
-- Round Trip
------------------------------------------------------------

theorem indentedItems_eq_map
    (depth : Nat)
    (items : List Json) :
    indentedItems depth items = items.map (indented depth) := by
  induction items with
  | nil => rfl
  | cons item items ih => rw [indentedItems, ih, List.map_cons]

theorem indentedMembers_eq_map
    (depth : Nat)
    (members : List (String × Json)) :
    indentedMembers depth
        (members.map fun (name, value) => (some name, value)) =
      members.map fun member =>
        quote member.1 ++ ": " ++ indented depth member.2 := by
  induction members with
  | nil => rfl
  | cons member members ih =>
      rw [List.map_cons, indentedMembers, ih, List.map_cons]
      rfl

/- A plain value is read from its text at any depth. -/
theorem Plain.reads
    {value : Json}
    (hPlain : Plain value)
    (depth : Nat) :
    Reads (indented depth value).toList value := by
  induction hPlain generalizing depth with
  | null =>
      rw [indented]
      exact reads_of_token (fun rest _ => scans_null rest)
        (fun _ => rfl)
  | bool value =>
      have hText :
          indented depth (.bool value) =
            if value then "true" else "false" := by
        cases value <;> rw [indented] <;> rfl
      rw [hText]
      exact reads_of_token (fun rest _ => scans_bool value rest)
        (fun _ => rfl)
  | int n =>
      rw [Json.int, indented, String.toList_ofList]
      exact reads_of_token (fun _ hStops => scans_number n hStops)
        (fun _ => rfl)
  | str text =>
      rw [Json.str, indented]
      exact reads_of_token (fun rest _ => scans_quote text rest)
        (fun _ => rfl)
  | array items hItems ih =>
      have hBlock :=
        Container.array.reads_block depth
          (indented (depth + 1)) id
          (fun item hItem =>
            Container.takes_array (ih item hItem (depth + 1)))
      rw [List.map_id] at hBlock
      rw [indented, indentedItems_eq_map]
      exact hBlock
  | record members hMembers ih =>
      have hParts :
          ∀ member ∈ members,
            Container.object.Takes
              (quote member.1 ++ ": " ++
                indented (depth + 1) member.2).toList
              (some member.1, member.2) := by
        intro member hMember
        exact Container.takes_object member.1
          (ih member hMember (depth + 1))
      have hBlock := Container.object.reads_block depth _ _ hParts
      rw [Json.record, indented, indentedMembers_eq_map]
      exact hBlock

/- What is printed of a plain value is read as that value. -/
theorem parse?_pretty
    {value : Json}
    (hPlain : Plain value) :
    parse? (pretty value) = some value := by
  rcases hPlain.reads 0 with ⟨tokens, hScans, hLeads⟩
  have hTokens :
      Token.scan? (pretty value).toList = some tokens := by
    have hAll := hScans [] trivial
    rw [Scans, List.append_nil, Token.scan?, Option.map_some,
      List.append_nil] at hAll
    exact hAll
  have hValue : ofTokens? tokens = some value := by
    rw [ofTokens?, show tokens.foldlM _ _ = _ from hLeads []]
    rfl
  rw [parse?, hTokens]
  exact hValue

end CoreTally.Json
