import CoreTally.Json.Token

/-
  This file reads JSON texts. The reader takes one token after
  another and keeps the containers that are still open, so it
  sets no limit to how deeply values are nested.

  Key definitions include:
    * `Json.Frame`
    * `Json.Progress`
    * `Json.Progress.step?`
    * `Json.ofTokens?`
    * `Json.parse?`
-/

namespace CoreTally.Json

/- A container still open, with what it held so far, last first. -/
inductive Frame where
| array (before : List Json)
| object
    (before : List (Option String × Json))
    (key : Option String)

/-
  What has been read inside the open containers: nothing, so
  that a value is due; an opening bracket; an opening brace or
  the comma after a member; the key of a member; or a value.
-/
inductive Progress where
| due (frames : List Frame)
| openArray (frames : List Frame)
| member
    (frames : List Frame)
    (before : List (Option String × Json))
| key
    (frames : List Frame)
    (before : List (Option String × Json))
    (name : Option String)
| done (frames : List Frame) (value : Json)

namespace Progress

/- Begin a value with a token. -/
def begin? (frames : List Frame) : Token → Option Progress
| .null => some (.done frames .null)
| .bool value => some (.done frames (.bool value))
| .number value => some (.done frames (.number value))
| .string text => some (.done frames (.string text))
| .openArray => some (.openArray frames)
| .openObject => some (.member frames [])
| _ => none

/- Take the next token in. -/
def step? : Progress → Token → Option Progress
| .due frames, token => begin? frames token
| .openArray frames, .closeArray => some (.done frames (.array []))
| .openArray frames, token => begin? (.array [] :: frames) token
| .member frames [], .closeObject => some (.done frames (.object []))
| .member frames before, .string name => some (.key frames before name)
| .key frames before name, .colon =>
    some (.due (.object before name :: frames))
| .done (.array before :: frames) value, .comma =>
    some (.due (.array (value :: before) :: frames))
| .done (.array before :: frames) value, .closeArray =>
    some (.done frames (.array (value :: before).reverse))
| .done (.object before name :: frames) value, .comma =>
    some (.member frames ((name, value) :: before))
| .done (.object before name :: frames) value, .closeObject =>
    some (.done frames (.object ((name, value) :: before).reverse))
| _, _ => none

/- The value read, when no container is open any more. -/
def value? : Progress → Option Json
| .done [] value => some value
| _ => none

end Progress

/- The value that a row of tokens spells. -/
def ofTokens? (tokens : List Token) : Option Json :=
  (tokens.foldlM Progress.step? (.due [])).bind Progress.value?

/- The value that a text spells. -/
def parse? (text : String) : Option Json :=
  (Token.scan? text.toList).bind ofTokens?

end CoreTally.Json
