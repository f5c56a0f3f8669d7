import CoreTally.Yaml.Node
import CoreTally.Yaml.Scan

/-
  This file builds documents out of tokens. A text holds at most
  one document, and an empty one holds none.

  Readers take tokens from the front of a list and return what
  is left, which is never more than was given.

  Key definitions include:
    * `Yaml.Scope`
    * `Yaml.Place`
    * `Yaml.node?`
    * `Yaml.Document.ofTokens?`
    * `Yaml.Document.parse?`
-/

namespace CoreTally.Yaml

------------------------------------------------------------
-- Handles and Anchors
------------------------------------------------------------

/-
  The meaning of handles, the names of anchors with their
  numbers, latest first, and the nodes read for them.
-/
structure Scope where
  handles : List (String × List UInt8)
  names : List (String × Nat) := []
  anchored : List (Nat × Node) := []

/- A handle and a suffix. -/
abbrev TagParts :=
  String × List UInt8

namespace Scope

/- Handles that need no directive. -/
def defaultHandles : List (String × List UInt8) :=
  [("!", "!".toUTF8.data.toList),
    ("!!", "tag:yaml.org,2002:".toUTF8.data.toList)]

/- Number the next anchor. -/
def declare (scope : Scope) (name : Option String) : Option Nat × Scope :=
  match name with
  | none => (none, scope)
  | some name =>
      let anchor := scope.names.length
      (some anchor, { scope with names := (name, anchor) :: scope.names })

/- Keep the node of an anchor. -/
def define (scope : Scope) (anchor : Option Nat) (node : Node) : Scope :=
  match anchor with
  | none => scope
  | some anchor =>
      { scope with anchored := (anchor, node) :: scope.anchored }

/- The text of some bytes, if they are one. -/
def textOf (bytes : List UInt8) : Option String :=
  String.fromUTF8? ⟨bytes.toArray⟩

/- A tag in full. The handle must have a meaning. -/
def tagText? (scope : Scope) : Option TagParts → Option (Option String)
| none => some none
| some ("", suffix) => some (textOf suffix)
| some (handle, suffix) =>
    (scope.handles.lookup handle).map fun leading =>
      textOf (leading ++ suffix)

end Scope

------------------------------------------------------------
-- Properties
------------------------------------------------------------

/- The name of an anchor and a tag. -/
structure Properties where
  anchor : Option String := none
  tag : Option TagParts := none

/- Some property is given. -/
def Properties.isGiven (properties : Properties) : Bool :=
  properties.anchor.isSome || properties.tag.isSome

/- The properties before a node, in either order. -/
def properties : List Token → Properties × List Token
| .anchor name :: .tag handle suffix :: rest =>
    (⟨some name, some (handle, suffix)⟩, rest)
| .tag handle suffix :: .anchor name :: rest =>
    (⟨some name, some (handle, suffix)⟩, rest)
| .anchor name :: rest => (⟨some name, none⟩, rest)
| .tag handle suffix :: rest => (⟨none, some (handle, suffix)⟩, rest)
| rest => ({}, rest)

/- Properties take tokens from the front. -/
theorem length_properties_le (tokens : List Token) :
    (properties tokens).2.length ≤ tokens.length := by
  unfold properties
  split <;> simp <;> omega

------------------------------------------------------------
-- Places
------------------------------------------------------------

/- Where a node stands. -/
inductive Place where
| document
| blockItem
| plainItem
| blockPart
| flowItem
| flowKey
| flowValue
| pairKey
| pairValue
deriving DecidableEq, Repr

namespace Place

/- A block collection may stand here. -/
def admitsBlock : Place → Bool
| document | blockItem | plainItem | blockPart => true
| _ => false

/- A block sequence may stand here without more indentation. -/
def admitsPlainItems : Place → Bool
| blockPart => true
| _ => false

/- Before such a token nothing is written. -/
def isAbsentAt : Place → Token → Bool
| blockItem, .blockEntry | blockItem, .closeBlock => true
| plainItem, .blockEntry | plainItem, .key | plainItem, .value
| plainItem, .closeBlock => true
| blockPart, .key | blockPart, .value | blockPart, .closeBlock => true
| flowKey, .value | flowKey, .flowEntry
| flowKey, .closeFlowMapping => true
| flowValue, .flowEntry | flowValue, .closeFlowMapping => true
| pairKey, .value | pairKey, .flowEntry
| pairKey, .closeFlowSequence => true
| pairValue, .flowEntry | pairValue, .closeFlowSequence => true
| _, _ => false

end Place

------------------------------------------------------------
-- Nodes
------------------------------------------------------------

/- What a reader makes of some tokens, and the tokens left. -/
structure Reading (tokens : List Token) (α : Type) where
  value : α
  scope : Scope
  left : List Token
  length_le : left.length ≤ tokens.length

/- No more tokens and a lower rank come first. -/
theorem lex_of_le
    {a b m n : Nat}
    (hLength : a ≤ b)
    (hRank : m < n) :
    Prod.Lex (· < ·) (· < ·) (a, m) (b, n) := by
  rcases Nat.lt_or_eq_of_le hLength with h | h
  · exact Prod.Lex.left _ _ h
  · subst h
    exact Prod.Lex.right _ hRank

/- A scalar does not keep the tag that only says it has none. -/
def scalarTag (tag : Option String) : Option String :=
  tag.filter (· != "!")

/- A node without content, which needs some property. -/
def bare?
    (isGiven : Bool)
    (tag : Option String)
    (scope : Scope)
    (tokens : List Token) : Option (Reading tokens Node) :=
  if isGiven then
    some ⟨.scalar tag .plain "", scope, tokens, Nat.le_refl _⟩
  else
    none

mutual

/- The node of a place. -/
def node?
    (place : Place)
    (scope : Scope)
    (tokens : List Token) : Option (Reading tokens Node) :=
  match tokens with
  | .alias name :: rest =>
      (scope.names.lookup name).map fun anchor =>
        ⟨.alias anchor, scope, rest, by simp⟩
  | tokens => do
      let given := (properties tokens).1
      let tag ← scope.tagText? given.tag
      let (anchor, scope) := scope.declare given.anchor
      let ⟨node, scope, rest, h⟩ ←
        content? place given.isGiven tag scope (properties tokens).2
      return ⟨node, scope.define anchor node, rest,
        Nat.le_trans h (length_properties_le tokens)⟩
termination_by (tokens.length, 2)
decreasing_by
  exact lex_of_le (length_properties_le tokens) (by omega)

/- The node behind its properties. -/
def content?
    (place : Place)
    (isGiven : Bool)
    (tag : Option String)
    (scope : Scope)
    (tokens : List Token) : Option (Reading tokens Node) :=
  match tokens with
  | .scalar style text :: rest =>
      some ⟨.scalar (scalarTag tag) style text, scope, rest, by simp⟩
  | .openFlowSequence :: rest => do
      let ⟨items, scope, left, _⟩ ← flowItems? scope rest
      return ⟨.sequence tag items, scope, left, by simp; omega⟩
  | .openFlowMapping :: rest => do
      let ⟨entries, scope, left, _⟩ ← flowEntries? scope rest
      return ⟨.mapping tag entries, scope, left, by simp; omega⟩
  | .openBlockSequence :: rest =>
      if place.admitsBlock then do
        let ⟨items, scope, left, _⟩ ← blockItems? scope rest
        return ⟨.sequence tag items, scope, left, by simp; omega⟩
      else
        bare? isGiven tag scope _
  | .openBlockMapping :: rest =>
      if place.admitsBlock then do
        let ⟨entries, scope, left, _⟩ ← blockEntries? scope rest
        return ⟨.mapping tag entries, scope, left, by simp; omega⟩
      else
        bare? isGiven tag scope _
  | .blockEntry :: rest =>
      if place.admitsPlainItems then do
        let ⟨items, scope, left, h⟩ ←
          plainItems? scope (.blockEntry :: rest)
        return ⟨.sequence tag items, scope, left, h⟩
      else
        bare? isGiven tag scope _
  | tokens => bare? isGiven tag scope tokens
termination_by (tokens.length, 1)

/- The node of a place, or nothing written there. -/
def part?
    (place : Place)
    (scope : Scope)
    (tokens : List Token) : Option (Reading tokens Node) :=
  match tokens with
  | [] => none
  | token :: rest =>
      if place.isAbsentAt token then
        some ⟨.absent, scope, token :: rest, Nat.le_refl _⟩
      else
        node? place scope (token :: rest)
termination_by (tokens.length, 3)

/- The value behind a key, or nothing written there. -/
def value?
    (place : Place)
    (scope : Scope)
    (tokens : List Token) : Option (Reading tokens Node) :=
  match tokens with
  | .value :: rest => do
      let ⟨node, scope, left, _⟩ ← part? place scope rest
      return ⟨node, scope, left, by simp; omega⟩
  | tokens => some ⟨.absent, scope, tokens, Nat.le_refl _⟩
termination_by (tokens.length, 0)

/- The items of a block sequence. -/
def blockItems?
    (scope : Scope)
    (tokens : List Token) : Option (Reading tokens (List Node)) :=
  match tokens with
  | .closeBlock :: rest => some ⟨[], scope, rest, by simp⟩
  | .blockEntry :: rest => do
      let ⟨item, scope, left, _⟩ ← part? .blockItem scope rest
      let ⟨items, scope, left, _⟩ ← blockItems? scope left
      return ⟨item :: items, scope, left, by simp; omega⟩
  | _ => none
termination_by (tokens.length, 0)

/-
  The items of a block sequence that is not indented beyond its
  mapping. It ends before any token that starts no item.
-/
def plainItems?
    (scope : Scope)
    (tokens : List Token) : Option (Reading tokens (List Node)) :=
  match tokens with
  | .blockEntry :: rest => do
      let ⟨item, scope, left, _⟩ ← part? .plainItem scope rest
      let ⟨items, scope, left, _⟩ ← plainItems? scope left
      return ⟨item :: items, scope, left, by simp; omega⟩
  | tokens => some ⟨[], scope, tokens, Nat.le_refl _⟩
termination_by (tokens.length, 0)

/- The entries of a block mapping. -/
def blockEntries?
    (scope : Scope)
    (tokens : List Token) : Option (Reading tokens (List (Node × Node))) :=
  match tokens with
  | .closeBlock :: rest => some ⟨[], scope, rest, by simp⟩
  | .key :: rest => do
      let ⟨key, scope, left, _⟩ ← part? .blockPart scope rest
      let ⟨value, scope, left, _⟩ ← value? .blockPart scope left
      let ⟨entries, scope, left, _⟩ ← blockEntries? scope left
      return ⟨(key, value) :: entries, scope, left, by simp; omega⟩
  | _ => none
termination_by (tokens.length, 0)

/-
  A mapping of one entry inside a flow sequence. Where its key
  is left out, so is the token behind it.
-/
def pair?
    (scope : Scope)
    (tokens : List Token) : Option (Reading tokens Node) :=
  match tokens with
  | [] => none
  | token :: rest =>
      if Place.pairKey.isAbsentAt token then do
        let ⟨value, scope, left, _⟩ ← value? .pairValue scope rest
        return ⟨.mapping none [(.absent, value)], scope, left,
          by simp; omega⟩
      else do
        let ⟨key, scope, left, _⟩ ← node? .pairKey scope (token :: rest)
        let ⟨value, scope, left, _⟩ ← value? .pairValue scope left
        return ⟨.mapping none [(key, value)], scope, left, by omega⟩
termination_by (tokens.length, 3)
decreasing_by
  · exact Prod.Lex.left _ _ (by simp)
  · exact Prod.Lex.right _ (by omega)
  · exact lex_of_le (by assumption) (by omega)

/- An item of a flow sequence. -/
def flowItem?
    (scope : Scope)
    (tokens : List Token) : Option (Reading tokens Node) :=
  match tokens with
  | .key :: rest => do
      let ⟨item, scope, left, _⟩ ← pair? scope rest
      return ⟨item, scope, left, by simp; omega⟩
  | tokens => node? .flowItem scope tokens
termination_by (tokens.length, 3)

/- The items of a flow sequence. -/
def flowItems?
    (scope : Scope)
    (tokens : List Token) : Option (Reading tokens (List Node)) :=
  match tokens with
  | .closeFlowSequence :: rest => some ⟨[], scope, rest, by simp⟩
  | tokens => do
      let ⟨item, scope, left, h⟩ ← flowItem? scope tokens
      match left, h with
      | .closeFlowSequence :: left, h =>
          return ⟨[item], scope, left, by simp at h; omega⟩
      | .flowEntry :: left, h => do
          let ⟨items, scope, left, _⟩ ← flowItems? scope left
          return ⟨item :: items, scope, left, by simp at h; omega⟩
      | _, _ => none
termination_by (tokens.length, 4)

/- An entry of a flow mapping. -/
def flowEntry?
    (scope : Scope)
    (tokens : List Token) : Option (Reading tokens (Node × Node)) :=
  match tokens with
  | .key :: rest => do
      let ⟨key, scope, left, _⟩ ← part? .flowKey scope rest
      let ⟨value, scope, left, _⟩ ← value? .flowValue scope left
      return ⟨(key, value), scope, left, by simp; omega⟩
  | tokens => do
      let ⟨key, scope, left, h⟩ ← node? .flowItem scope tokens
      return ⟨(key, .absent), scope, left, h⟩
termination_by (tokens.length, 3)

/- The entries of a flow mapping. -/
def flowEntries?
    (scope : Scope)
    (tokens : List Token) : Option (Reading tokens (List (Node × Node))) :=
  match tokens with
  | .closeFlowMapping :: rest => some ⟨[], scope, rest, by simp⟩
  | tokens => do
      let ⟨entry, scope, left, h⟩ ← flowEntry? scope tokens
      match left, h with
      | .closeFlowMapping :: left, h =>
          return ⟨[entry], scope, left, by simp at h; omega⟩
      | .flowEntry :: left, h => do
          let ⟨entries, scope, left, _⟩ ← flowEntries? scope left
          return ⟨entry :: entries, scope, left, by simp at h; omega⟩
      | _, _ => none
termination_by (tokens.length, 4)

end

------------------------------------------------------------
-- Documents
------------------------------------------------------------

/- A supported version of the language. -/
def isSupported (major minor : Nat) : Bool :=
  major == 1 && (minor == 1 || minor == 2)

/-
  The directives before a document: the handles they give a
  meaning to, and whether a version is given. Nothing is given
  twice.
-/
def directives?
    (versioned : Bool)
    (handles : List (String × List UInt8)) :
    List Token → Option (List (String × List UInt8) × List Token)
| .version major minor :: rest =>
    if versioned || !isSupported major minor then
      none
    else
      directives? true handles rest
| .tagDirective handle leading :: rest =>
    if (handles.lookup handle).isSome then
      none
    else
      directives? versioned ((handle, leading) :: handles) rest
| rest => some (handles, rest)

/- A token that a document starts with. -/
def startsDocument : Token → Bool
| .version .. | .tagDirective .. | .documentStart => true
| _ => false

/- A token that stands outside of documents. -/
def isOutside (token : Token) : Bool :=
  startsDocument token || token == .documentEnd

/- The document whose node is next, and the tokens left. -/
def document?
    (handles : List (String × List UInt8))
    (tokens : List Token) : Option (Document × List Token) :=
  (node? .document ⟨handles ++ Scope.defaultHandles, [], []⟩ tokens).map
    fun reading =>
      (⟨some reading.value, reading.scope.anchored⟩, reading.left)

/- The document behind the mark of its start, and the tokens left. -/
def marked?
    (handles : List (String × List UInt8))
    (tokens : List Token) : Option (Document × List Token) :=
  if (tokens.head?.map isOutside).getD true then
    some (⟨some .absent, []⟩, tokens)
  else
    document? handles tokens

namespace Document

/- The first document, and the tokens left. -/
def first? (tokens : List Token) : Option (Document × List Token) :=
  match tokens with
  | [] => some (⟨none, []⟩, [])
  | token :: _ =>
      if startsDocument token then
        match directives? false [] tokens with
        | some (handles, .documentStart :: rest) => marked? handles rest
        | _ => none
      else
        document? [] tokens

/- The only document. Marks of its end may follow. -/
def ofTokens? (tokens : List Token) : Option Document :=
  (first? tokens).bind fun (document, rest) =>
    if rest.all (· == .documentEnd) then some document else none

/- The document that a text holds. -/
def parse? (text : String) : Option Document :=
  (tokens? text).bind ofTokens?

end Document

end CoreTally.Yaml
