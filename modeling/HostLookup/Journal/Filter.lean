import HostLookup.Bytes.Decimal
import HostLookup.Bytes.Space
import HostLookup.Config
import HostLookup.Journal.Event
import HostLookup.Journal.Pattern

/-!
# Journal filters

A filter is directives, each a threshold for the events of some target that have
some field. An event passes when the most specific of the directives that apply
lets its level through; where none applies it does not pass. `Filter.ofText`
reads directives between commas: a level, a target, or a target with a level,
with a span or a field in brackets behind the target.
-/

namespace HostLookup.Journal

open Bytes

/-- The least level that passes; `none` stops everything. -/
abbrev Threshold := Option Level

namespace Threshold

def byNumber : List Threshold :=
  [none, some .error, some .warn, some .info, some .debug, some .trace]

def ofText? (s : Bytes) : Option Threshold :=
  let digits := if s.head? = some 43 then s.drop 1 else s
  match (natBelow? 10 6 digits).bind fun n => byNumber[n]? with
  | some t => some t
  | none =>
    let name := s.map lowerCase
    if name = ascii "off" then some none else (Level.ofName? name).map some

def admits (t : Threshold) (level : Level) : Bool :=
  match t with
  | some least => least.rank ≤ level.rank
  | none => false

end Threshold

/-! ## Directives -/

/-- A threshold for events whose target starts with `target`. -/
structure Directive where
  target : Bytes
  threshold : Threshold
  /-- A field that the events have. -/
  field : Option Bytes := none
  /-- Whether it is about spans; no event is then meant. -/
  forSpans : Bool := false
  deriving DecidableEq, Repr

namespace Directive

def appliesTo (d : Directive) (e : Event) : Bool :=
  !d.forSpans && d.target.isPrefixOf (ascii e.target) && d.field.all (e.fields.map ascii).contains

/--
Whether a directive decides rather than an earlier one, both of which apply: it
has the longer target, or the same one and a field where the other has none or
one that comes before.
-/
def outranks (d earlier : Directive) : Bool :=
  if d.target.length ≠ earlier.target.length then earlier.target.length < d.target.length
  else
    match d.field, earlier.field with
    | some field, some other => !decide (field < other)
    | none, some _ => false
    | _, none => true

end Directive

/-! ## Reading a directive -/

inductive DirectiveFault where
  | malformed
  /-- A part of it would start or end within a character. -/
  | brokenCharacter
  deriving DecidableEq, Repr

def equalsSign : UInt8 := 61

def openBracket : UInt8 := 91

def closeBracket : UInt8 := 93

def openBrace : UInt8 := 123

def closeBrace : UInt8 := 125

/--
The text of a directive. Its marks have their places in the text without the
space around it, and its parts are cut out of the whole at these places.
-/
structure DirectiveText where
  whole : Bytes
  bare : Bytes

structure FieldText where
  name : Bytes
  valued : Bool
  deriving DecidableEq, Repr

namespace FieldText

def ofText (s : Bytes) : Except DirectiveFault FieldText :=
  if s.isEmpty then .error .malformed
  else
    match splitOn equalsSign s with
    | name :: value :: _ =>
      if (Utf8.decode? value).any isPattern then .ok ⟨name, true⟩ else .error .malformed
    | _ => .ok ⟨s, false⟩

end FieldText

namespace DirectiveText

def ofText (s : List Char) : DirectiveText := ⟨Utf8.encode s, Utf8.encode (withoutSpace s)⟩

/-- Whether no character goes across this place of the whole text. -/
def isBoundary (t : DirectiveText) (i : Nat) : Bool :=
  match t.whole[i]? with
  | some b => !Utf8.isTail b
  | none => true

def cut (t : DirectiveText) (start stop : Nat) : Except DirectiveFault Bytes :=
  if t.isBoundary start && t.isBoundary stop then .ok ((t.whole.take stop).drop start)
  else .error .brokenCharacter

def find (t : DirectiveText) (start : Nat) (isMark : UInt8 → Bool) : Except DirectiveFault Nat :=
  match (t.bare.drop start).findIdx? isMark with
  | some n => .ok (start + n)
  | none => .error .malformed

/-- The level that starts at a place; a missing one is the lowest. -/
def thresholdFrom (t : DirectiveText) (start : Nat) : Except DirectiveFault Threshold := do
  let level ← t.cut start t.whole.length
  if level.isEmpty then return some .trace
  match Threshold.ofText? level with
  | some threshold => return threshold
  | none => throw .malformed

/-- The level after brackets that end before a place. -/
def thresholdAfter (t : DirectiveText) (place : Nat) : Except DirectiveFault Threshold :=
  match t.bare[place]? with
  | none => .ok (some .trace)
  | some b => if b = equalsSign then t.thresholdFrom (place + 1) else .error .malformed

def spanFrom (t : DirectiveText) (target : Bytes) (start : Nat) :
    Except DirectiveFault Directive := do
  let stop ← t.find start fun b => b == closeBracket || b == openBrace
  let span ← t.cut start stop
  if t.bare[stop]? = some closeBracket then
    return { target, threshold := ← t.thresholdAfter (stop + 1), forSpans := true }
  let brace ← t.find (stop + 1) (· == closeBrace)
  let field ← FieldText.ofText (← t.cut (stop + 1) brace)
  if t.bare[brace + 1]? ≠ some closeBracket then throw .malformed
  let threshold ← t.thresholdAfter (brace + 2)
  return { target, threshold, field := field.name, forSpans := !span.isEmpty || field.valued }

end DirectiveText

namespace Directive

def startsTarget (c : Char) : Bool := "-:_".toList.contains c || isAlphanumeric c

/-- A level, or a target with a level after an equals sign; a target alone lets everything pass. -/
def ofText (s : List Char) : Except DirectiveFault Directive := do
  let t := DirectiveText.ofText s
  match (withoutSpace s).head? with
  | none => throw .malformed
  | some '[' => t.spanFrom [] 1
  | some first =>
    if !startsTarget first then throw .malformed
    match t.bare.findIdx? fun b => b == equalsSign || b == openBracket with
    | none =>
      match Threshold.ofText? t.whole with
      | some threshold => return { target := [], threshold }
      | none => return { target := t.whole, threshold := some .trace }
    | some n =>
      let target ← t.cut 0 n
      if t.bare[n]? = some openBracket then t.spanFrom target (n + 1)
      else return { target, threshold := ← t.thresholdFrom (n + 1) }

end Directive

/-! ## Filters -/

abbrev Filter := List Directive

namespace Filter

def comma : UInt8 := 44

/-- The directives between commas; empty ones do not count, and none at all is `error`. -/
def ofText (s : Bytes) : Except DirectiveFault Filter :=
  match (splitOn comma s).filter (!·.isEmpty) with
  | [] => .ok [{ target := [], threshold := some .error }]
  | pieces =>
    pieces.mapM fun piece =>
      match Utf8.decode? piece with
      | some text => Directive.ofText text
      | none => .error .malformed

/-- The directive that decides on an event. -/
def deciding? (f : Filter) (e : Event) : Option Directive :=
  let applying := f.filter (·.appliesTo e)
  applying.foldl (fun best d =>
    match best with
    | some b => if d.outranks b then some d else some b
    | none => some d) none

def admits (f : Filter) (e : Event) : Bool :=
  match f.deciding? e with
  | some d => d.threshold.admits e.level
  | none => false

end Filter

/-- Libraries that may only warn. -/
def quietLibraries : List String := ["notify", "mio"]

def filterText (level : Level) (verboseLibraries : Bool) : Bytes :=
  ascii level.name ++
    if verboseLibraries then []
    else quietLibraries.flatMap fun name => ascii "," ++ ascii name ++ ascii "=warn"

end HostLookup.Journal
