import HostLookup.Bytes.Hex
import HostLookup.Yaml.Cursor

/-!
# Scalar texts

A scalar is written plain, between quotes, or as a block. Line breaks inside a
plain or quoted one are folded: a single break reads as a space, of several the
first is dropped. A literal block keeps its breaks and a folded one folds those
between lines that start without a blank.
-/

namespace HostLookup.Yaml

inductive Style where
  | plain
  | singleQuoted
  | doubleQuoted
  | literal
  | folded
  deriving DecidableEq, Repr

def singleQuote : Char := Char.ofNat 39

/-! ## Gaps -/

/-- Blanks and line breaks between two runs of text. -/
structure Gap where
  blanks : List Char := []
  first : List Char := []
  /-- The line breaks after the first, the last one in front. -/
  later : List Char := []
  broken : Bool := false

namespace Gap

def text (g : Gap) : List Char :=
  if !g.broken then g.blanks
  else if g.first == ['\n'] then (if g.later.isEmpty then [' '] else g.later.reverse)
  else g.first ++ g.later.reverse

/--
Extends a gap as far as it goes. After a line break no tab may stand before the
column `tabLimit`.
-/
def extend (tabLimit : Nat) : Nat → Gap → Cursor → Option (Gap × Cursor)
  | 0, g, c => some (g, c)
  | fuel + 1, g, c =>
    let (blanks, after) := c.takeWhile isBlank
    if g.broken && (blanks.take (tabLimit - c.column)).contains '\t' then none
    else if after.peek.any isBreak then
      let (text, next) := after.takeBreak
      if g.broken then extend tabLimit fuel { g with later := text ++ g.later } next
      else extend tabLimit fuel { first := text, broken := true } next
    else some (if g.broken then g else { g with blanks := g.blanks ++ blanks }, after)

end Gap

/-! ## Plain scalars -/

def isFlowIndicator (c : Char) : Bool := ",[]\x7b\x7d".toList.contains c

def isFlowColonStop (c : Char) : Bool := c == '?' || isFlowIndicator c

/-- The length of a run of plain text after `n` characters; `none` where a colon stands wrong. -/
def plainLength (flow : Bool) (n : Nat) : List Char → Option Nat
  | [] => some n
  | c :: rest =>
    if isBlank c || isBreak c then some n
    else if flow && c == ':' && rest.head?.any isFlowColonStop then none
    else if c == ':' && startsWithGapOrEnd rest then some n
    else if flow && isFlowIndicator c then some n
    else plainLength flow (n + 1) rest

structure PlainText where
  text : List Char
  broken : Bool
  cursor : Cursor

/-- Reads on after what is read of a plain scalar, its last character in front, and a gap. -/
def plainFrom (flow : Bool) (indent : Nat) : Nat → List Char → Gap → Cursor → Option PlainText
  | 0, _, _, _ => none
  | fuel + 1, text, gap, c =>
    if c.atDocumentMark || c.startsWith '#' then some ⟨text.reverse, gap.broken, c⟩
    else do
      let n ← plainLength flow 0 c.rest
      let text := if n = 0 then text else (c.rest.take n).reverse ++ (gap.text.reverse ++ text)
      let broken := n == 0 && gap.broken
      let c := c.advance n
      if !startsWithGap c.rest then return ⟨text.reverse, broken, c⟩
      let (gap, c) ← Gap.extend indent (c.left + 1) {} c
      if !flow && c.column < indent then return ⟨text.reverse, gap.broken, c⟩
      plainFrom flow indent fuel text gap c

/-- A plain scalar; its later lines stand at column `indent` or right of it. -/
def plain? (flow : Bool) (indent : Nat) (c : Cursor) : Option PlainText :=
  plainFrom flow indent (c.left + 1) [] {} c

/-! ## Quoted scalars -/

def escaped? (c : Char) : Option Char :=
  match c with
  | '0' => some (Char.ofNat 0)
  | 'a' => some (Char.ofNat 7)
  | 'b' => some (Char.ofNat 8)
  | 't' | '\t' => some '\t'
  | 'n' => some '\n'
  | 'v' => some (Char.ofNat 11)
  | 'f' => some (Char.ofNat 12)
  | 'r' => some '\r'
  | 'e' => some (Char.ofNat 27)
  | ' ' => some ' '
  | '"' => some '"'
  | '/' => some '/'
  | '\\' => some '\\'
  | 'N' => some '\u0085'
  | '_' => some '\u00A0'
  | 'L' => some '\u2028'
  | 'P' => some '\u2029'
  | _ => none

inductive QuotedStop where
  | quote
  | gap
  | escapedBreak
  deriving DecidableEq, Repr

/-- A run of quoted text without gaps, last character first. -/
def quotedRun (single : Bool) :
    Nat → List Char → Cursor → Option (List Char × QuotedStop × Cursor)
  | 0, _, _ => none
  | fuel + 1, text, c =>
    match c.rest with
    | [] => some (text, .gap, c)
    | x :: rest =>
      if isBlank x || isBreak x then some (text, .gap, c)
      else if single then
        if x == singleQuote then
          if rest.head? == some singleQuote then
            quotedRun single fuel (singleQuote :: text) (c.advance 2)
          else some (text, .quote, c)
        else quotedRun single fuel (x :: text) (c.advance 1)
      else if x == '"' then some (text, .quote, c)
      else if x == '\\' then
        match rest with
        | [] => none
        | y :: digits =>
          if isBreak y then some (text, .escapedBreak, (c.advance 1).takeBreak.2)
          else
            match escaped? y with
            | some z => quotedRun single fuel (z :: text) (c.advance 2)
            | none => do
              let n ← Bytes.Hex.codeLength? y
              let digits := digits.take n
              if digits.length < n then none
              else
                let z ← Bytes.Hex.charOfCode? digits
                quotedRun single fuel (z :: text) (c.advance (2 + n))
      else quotedRun single fuel (x :: text) (c.advance 1)

/-- Reads on after what is read of a quoted scalar, its last character in front. -/
def quotedFrom (single : Bool) : Nat → List Char → Cursor → Option (List Char × Cursor)
  | 0, _, _ => none
  | fuel + 1, text, c =>
    if c.atDocumentMark || c.rest.isEmpty then none
    else do
      let (text, stop, c) ← quotedRun single (c.left + 1) text c
      if stop == .quote then return (text.reverse, c.advance 1)
      let (gap, c) ← Gap.extend 0 (c.left + 1) { broken := stop == .escapedBreak } c
      quotedFrom single fuel (gap.text.reverse ++ text) c

def quoted? (single : Bool) (c : Cursor) : Option (List Char × Cursor) :=
  quotedFrom single (c.left + 1) [] (c.advance 1)

/-! ## Block scalars -/

/-- What happens to the line breaks at the end of a block. -/
inductive Chomping where
  | strip
  | clip
  | keep
  deriving DecidableEq, Repr

def chomping? (c : Cursor) : Option Chomping :=
  match c.peek with
  | some '+' => some .keep
  | some '-' => some .strip
  | _ => none

/-- A digit of a block header; zero is refused. -/
def indentDigit? (c : Cursor) : Option (Option Nat) :=
  match c.peek with
  | some x =>
    if x.isDigit then (if x == '0' then none else some (some (x.toNat - 48))) else some none
  | none => some none

/-- The two indicators of a block header, in either order. -/
def blockHeader? (c : Cursor) : Option (Chomping × Option Nat × Cursor) :=
  match chomping? c with
  | some chomping => do
    let c := c.advance 1
    match ← indentDigit? c with
    | some n => some (chomping, some n, c.advance 1)
    | none => some (chomping, none, c)
  | none => do
    match ← indentDigit? c with
    | some n =>
      let c := c.advance 1
      match chomping? c with
      | some chomping => some (chomping, some n, c.advance 1)
      | none => some (.clip, some n, c)
    | none => some (.clip, none, c)

/-- Passes indentation and empty lines; gives the widest indentation, and the breaks backwards. -/
def blockBreaks (indent : Option Nat) :
    Nat → Nat → List Char → Cursor → Option (Nat × List Char × Cursor)
  | 0, _, _, _ => none
  | fuel + 1, widest, breaks, c =>
    let within (column : Nat) : Bool :=
      match indent with
      | some n => column < n
      | none => true
    let spaces := (c.rest.takeWhile (· == ' ')).length
    let c := c.advance (match indent with | some n => min spaces (n - c.column) | none => spaces)
    let widest := max widest c.column
    if within c.column && c.startsWith '\t' then none
    else
      match c.peek with
      | some x =>
        if isBreak x then
          let (text, c) := c.takeBreak
          blockBreaks indent fuel widest (text ++ breaks) c
        else some (widest, breaks, c)
      | none => some (widest, breaks, c)

structure BlockText where
  /-- Its text, the last character in front. -/
  text : List Char := []
  lastBreak : List Char := []
  blankStart : Bool := false

def blockLines (literal : Bool) (indent : Nat) :
    Nat → BlockText → List Char → Cursor → Option (BlockText × List Char × Cursor)
  | 0, _, _, _ => none
  | fuel + 1, block, breaks, c =>
    if c.column != indent || c.rest.isEmpty then some (block, breaks, c)
    else do
      let blank := c.peek.any isBlank
      let between :=
        if !literal && block.lastBreak == ['\n'] && !block.blankStart && !blank then
          if breaks.isEmpty then [' '] else breaks
        else breaks ++ block.lastBreak
      let (line, c) := c.takeWhile fun x => !isBreak x
      let (lastBreak, c) := c.takeBreak
      let text := line.reverse ++ (between ++ block.text)
      let (_, breaks, c) ← blockBreaks (some indent) (c.left + 1) 0 [] c
      blockLines literal indent fuel { text, lastBreak, blankStart := blank } breaks c

/-- A block scalar in a collection indented by `parent`; the cursor is at its indicator. -/
def block? (literal : Bool) (parent : Int) (c : Cursor) : Option (List Char × Cursor) := do
  let (chomping, digit, c) ← blockHeader? (c.advance 1)
  let c := c.skipWhile isBlank
  let c := if c.startsWith '#' then c.skipWhile fun x => !isBreak x else c
  if !startsWithGapOrEnd c.rest then none
  else
    let (_, c) := c.takeBreak
    let fixed := digit.map fun n => (if 0 ≤ parent then parent.toNat else 0) + n
    let (widest, breaks, c) ← blockBreaks fixed (c.left + 1) 0 [] c
    let indent := fixed.getD (max (max widest (parent + 1).toNat) 1)
    let (block, breaks, c) ← blockLines literal indent (c.left + 1) {} breaks c
    let ending :=
      match chomping with
      | .strip => []
      | .clip => block.lastBreak
      | .keep => breaks ++ block.lastBreak
    some ((ending ++ block.text).reverse, c)

end HostLookup.Yaml
