import HostLookup.Bytes
import HostLookup.Yaml.Scalar

/-!
# YAML tokens

Tokens are the marks of a YAML text in order, with the starts and ends of blocks
that indentation implies. A mark that may turn out to be a key is remembered
until a colon confirms it, one line ends or 1024 bytes go by; the key mark
is then put in front of it.
-/

namespace HostLookup.Yaml

inductive Token where
  | version (major minor : Nat)
  | tagHandle (handle start : Bytes)
  | documentStart
  | documentEnd
  | blockSequenceStart
  | blockMappingStart
  | blockEnd
  | flowSequenceStart
  | flowSequenceEnd
  | flowMappingStart
  | flowMappingEnd
  | blockEntry
  | flowEntry
  | key
  | value
  | alias (name : List Char)
  | anchor (name : List Char)
  | tag (handle suffix : Bytes)
  | scalar (style : Style) (text : List Char)
  deriving DecidableEq, Repr

def asciiBytes (cs : List Char) : Bytes := cs.map fun c => c.toNat.toUInt8

/-! ## Anchors and tags -/

def endsAnchor (cs : List Char) : Bool :=
  startsWithGapOrEnd cs ||
    match cs with
    | c :: _ => "?:,]\x7d%@".toList.contains c || c.toNat == 96
    | [] => true

def anchorName? (c : Cursor) : Option (List Char × Cursor) :=
  let (name, c) := (c.advance 1).takeWhile isWordChar
  if name.isEmpty || !endsAnchor c.rest then none else some (name, c)

/-- Characters of a tag; inside `<` and `>` three more are. -/
def isTagChar (verbatim : Bool) (c : Char) : Bool :=
  isWordChar c || ";/?:@&=+$.!~*()%".toList.contains c || c == singleQuote ||
    (verbatim && ",[]".toList.contains c)

def percentOctet? : List Char → Option UInt8
  | '%' :: a :: b :: _ =>
    (Bytes.natBelow? 16 256 (Bytes.ofChars [a, b])).map (·.toUInt8)
  | _ => none

def percentOctets? (c : Cursor) : Option (Bytes × Cursor) := do
  let first ← percentOctet? c.rest
  let width ←
    if first < 0x80 then some 1
    else if first < 0xC0 then none
    else if first < 0xE0 then some 2
    else if first < 0xF0 then some 3
    else if first < 0xF8 then some 4
    else none
  let later ← ((List.range width).drop 1).mapM fun i => do
    let b ← percentOctet? (c.rest.drop (3 * i))
    if 0x80 ≤ b && b < 0xC0 then some b else none
  return (first :: later, c.advance (3 * width))

def tagChars (verbatim : Bool) : Nat → Bytes → Cursor → Option (Bytes × Cursor)
  | 0, text, c => some (text.reverse, c)
  | fuel + 1, text, c =>
    match c.peek with
    | none => some (text.reverse, c)
    | some x =>
      if !isTagChar verbatim x then some (text.reverse, c)
      else if x == '%' then do
        let (octets, c) ← percentOctets? c
        tagChars verbatim fuel (octets.reverse ++ text) c
      else tagChars verbatim fuel (asciiBytes [x] ++ text) (c.advance 1)

/-- What stands before the first zero byte; a tag ends there. -/
def beforeZero (text : Bytes) : Bytes := text.takeWhile (· != 0)

def tagUri? (verbatim : Bool) (read : Bytes) (c : Cursor) : Option (Bytes × Cursor) := do
  let (text, after) ← tagChars verbatim (c.left + 1) (read.drop 1).reverse c
  if read.isEmpty && text.isEmpty then none else some (beforeZero text, after)

/-- `!`, a word and `!`, or as much of it as is there. -/
def handle? (c : Cursor) : Option (Bytes × Cursor) :=
  if !c.startsWith '!' then none
  else
    let (word, c) := (c.advance 1).takeWhile isWordChar
    let read := asciiBytes ('!' :: word)
    if c.startsWith '!' then some (read ++ ascii "!", c.advance 1) else some (read, c)

def tag? (flow : Bool) (c : Cursor) : Option (Token × Cursor) := do
  let (token, c) ←
    match c.rest with
    | '!' :: '<' :: _ => do
      let (text, c) ← tagUri? true [] (c.advance 2)
      if !c.startsWith '>' then none
      else some (Token.tag [] text, c.advance 1)
    | _ => do
      let (handle, c) ← handle? c
      if 1 < handle.length && handle.getLast? == some 33 then
        let (suffix, c) ← tagUri? false [] c
        some (Token.tag handle suffix, c)
      else
        let (suffix, c) ← tagUri? false handle c
        if suffix.isEmpty then some (Token.tag [] (ascii "!"), c)
        else some (Token.tag (ascii "!") suffix, c)
  if startsWithGapOrEnd c.rest || (flow && c.startsWith ',') then some (token, c) else none

/-! ## Directives -/

/-- A number of at most nine digits. -/
def versionNumber? (c : Cursor) : Option (Nat × Cursor) :=
  let (digits, c) := c.takeWhile Char.isDigit
  if digits.isEmpty || 9 < digits.length then none
  else some (digits.foldl (fun n d => 10 * n + (d.toNat - 48)) 0, c)

def version? (c : Cursor) : Option (Token × Cursor) := do
  let (major, c) ← versionNumber? (c.skipWhile isBlank)
  if !c.startsWith '.' then none
  else
    let (minor, c) ← versionNumber? (c.advance 1)
    return (.version major minor, c)

def tagHandle? (c : Cursor) : Option (Token × Cursor) := do
  let (handle, c) ← handle? (c.skipWhile isBlank)
  if 1 < handle.length && handle.getLast? != some 33 then none
  else if !c.peek.any isBlank then none
  else
    let (start, c) ← tagUri? true [] (c.skipWhile isBlank)
    if startsWithGapOrEnd c.rest then return (.tagHandle handle start, c) else none

def directive? (c : Cursor) : Option (Token × Cursor) := do
  let (name, c) := (c.advance 1).takeWhile isWordChar
  if name.isEmpty || !startsWithGapOrEnd c.rest then none
  else
    let (token, c) ←
      if name == "YAML".toList then version? c
      else if name == "TAG".toList then tagHandle? c
      else none
    let c := c.skipWhile isBlank
    let c := if c.startsWith '#' then c.skipWhile fun x => !isBreak x else c
    if startsWithGapOrEnd c.rest then some (token, c.takeBreak.2) else none

/-! ## Keys and indentation -/

/-- A mark that may be the start of a key. -/
structure KeyPlace where
  required : Bool
  /-- The number of tokens before it. -/
  token : Nat
  cursor : Cursor

structure Lexer where
  cursor : Cursor
  tokens : Array Token := #[]
  /-- The column of the innermost block, and of those around it. -/
  indent : Int := -1
  outer : List Int := []
  blockKey : Option KeyPlace := none
  flowKeys : List (Option KeyPlace) := []
  keyAllowed : Bool := true

namespace Lexer

def inFlow (s : Lexer) : Bool := !s.flowKeys.isEmpty

def push (s : Lexer) (t : Token) : Lexer := { s with tokens := s.tokens.push t }

/-- Ends the blocks that stand right of `column`. -/
def unroll (column : Int) (s : Lexer) : Lexer :=
  if s.inFlow then s
  else
    let rec go : Int → List Int → Array Token → Int × List Int × Array Token
      | indent, [], tokens => (indent, [], tokens)
      | indent, next :: outer, tokens =>
        if column < indent then go next outer (tokens.push .blockEnd)
        else (indent, next :: outer, tokens)
    let (indent, outer, tokens) := go s.indent s.outer s.tokens
    { s with indent, outer, tokens }

/-- Starts a block at `column` if that is right of the innermost one; its mark goes to `place`. -/
def roll (column : Nat) (place : Nat) (t : Token) (s : Lexer) : Lexer :=
  if s.inFlow || (column : Int) ≤ s.indent then s
  else
    { s with
      outer := s.indent :: s.outer
      indent := column
      tokens := s.tokens.insertIdxIfInBounds place t }

def key? (s : Lexer) : Option KeyPlace :=
  match s.flowKeys with
  | k :: _ => k
  | [] => s.blockKey

def setKey (k : Option KeyPlace) (s : Lexer) : Lexer :=
  match s.flowKeys with
  | _ :: outer => { s with flowKeys := k :: outer }
  | [] => { s with blockKey := k }

/-- Gives up the possible key of the innermost collection; a required one is missed. -/
def dropKey (s : Lexer) : Option Lexer :=
  if s.key?.any (·.required) then none else some (s.setKey none)

def saveKey (s : Lexer) : Option Lexer :=
  if s.keyAllowed then do
    let s ← s.dropKey
    let k : KeyPlace :=
      { required := !s.inFlow && s.indent == s.cursor.column
        token := s.tokens.size
        cursor := s.cursor }
    return s.setKey (some k)
  else some s

def isStale (c : Cursor) (k : KeyPlace) : Bool :=
  k.cursor.line < c.line || k.cursor.index + 1024 < c.index

/-- Gives up the possible key of the block if it is too far back; a required one is missed then. -/
def dropStaleKey (s : Lexer) : Option Lexer :=
  match s.blockKey.filter (isStale s.cursor) with
  | none => some s
  | some k => if k.required then none else some { s with blockKey := none }

/-! ## Fetching tokens -/

def skipGap (flow : Bool) : Nat → Bool → Cursor → Bool × Cursor
  | 0, keyAllowed, c => (keyAllowed, c)
  | fuel + 1, keyAllowed, c =>
    let c := if c.column == 0 && c.startsWith byteOrderMark then c.advance 1 else c
    let c := c.skipWhile fun x => x == ' ' || ((flow || !keyAllowed) && x == '\t')
    let c := if c.startsWith '#' then c.skipWhile fun x => !isBreak x else c
    if c.peek.any isBreak then skipGap flow fuel (keyAllowed || !flow) c.takeBreak.2
    else (keyAllowed, c)

/-- Passes a mark of `n` characters. -/
def pushMark (t : Token) (n : Nat) (s : Lexer) : Lexer :=
  { s.push t with cursor := s.cursor.advance n }

/-- A mark before which all blocks end. -/
def topLevel (s : Lexer) : Option Lexer := do
  let s ← (s.unroll (-1)).dropKey
  return { s with keyAllowed := false }

def flowStart (t : Token) (s : Lexer) : Option Lexer := do
  let s ← s.saveKey
  return { s with flowKeys := none :: s.flowKeys, keyAllowed := true }.pushMark t 1

def flowEnd (t : Token) (s : Lexer) : Option Lexer := do
  let s ← s.dropKey
  return { s with flowKeys := s.flowKeys.drop 1, keyAllowed := false }.pushMark t 1

def flowEntry (s : Lexer) : Option Lexer := do
  let s ← s.dropKey
  return { s with keyAllowed := true }.pushMark .flowEntry 1

/-- A mark that opens a block where it stands; in a block a key must be allowed there. -/
def openBlock (t : Token) (s : Lexer) : Option Lexer :=
  if s.inFlow then some s
  else if s.keyAllowed then some (s.roll s.cursor.column s.tokens.size t)
  else none

def blockEntry (s : Lexer) : Option Lexer := do
  let s ← (← s.openBlock .blockSequenceStart).dropKey
  return { s with keyAllowed := true }.pushMark .blockEntry 1

def explicitKey (s : Lexer) : Option Lexer := do
  let s ← (← s.openBlock .blockMappingStart).dropKey
  return { s with keyAllowed := !s.inFlow }.pushMark .key 1

/-- A colon: it confirms a possible key, or follows an explicit one. -/
def value (s : Lexer) : Option Lexer :=
  match s.key?.filter (!isStale s.cursor ·) with
  | some k =>
    let s := { s with tokens := s.tokens.insertIdxIfInBounds k.token .key }
    let s := s.roll k.cursor.column k.token .blockMappingStart
    some ({ s.setKey none with keyAllowed := false }.pushMark .value 1)
  | none => do
    let s ← s.openBlock .blockMappingStart
    return { s with keyAllowed := !s.inFlow }.pushMark .value 1

/-- A token that may be a key or stand before one. -/
def keyed (read : Cursor → Option (Token × Cursor)) (s : Lexer) : Option Lexer := do
  let s ← s.saveKey
  let (t, cursor) ← read s.cursor
  return { s.push t with cursor, keyAllowed := false }

def blockScalar (literal : Bool) (s : Lexer) : Option Lexer := do
  let s ← s.dropKey
  let (text, cursor) ← block? literal s.indent s.cursor
  let style : Style := if literal then .literal else .folded
  return { s.push (.scalar style text) with cursor, keyAllowed := true }

def quotedScalar (single : Bool) (s : Lexer) : Option Lexer :=
  s.keyed fun c => do
    let (text, c) ← quoted? single c
    return (.scalar (if single then .singleQuoted else .doubleQuoted) text, c)

def plainScalar (s : Lexer) : Option Lexer := do
  let s ← s.saveKey
  let p ← plain? s.inFlow (s.indent + 1).toNat s.cursor
  return { s.push (.scalar .plain p.text) with cursor := p.cursor, keyAllowed := p.broken }

/-- Characters that start no plain scalar, or only before some others. -/
def isIndicator (c : Char) : Bool :=
  "-?:,[]\x7b\x7d#&*!|>\"%@".toList.contains c || c == singleQuote || c.toNat == 96

/-- Whether a plain scalar may start with this text. -/
def startsPlain (flow : Bool) : List Char → Bool
  | [] => false
  | c :: rest =>
    !(isBlank c || isBreak c || isIndicator c) ||
      (c == '-' && !rest.head?.any isBlank) ||
      (!flow && (c == '?' || c == ':') && !startsWithGapOrEnd rest)

def fetch (s : Lexer) (x : Char) (rest : List Char) : Option Lexer :=
  let separate := startsWithGapOrEnd rest
  if s.cursor.column == 0 && x == '%' then do
    let s ← s.topLevel
    let (t, cursor) ← directive? s.cursor
    return { s.push t with cursor }
  else if s.cursor.atDocumentMark then do
    let s ← s.topLevel
    return s.pushMark (if x == '-' then .documentStart else .documentEnd) 3
  else if x == '[' then s.flowStart .flowSequenceStart
  else if x == '\x7b' then s.flowStart .flowMappingStart
  else if x == ']' then s.flowEnd .flowSequenceEnd
  else if x == '\x7d' then s.flowEnd .flowMappingEnd
  else if x == ',' then s.flowEntry
  else if x == '-' && separate then s.blockEntry
  else if x == '?' && (s.inFlow || separate) then s.explicitKey
  else if x == ':' && (s.inFlow || separate) then s.value
  else if x == '*' then s.keyed fun c => (anchorName? c).map fun (name, c) => (.alias name, c)
  else if x == '&' then s.keyed fun c => (anchorName? c).map fun (name, c) => (.anchor name, c)
  else if x == '!' then s.keyed (tag? s.inFlow)
  else if x == '|' && !s.inFlow then s.blockScalar true
  else if x == '>' && !s.inFlow then s.blockScalar false
  else if x == singleQuote then s.quotedScalar true
  else if x == '"' then s.quotedScalar false
  else if startsPlain s.inFlow (x :: rest) then s.plainScalar
  else none

def readAll : Nat → Lexer → Option (List Token)
  | 0, _ => none
  | fuel + 1, s => do
    let (keyAllowed, cursor) := skipGap s.inFlow (s.cursor.left + 1) s.keyAllowed s.cursor
    let s ← { s with keyAllowed, cursor }.dropStaleKey
    let s := s.unroll s.cursor.column
    match s.cursor.rest with
    | [] => do
      let s ← s.topLevel
      return s.tokens.toList
    | x :: rest => readAll fuel (← s.fetch x rest)

end Lexer

def Token.listOfText? (text : List Char) : Option (List Token) :=
  if text.all isPrintable then Lexer.readAll (text.length + 1) { cursor := { rest := text } }
  else none

end HostLookup.Yaml
