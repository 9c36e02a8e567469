import HostLookup.Bytes.Alphanumeric
import HostLookup.Bytes.Hex

/-!
# Value patterns

A directive may ask for a field with a certain value: a number, or text that a
regular expression matches. `isPattern` tells which texts are one of these. The
regular expressions have no classes by property, no word boundaries and no
folding of case.
-/

namespace HostLookup.Journal

open Bytes

/-! ## Numbers -/

/-- Digits with at most one point among them, and an exponent. -/
def isDecimalNumber (cs : List Char) : Bool :=
  let whole := cs.takeWhile Char.isDigit
  let cs := cs.drop whole.length
  let cs := if cs.head? == some '.' then cs.drop 1 else cs
  let fraction := cs.takeWhile Char.isDigit
  let isExponent (cs : List Char) : Bool :=
    let cs := if cs.head? == some '+' || cs.head? == some '-' then cs.drop 1 else cs
    !cs.isEmpty && cs.all Char.isDigit
  !(whole ++ fraction).isEmpty &&
    match cs.drop fraction.length with
    | [] => true
    | c :: rest => c.toLower == 'e' && isExponent rest

/-- A number with or without a sign; infinity and the lack of a number are written as words. -/
def isNumber (cs : List Char) : Bool :=
  let cs := if cs.head? == some '+' || cs.head? == some '-' then cs.drop 1 else cs
  isDecimalNumber cs || ["inf", "infinity", "nan"].any (·.toList == cs.map Char.toLower)

/-! ## Escapes -/

inductive Escape where
  | character (c : Char)
  | anchor
  deriving DecidableEq, Repr

def controlOfLetter? (c : Char) : Option Char :=
  match c with
  | 'a' => some (Char.ofNat 7)
  | 'f' => some (Char.ofNat 12)
  | 't' => some '\t'
  | 'n' => some '\n'
  | 'r' => some '\r'
  | 'v' => some (Char.ofNat 11)
  | _ => none

/-- ASCII characters that stand for themselves after a backslash. -/
def isEscapable (c : Char) : Bool := c.toNat < 128 && !c.isAlphanum && c != '<' && c != '>'

def escape? : List Char → Option (Escape × List Char)
  | [] => none
  | c :: rest =>
    match Hex.codeLength? c with
    | some n =>
      if rest.length < n then none
      else (Hex.charOfCode? (rest.take n)).map fun x => (.character x, rest.drop n)
    | none =>
      if c == 'A' || c == 'z' then some (.anchor, rest)
      else if isEscapable c then some (.character c, rest)
      else (controlOfLetter? c).map fun x => (.character x, rest)

/-! ## Character classes -/

/-- A character of a class. -/
def classItem? : List Char → Option (Char × List Char)
  | '\\' :: rest =>
    match escape? rest with
    | some (.character c, rest) => some (c, rest)
    | _ => none
  | c :: rest => some (c, rest)
  | [] => none

def namedClasses : List String :=
  ["alnum", "alpha", "ascii", "blank", "cntrl", "digit", "graph", "lower", "print", "punct",
    "space", "upper", "word", "xdigit"]

/-- What follows a named class; its first bracket was passed. -/
def afterNamedClass? : List Char → Option (List Char)
  | ':' :: rest =>
    let rest := if rest.head? == some '^' then rest.drop 1 else rest
    let name := rest.takeWhile (· != ':')
    match rest.drop name.length with
    | ':' :: ']' :: after => if namedClasses.any (·.toList == name) then some after else none
    | _ => none
  | _ => none

/-- Passes what has a meaning of its own at the start of a class. -/
def afterClassStart? (cs : List Char) : Option (List Char) :=
  let cs := if cs.head? == some '^' then cs.drop 1 else cs
  let dashes := (cs.takeWhile (· == '-')).length
  match cs.drop dashes with
  | [] => none
  | c :: rest => if dashes == 0 && c == ']' then some rest else some (c :: rest)

/-- What follows the classes, `depth` within each other, that the text is in. -/
def afterClass? : Nat → Nat → List Char → Option (List Char)
  | 0, _, _ => none
  | _, _, [] => none
  | fuel + 1, depth, c :: rest =>
    if c == ']' then if depth ≤ 1 then some rest else afterClass? fuel (depth - 1) rest
    else if c == '[' then
      match afterNamedClass? rest with
      | some rest => afterClass? fuel depth rest
      | none => (afterClassStart? rest).bind (afterClass? fuel (depth + 1))
    else if "&-~".toList.contains c && rest.head? == some c then
      afterClass? fuel depth (rest.drop 1)
    else do
      let (first, rest) ← classItem? (c :: rest)
      match rest with
      | '-' :: next :: more =>
        if next == ']' || next == '-' then afterClass? fuel depth rest
        else
          let (last, rest) ← classItem? (next :: more)
          if first ≤ last then afterClass? fuel depth rest else none
      | _ => afterClass? fuel depth rest

/-! ## Groups -/

inductive GroupStart where
  | unnamed
  | named (name : List Char)
  /-- Flags for what follows; the parenthesis is closed. -/
  | flags
  deriving DecidableEq, Repr

def isGroupName : List Char → Bool
  | [] => false
  | c :: rest =>
    (c == '_' || (isAlphanumeric c && !c.isDigit)) &&
      rest.all fun c => "_.[]".toList.contains c || isAlphanumeric c

def groupName? (cs : List Char) : Option (GroupStart × List Char) :=
  let name := cs.takeWhile (· != '>')
  if isGroupName name && name.length < cs.length then
    some (.named name, cs.drop (name.length + 1))
  else none

/-- Letters of flags, each once; those behind a dash are taken back. -/
def areFlags (cs : List Char) : Bool :=
  decide cs.Nodup && cs.all ("-imsUuRx".toList.contains ·) && cs.getLast? != some '-' &&
    !(cs.takeWhile (· != '-')).contains 'i'

def groupStart? : List Char → Option (GroupStart × List Char)
  | '?' :: 'P' :: '<' :: rest => groupName? rest
  | '?' :: '<' :: rest => groupName? rest
  | '?' :: rest =>
    let flags := rest.takeWhile fun c => c != ':' && c != ')'
    match rest.drop flags.length with
    | [] => none
    | mark :: after =>
      if !areFlags flags then none
      else if mark == ':' then some (.unnamed, after)
      else if flags.isEmpty then none
      else some (.flags, after)
  | rest => some (.unnamed, rest)

/-! ## Regular expressions -/

/--
Whether the rest of a regular expression is well formed, with the names of its
groups so far, how many are open, and whether what was just read may be repeated.
-/
def isExpressionFrom (names : List (List Char)) (depth : Nat) (repeatable : Bool) :
    Nat → List Char → Bool
  | 0, _ => false
  | _, [] => depth == 0
  | fuel + 1, c :: rest =>
    if c == '(' then
      match groupStart? rest with
      | some (.unnamed, rest) => isExpressionFrom names (depth + 1) false fuel rest
      | some (.named name, rest) =>
        !names.contains name && isExpressionFrom (name :: names) (depth + 1) false fuel rest
      | some (.flags, rest) => isExpressionFrom names depth false fuel rest
      | none => false
    else if c == ')' then depth != 0 && isExpressionFrom names (depth - 1) true fuel rest
    else if c == '|' then isExpressionFrom names depth false fuel rest
    else if "?*+".toList.contains c then
      let rest := if rest.head? == some '?' then rest.drop 1 else rest
      repeatable && isExpressionFrom names depth true fuel rest
    else if c == '\x7b' then false
    else if c == '[' then
      match (afterClassStart? rest).bind (afterClass? (rest.length + 1) 1) with
      | some rest => isExpressionFrom names depth true fuel rest
      | none => false
    else if c == '\\' then
      match escape? rest with
      | some (_, rest) => isExpressionFrom names depth true fuel rest
      | none => false
    else isExpressionFrom names depth true fuel rest

/-- Whether a text is a regular expression; counts in braces are none. -/
def isExpression (cs : List Char) : Bool := isExpressionFrom [] 0 false (cs.length + 1) cs

def isPattern (cs : List Char) : Bool := isNumber cs || isExpression cs

end HostLookup.Journal
