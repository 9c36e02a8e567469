/-!
# A place in a YAML text

A cursor is the text that is left, its length, and the index, line and column of
its first character. The index counts the bytes of the UTF-8 form and the column counts
characters; every line break, also the pair of carriage return and line feed,
starts the next line at column zero.
-/

namespace HostLookup.Yaml

def isBreak (c : Char) : Bool :=
  c == '\n' || c == '\r' || c == '\u0085' || c == '\u2028' || c == '\u2029'

def isBlank (c : Char) : Bool := c == ' ' || c == '\t'

def isWordChar (c : Char) : Bool := c.isAlphanum || c == '_' || c == '-'

def isPrintable (c : Char) : Bool :=
  let n := c.toNat
  n == 0x9 || n == 0xA || n == 0xD || (0x20 ≤ n && n ≤ 0x7E) || n == 0x85 ||
    (0xA0 ≤ n && n ≤ 0xD7FF) || (0xE000 ≤ n && n ≤ 0xFFFD) || 0x10000 ≤ n

/-- The mark that may start a line. -/
def byteOrderMark : Char := '\uFEFF'

def startsWithGap : List Char → Bool
  | [] => false
  | c :: _ => isBlank c || isBreak c

def startsWithGapOrEnd (cs : List Char) : Bool := cs.isEmpty || startsWithGap cs

def byteLength (cs : List Char) : Nat := cs.foldl (fun n c => n + c.utf8Size) 0

structure Cursor where
  rest : List Char
  left : Nat := rest.length
  index : Nat := 0
  line : Nat := 0
  column : Nat := 0
  left_eq : left = rest.length := by rfl

namespace Cursor

def peek (c : Cursor) : Option Char := c.rest.head?

def startsWith (c : Cursor) (x : Char) : Bool := c.rest.head? == some x

/-- Passes `n` characters without a look at what they are. -/
def pass (c : Cursor) (n line column : Nat) : Cursor :=
  { rest := c.rest.drop n
    left := c.left - n
    index := c.index + byteLength (c.rest.take n)
    line, column
    left_eq := by simp [c.left_eq] }

def advance (c : Cursor) (n : Nat) : Cursor := c.pass n c.line (c.column + n)

def skipWhile (c : Cursor) (p : Char → Bool) : Cursor :=
  c.advance (c.rest.takeWhile p).length

def takeWhile (c : Cursor) (p : Char → Bool) : List Char × Cursor :=
  (c.rest.takeWhile p, c.skipWhile p)

/-- The text of a line break, a line feed for all but the two separators, and what follows. -/
def takeBreak (c : Cursor) : List Char × Cursor :=
  let next (n : Nat) : Cursor := c.pass n (c.line + 1) 0
  match c.rest with
  | '\r' :: '\n' :: _ => (['\n'], next 2)
  | x :: _ => if isBreak x then (if 0x2000 ≤ x.toNat then [x] else ['\n'], next 1) else ([], c)
  | [] => ([], c)

/-- Whether a line starts here with `---` or `...` on its own. -/
def atDocumentMark (c : Cursor) : Bool :=
  c.column == 0 &&
    match c.rest with
    | '-' :: '-' :: '-' :: rest => startsWithGapOrEnd rest
    | '.' :: '.' :: '.' :: rest => startsWithGapOrEnd rest
    | _ => false

end Cursor

end HostLookup.Yaml
