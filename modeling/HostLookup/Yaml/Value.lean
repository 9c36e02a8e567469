import HostLookup.Bytes.Utf8
import HostLookup.Yaml.Node

/-!
# Typed values of YAML nodes

What a node reads as where a text, a number, a truth value, a name out of a
list or a mapping is asked for. Quotes and block forms matter: a number and a
truth value are written plain, a text in any way. An alias reads as its node.
-/

namespace HostLookup.Yaml

def standardTag (name : String) : Bytes := ascii "tag:yaml.org,2002:" ++ ascii name

def isTrue (text : List Char) : Bool := ["true", "True", "TRUE"].any (·.toList == text)

def isFalse (text : List Char) : Bool := ["false", "False", "FALSE"].any (·.toList == text)

def isNull (text : List Char) : Bool := ["", "~", "null", "Null", "NULL"].any (·.toList == text)

/-! ## Numbers -/

def numberLimit : Nat := 18446744073709551616

def numeral? (base : Nat) (digits : List Char) : Option Nat :=
  Bytes.natBelow? base numberLimit (Bytes.ofChars digits)

/-- The base of a number with a mark in front, and its digits. -/
def marked? : List Char → Option (Nat × List Char)
  | '0' :: 'x' :: digits => some (16, digits)
  | '0' :: 'o' :: digits => some (8, digits)
  | '0' :: 'b' :: digits => some (2, digits)
  | _ => none

def isDecimalForm (digits : List Char) : Bool := digits.head? != some '0' || digits == ['0']

/--
A number below 2^64 in base ten, or in base 16, 8 or 2 after `0x`, `0o` or `0b`. A plus
sign may stand in front.
-/
def unsignedOfText? (text : List Char) : Option Nat :=
  let text := if text.head? == some '+' then text.drop 1 else text
  match marked? text with
  | some (base, digits) => numeral? base digits
  | none => if isDecimalForm text then numeral? 10 text else none

/-! ## Nodes -/

/-- The text of a scalar that is written as a value: plain, or literal under the tag of its type. -/
def valueText? (type : String) : Node → Option (List Char)
  | .scalar .plain _ text => some text
  | .scalar .literal (some tag) text => if tag == standardTag type then some text else none
  | _ => none

namespace Document

def text? (d : Document) (n : Node) : Option Bytes :=
  match d.resolve n with
  | .scalar _ _ text => some (Bytes.Utf8.encode text)
  | _ => none

def unsigned? (d : Document) (n : Node) : Option Nat :=
  (valueText? "int" (d.resolve n)).bind unsignedOfText?

def truth? (d : Document) (n : Node) : Option Bool :=
  match valueText? "bool" (d.resolve n) with
  | some text => if isTrue text then some true else if isFalse text then some false else none
  | none => none

/-- The name after the mark of a local tag; one that is no UTF-8 does not count. -/
def localName? : Option Bytes → Option Bytes
  | some (33 :: name) => if Bytes.Utf8.valid name then some name else none
  | _ => none

/-- A name, written as a scalar or as the local tag of a null. -/
def name? (d : Document) (n : Node) : Option Bytes :=
  match d.resolve n with
  | .scalar style tag text =>
    match localName? tag with
    | some name => if style = .plain ∧ isNull text then some name else none
    | none => some (Bytes.Utf8.encode text)
  | _ => none

/-- The fields of a mapping, of which none of the `known` ones is there twice. -/
def fieldsOfPairs? (d : Document) (known : List Bytes) :
    List (Node × Node) → Option (List (Bytes × Node))
  | [] => some []
  | (key, value) :: pairs => do
    let key ← d.text? key
    let fields ← d.fieldsOfPairs? known pairs
    if known.contains key && fields.any (·.1 == key) then none else some ((key, value) :: fields)

/-- The fields of a mapping; a plain scalar without text is a mapping without fields. -/
def fields? (d : Document) (known : List Bytes) (n : Node) : Option (List (Bytes × Node)) :=
  match d.resolve n with
  | .mapping _ pairs => d.fieldsOfPairs? known pairs
  | .scalar .plain _ [] => some []
  | _ => none

end Document

end HostLookup.Yaml
