import HostLookup.Address.Text

/-!
# Address literals

`V4.ofText?` reads four decimal octets without leading zeros. `V6.ofText?`
reads groups of one to four hexadecimal digits, one `::` standing for at least
one zero group, and four octets in place of the last two groups. A literal is
either; no text is both.
-/

namespace HostLookup

open Bytes

/-- An octet of one to three digits; a zero in front of others is refused. -/
def octetOfText? (s : Bytes) : Option UInt8 :=
  if s.length ≤ 3 && (s.length == 1 || s.head? != some 48) then
    (natBelow? 10 256 s).map (·.toUInt8)
  else none

namespace V4

def ofText? (s : Bytes) : Option V4 :=
  match (splitOn point s).map octetOfText? with
  | [some a, some b, some c, some d] => some ⟨a, b, c, d⟩
  | _ => none

end V4

def groupOfText? (s : Bytes) : Option UInt16 :=
  if s.length ≤ 4 then (natBelow? 16 65536 s).map (·.toUInt16) else none

/-- The groups of the pieces between colons; the last may be four octets where that is allowed. -/
def groupsOfPieces? (octetsAllowed : Bool) : List Bytes → Option (List UInt16)
  | [] => some []
  | [last] =>
    match if octetsAllowed then V4.ofText? last else none with
    | some x => some [groupOf x.a x.b, groupOf x.c x.d]
    | none => (groupOfText? last).map ([·])
  | piece :: pieces =>
    (groupOfText? piece).bind fun g => (groupsOfPieces? octetsAllowed pieces).map (g :: ·)

def groupsOfText? (octetsAllowed : Bool) (s : Bytes) : Option (List UInt16) :=
  if s.isEmpty then some [] else groupsOfPieces? octetsAllowed (splitOn colon s)

def cutDoubleColon? : Bytes → Option (Bytes × Bytes)
  | [] => none
  | [_] => none
  | a :: b :: rest =>
    if a = colon ∧ b = colon then some ([], rest)
    else (cutDoubleColon? (b :: rest)).map fun (before, after) => (a :: before, after)

namespace V6

def ofText? (s : Bytes) : Option V6 :=
  match cutDoubleColon? s with
  | none => (groupsOfText? true s).bind ofGroups?
  | some (before, after) =>
    match groupsOfText? false before, groupsOfText? true after with
    | some front, some back =>
      if front.length + back.length ≤ 7 then
        ofGroups? (front ++ List.replicate (8 - front.length - back.length) 0 ++ back)
      else none
    | _, _ => none

end V6

namespace Address

def ofText? (s : Bytes) : Option Address :=
  match V4.ofText? s with
  | some x => some (v4 x)
  | none => (V6.ofText? s).map v6

end Address

end HostLookup
