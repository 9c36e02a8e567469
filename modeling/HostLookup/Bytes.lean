/-!
# Byte strings

File contents, names and messages are lists of bytes; where a format asks for
text it is the UTF-8 form of it. `ascii` writes the fixed words of a format,
`splitOn` cuts at every occurrence of one byte, `intercalate` undoes that, and
`wordsFrom` gives the maximal runs outside a separator class with their offsets.
-/

namespace HostLookup

abbrev Bytes := List UInt8

def ascii (s : String) : Bytes := s.toList.map fun c => c.toNat.toUInt8

namespace Bytes

/-- Space, tab, line feed, vertical tab, form feed and carriage return. -/
def isBlank (b : UInt8) : Bool := b == 32 || (9 ≤ b && b ≤ 13)

def isDigit (b : UInt8) : Bool := 48 ≤ b && b ≤ 57

def newline : UInt8 := 10

def carriageReturn : UInt8 := 13

export List (splitOn)

/-- A string is one piece without `sep`, or such a piece and what follows a `sep`. -/
theorem cut_induction {P : Bytes → Prop} (sep : UInt8) (last : ∀ piece, sep ∉ piece → P piece)
    (cut : ∀ piece rest, sep ∉ piece → P rest → P (piece ++ sep :: rest)) (s : Bytes) : P s := by
  by_cases h : sep ∈ s
  · obtain ⟨piece, rest, hs, plain⟩ := List.eq_append_cons_of_mem h
    have hlength : rest.length < s.length := by
      rw [hs, List.length_append, List.length_cons]
      omega
    rw [hs]
    exact cut piece rest plain (cut_induction sep last cut rest)
  · exact last s h
termination_by s.length

theorem not_mem_of_mem_splitOn {sep : UInt8} {s piece : Bytes} (h : piece ∈ splitOn sep s) :
    sep ∉ piece := by
  induction s using cut_induction sep with
  | last s plain =>
    rw [List.splitOn_eq_singleton plain, List.mem_singleton] at h
    rwa [h]
  | cut front rest plain ih =>
    rw [List.splitOn_append_cons_self_of_not_mem plain] at h
    rcases List.mem_cons.mp h with rfl | h
    · exact plain
    · exact ih h

structure Word where
  offset : Nat
  text : Bytes
  deriving DecidableEq, Repr

/-- The maximal runs of bytes that are no separators; the data starts at `offset`. -/
def wordsFrom (isSep : UInt8 → Bool) (offset : Nat) : Bytes → List Word
  | [] => []
  | b :: rest =>
    if isSep b then wordsFrom isSep (offset + 1) rest
    else
      let run := rest.takeWhile fun c => !isSep c
      ⟨offset, b :: run⟩ :: wordsFrom isSep (offset + 1 + run.length) (rest.drop run.length)
termination_by data => data.length
decreasing_by
  · simp
  · simp only [List.length_drop, List.length_cons]; omega

end Bytes

end HostLookup
