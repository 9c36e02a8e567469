import HostLookup.Proofs.Names
import HostLookup.Proofs.Texts
import HostLookup.Proofs.Words

/-!
# What the lines of a hosts file bind

A line binds each of its names to its address, and a file binds what its lines
do, one after the other. Bindings hold texts and no offsets, so lines that move
bind what they did before. The first binding of a name decides its address
(`isFirstAddress_iff_find?`), and with that every reply.
-/

namespace HostLookup.Hosts

open Bytes

/-- A name with the address of its line. -/
structure Binding where
  address : Bytes
  name : Bytes
  deriving DecidableEq, Repr

def IsComment (line : Bytes) : Prop := line.head? = some commentMark

instance (line : Bytes) : Decidable (IsComment line) :=
  inferInstanceAs (Decidable (line.head? = some commentMark))

/-- What a line with these words binds; the first word is the address. -/
def bindingsOfWords : List Bytes → List Binding
  | [] => []
  | address :: names =>
    if address.length ≤ maxAddressLength then
      (names.filter fun name => name.length < nameLengthLimit).map (⟨address, ·⟩)
    else []

def lineBindings (line : Bytes) : List Binding :=
  if IsComment line then [] else bindingsOfWords (wordTexts isBlank line)

def bindings (lines : List Bytes) : List Binding := lines.flatMap lineBindings

/-- The address of the first binding of a name. -/
def firstBound? (lines : List Bytes) (name : Bytes) : Option Bytes :=
  ((bindings lines).find? fun b => b.name == name).map (·.address)

section

variable {data line name t : Bytes} {lines lines' : List Bytes} {offset : Nat} {l : Span}
  {words : List Bytes}

/-! ## One line -/

theorem lineBindings_of_isComment (h : IsComment line) : lineBindings line = [] := if_pos h

theorem lineBindings_of_not_isComment (h : ¬ IsComment line) :
    lineBindings line = bindingsOfWords (wordTexts isBlank line) := if_neg h

/-- A line that is no comment binds what the words it lays out do. -/
theorem lineBindings_of_spaced (h : ¬ IsComment line) (hwords : Spaced isBlank words line) :
    lineBindings line = bindingsOfWords words := by
  rw [lineBindings_of_not_isComment h, wordTexts_eq_iff.mpr hwords]

theorem head?_of_isComment (h : IsComment line) (hwords : Spaced isBlank words line) :
    ∃ word ∈ words.head?, word.head? = some commentMark := by
  obtain ⟨rest, rfl⟩ := List.head?_eq_some_iff.mp h
  have hmark : (commentMark :: rest).find? (fun b => !isBlank b) = some commentMark := rfl
  rw [hwords.find?_eq] at hmark
  exact Option.bind_eq_some_iff.mp hmark

/-- What a line binds is what the scan finds on it, where the content holds its words. -/
theorem map_lineMentions
    (h : ∀ w ∈ wordsFrom isBlank offset line, token data w.offset = w.text) :
    (lineMentions offset line).map (fun m => ⟨token data m.address, m.name.text⟩) =
      lineBindings line := by
  by_cases hc : line.head? = some commentMark
  · rw [lineBindings_of_isComment hc, lineMentions, if_pos hc]
    rfl
  · rw [lineBindings_of_not_isComment hc, lineMentions, if_neg hc,
      ← map_text_wordsFrom isBlank offset line]
    cases hwords : wordsFrom isBlank offset line with
    | nil => rfl
    | cons address names =>
      have haddress := h address (hwords ▸ List.mem_cons_self)
      simp only [List.map_cons, bindingsOfWords]
      split
      · rw [List.map_map, List.filter_map, List.map_map]
        simp only [Function.comp_def, haddress]
      · rfl

theorem mem_name_lineBindings :
    name ∈ (lineBindings line).map (·.name) ↔ ∃ a n, Lists line a n ∧ n.of line = name := by
  have hwords : ∀ w ∈ wordsFrom isBlank 0 line, token line w.offset = w.text := by
    intro w hw
    obtain ⟨x, hx, rfl⟩ := mem_words.mp hw
    simpa using token_of_isRun hx.1
  rw [← map_lineMentions hwords, List.map_map, List.mem_map]
  constructor
  · rintro ⟨m, hm, rfl⟩
    obtain ⟨a, n, hlists, rfl⟩ := mem_lineMentions.mp hm
    exact ⟨a, n, hlists, rfl⟩
  · rintro ⟨a, n, hlists, rfl⟩
    exact ⟨_, mem_lineMentions.mpr ⟨a, n, hlists, rfl⟩, rfl⟩

/-! ## All lines -/

theorem bindings_append (lines lines' : List Bytes) :
    bindings (lines ++ lines') = bindings lines ++ bindings lines' := List.flatMap_append

theorem bindings_cons (line : Bytes) (lines : List Bytes) :
    bindings (line :: lines) = lineBindings line ++ bindings lines := List.flatMap_cons

theorem map_text_placedFrom (offset : Nat) (lines : List Bytes) :
    (placedFrom offset lines).map (·.text) = lines := by
  induction lines generalizing offset with
  | nil => rfl
  | cons line lines ih => rw [placedFrom, List.map_cons, ih]

/-- The scan of a content finds what its lines bind, in that order. -/
theorem map_mentions (data : Bytes) :
    (mentions data).map (fun m => ⟨token data m.address, m.name.text⟩) =
      bindings (splitOn newline data) := by
  have hlines : bindings (splitOn newline data) =
      (placedFrom 0 (splitOn newline data)).flatMap fun l => lineBindings l.text := by
    conv => lhs; rw [← map_text_placedFrom 0 (splitOn newline data)]
    exact List.flatMap_map ..
  rw [mentions, mentionsOfLines_eq, List.map_flatMap, hlines, List.flatMap_def, List.flatMap_def]
  refine congrArg List.flatten (List.map_congr_left fun w hw => map_lineMentions ?_)
  obtain ⟨l, hl, rfl⟩ := mem_placedFrom_splitOn.mp hw
  intro v hv
  obtain ⟨x, hx, rfl⟩ := mem_words.mp hv
  rw [Nat.zero_add]
  exact token_of_isLine hl hx

theorem isFirstAddress_iff_find? :
    IsFirstAddress data name t ↔ firstBound? (splitOn newline data) name = some t := by
  have hlookup : ((Snapshot.take 0 ⟨[]⟩ data ⟨0, 0⟩).lookup name).map
      (Snapshot.take 0 ⟨[]⟩ data ⟨0, 0⟩).addressToken = some t ↔ IsFirstAddress data name t :=
    addressToken_lookup_iff
  refine hlookup.symm.trans ?_
  rw [Snapshot.lookup_eq_find?, firstBound?, ← map_mentions, List.find?_map, Option.map_map,
    Option.map_map]
  exact Iff.rfl

end

end HostLookup.Hosts
