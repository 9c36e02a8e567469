import HostLookup.Proofs.Bindings

/-!
# Layouts of a hosts file

A hosts file may be written in many ways. `Edit` lists what can be done to a
stretch of lines without a change of meaning: other gaps, lines that list
nothing, names that are too long, one line per name, and another order of lines
that share no name. Each edit keeps the first binding of every name, so files
that differ by any number of edits, done or undone, get the same replies
(`reply_eq_of_edits`), wherever the offsets in their indexes have gone.
-/

namespace HostLookup.Hosts

open Bytes

/-- The lines of a hosts file, and whether a line feed ends the last one. -/
structure Layout where
  lines : List Bytes
  closed : Bool
  solid : ∀ line ∈ lines, newline ∉ line

/-- A line that lists nothing. -/
inductive IsIdle (line : Bytes) : Prop where
  | comment (mark : line.head? = some 35)
  | blank (blank : ∀ b ∈ line, isBlank b = true)
  | longAddress {address : Bytes} {names : List Bytes}
      (laid : Spaced isBlank (address :: names) line) (long : 64 < address.length)
  | nameless {address : Bytes} (laid : Spaced isBlank [address] line)

/-- The line lists the name, as an address to a name of no more than 255 bytes does. -/
def LineLists (line name : Bytes) : Prop := ∃ a n, Lists line a n ∧ n.of line = name

/-- What may be put in the place of a stretch of lines. -/
inductive Edit : List Bytes → List Bytes → Prop where
  /-- Other gaps before, between and after the words. -/
  | respace {line line' : Bytes} {words : List Bytes} (laid : Spaced isBlank words line)
      (laid' : Spaced isBlank words line')
      (unmarked : ∀ word ∈ words.head?, word.head? ≠ some 35) : Edit [line] [line']
  | insert {line : Bytes} (idle : IsIdle line) : Edit [] [line]
  /-- One more name, which is too long; the line is a comment after it if it was one before. -/
  | lengthen {line line' address long : Bytes} {names more : List Bytes}
      (laid : Spaced isBlank (address :: (names ++ more)) line)
      (laid' : Spaced isBlank (address :: (names ++ long :: more)) line')
      (length : 256 ≤ long.length) (mark : line.head? = some 35 ↔ line'.head? = some 35) :
      Edit [line] [line']
  /-- A line for each name, with the same address; comments if the line was one. -/
  | split {line address : Bytes} {names pieces : List Bytes}
      (laid : Spaced isBlank (address :: names) line)
      (each : List.Forall₂ (fun name piece => Spaced isBlank [address, name] piece) names pieces)
      (mark : ∀ piece ∈ pieces, line.head? = some 35 ↔ piece.head? = some 35) :
      Edit [line] pieces
  | swap {line line' : Bytes} (apart : ∀ name, ¬ (LineLists line name ∧ LineLists line' name)) :
      Edit [line, line'] [line', line]

/-- An edit between lines that stay, or of the end of the file. -/
inductive Layout.Edited (x y : Layout) : Prop where
  | ending (same : x.lines = y.lines)
  | lines {before stretch stretch' after : List Bytes} (edit : Edit stretch stretch')
      (same : x.closed = y.closed) (eq : x.lines = before ++ stretch ++ after)
      (eq' : y.lines = before ++ stretch' ++ after)

namespace Layout

/-- The content: a line feed between each two lines, and after the last one if it is closed. -/
def text (x : Layout) : Bytes :=
  if x.closed then x.lines.flatMap (· ++ [newline]) else [newline].intercalate x.lines

def ofText (data : Bytes) (closed : Bool) : Layout :=
  ⟨splitOn newline data, closed, fun _ => not_mem_of_mem_splitOn⟩

theorem exists_text (data : Bytes) : ∃ x : Layout, x.text = data :=
  ⟨ofText data false, List.intercalate_splitOn newline⟩

end Layout

section

variable {line line' address long name : Bytes} {names more lines lines' pieces : List Bytes}
  {x y : Layout}

/-! ## Words -/

theorem bindingsOfWords_lengthen (length : 256 ≤ long.length) :
    bindingsOfWords (address :: (names ++ long :: more)) =
      bindingsOfWords (address :: (names ++ more)) := by
  have hlong : ¬ long.length < nameLengthLimit := Nat.not_lt_of_le length
  simp only [bindingsOfWords, List.filter_append, List.filter_cons, hlong, decide_false,
    Bool.false_eq_true, if_false]

theorem bindingsOfWords_cons (address name : Bytes) (names : List Bytes) :
    bindingsOfWords (address :: name :: names) =
      bindingsOfWords [address, name] ++ bindingsOfWords (address :: names) := by
  unfold bindingsOfWords
  simp only
  split
  · rw [List.filter_cons, List.filter_cons]
    split <;> rfl
  · rfl

theorem bindingsOfWords_singleton (address : Bytes) : bindingsOfWords [address] = [] := by
  rw [bindingsOfWords]
  split <;> rfl

/-! ## Lines -/

theorem IsIdle.lineBindings_eq (h : IsIdle line) : lineBindings line = [] := by
  by_cases hc : IsComment line
  · exact lineBindings_of_isComment hc
  · cases h with
    | comment mark => exact absurd mark hc
    | blank blank => exact lineBindings_of_spaced hc (.blank blank)
    | longAddress laid long =>
      rw [lineBindings_of_spaced hc laid, bindingsOfWords, if_neg]
      exact Nat.not_le_of_lt long
    | nameless laid => rw [lineBindings_of_spaced hc laid, bindingsOfWords_singleton]

theorem bindings_singleton (line : Bytes) : bindings [line] = lineBindings line :=
  List.flatMap_singleton ..

theorem bindings_pair (line line' : Bytes) :
    bindings [line, line'] = lineBindings line ++ lineBindings line' := by
  rw [bindings_cons, bindings_singleton]

theorem bindings_of_isComment (h : ∀ line ∈ lines, IsComment line) : bindings lines = [] :=
  List.flatMap_eq_nil_iff.mpr fun line hline => lineBindings_of_isComment (h line hline)

theorem bindings_empty_line : bindings [[]] = [] := by
  rw [bindings_singleton, IsIdle.lineBindings_eq (.blank (List.forall_mem_nil _))]

/-- Lines with one name each bind what a line with all of the names does. -/
theorem bindings_of_forall₂
    (each : List.Forall₂ (fun name piece => Spaced isBlank [address, name] piece) names pieces)
    (unmarked : ∀ piece ∈ pieces, ¬ IsComment piece) :
    bindings pieces = bindingsOfWords (address :: names) := by
  induction each with
  | nil => exact (bindingsOfWords_singleton address).symm
  | cons laid _ ih =>
    obtain ⟨hpiece, hpieces⟩ := List.forall_mem_cons.mp unmarked
    rw [bindings_cons, ih hpieces, bindingsOfWords_cons, lineBindings_of_spaced hpiece laid]

theorem find?_append_comm {α : Type} {l l' : List α} {p : α → Bool}
    (h : l.find? p = none ∨ l'.find? p = none) : (l ++ l').find? p = (l' ++ l).find? p := by
  rw [List.find?_append, List.find?_append]
  rcases h with h | h <;> simp [h]

/-- An edit keeps the first binding of each name. -/
theorem Edit.find?_bindings (h : Edit lines lines') (name : Bytes) :
    (bindings lines).find? (fun b => b.name == name) =
      (bindings lines').find? fun b => b.name == name := by
  cases h with
  | respace laid laid' unmarked =>
    have visible : ∀ {line}, Spaced isBlank _ line → ¬ IsComment line := fun laid hc => by
      obtain ⟨word, hword, hmark⟩ := head?_of_isComment hc laid
      exact unmarked word hword hmark
    rw [bindings_singleton, bindings_singleton, lineBindings_of_spaced (visible laid) laid,
      lineBindings_of_spaced (visible laid') laid']
  | insert idle => rw [bindings_singleton, idle.lineBindings_eq]; rfl
  | @lengthen line line' address long names more laid laid' length mark =>
    rw [bindings_singleton, bindings_singleton]
    by_cases hc : IsComment line
    · rw [lineBindings_of_isComment hc, lineBindings_of_isComment (mark.mp hc)]
    · rw [lineBindings_of_spaced hc laid, lineBindings_of_spaced (fun h => hc (mark.mpr h)) laid',
        bindingsOfWords_lengthen length]
  | @split line address names pieces laid each mark =>
    rw [bindings_singleton]
    by_cases hc : IsComment line
    · rw [lineBindings_of_isComment hc,
        bindings_of_isComment fun piece hpiece => (mark piece hpiece).mp hc]
    · rw [lineBindings_of_spaced hc laid,
        bindings_of_forall₂ each fun piece hpiece h => hc ((mark piece hpiece).mpr h)]
  | @swap line line' apart =>
    have hnone : ∀ {line}, ¬ LineLists line name →
        (lineBindings line).find? (fun b => b.name == name) = none := by
      intro line h
      rw [List.find?_eq_none]
      intro b hb heq
      exact h (mem_name_lineBindings.mp (List.mem_map.mpr ⟨b, hb, eq_of_beq heq⟩))
    have happart : ¬ LineLists line name ∨ ¬ LineLists line' name :=
      Classical.not_and_iff_not_or_not.mp (apart name)
    rw [bindings_pair, bindings_pair]
    exact find?_append_comm (happart.imp hnone hnone)

/-! ## Files -/

namespace Layout

theorem bindings_text (x : Layout) : bindings (splitOn newline x.text) = bindings x.lines := by
  have closed : ∀ lines : List Bytes, (∀ line ∈ lines, newline ∉ line) →
      bindings (splitOn newline (lines.flatMap (· ++ [newline]))) = bindings lines := by
    intro lines solid
    induction lines with
    | nil => exact bindings_empty_line
    | cons line lines ih =>
      obtain ⟨hline, hlines⟩ := List.forall_mem_cons.mp solid
      rw [List.flatMap_cons, List.append_assoc, List.singleton_append,
        List.splitOn_append_cons_self_of_not_mem hline, bindings_cons, bindings_cons, ih hlines]
  rw [text]
  split
  · exact closed x.lines x.solid
  · by_cases hne : x.lines = []
    · rw [hne]
      exact bindings_empty_line
    · rw [List.splitOn_intercalate newline x.solid hne]

theorem Edited.firstBound?_eq (h : Edited x y) (name : Bytes) :
    firstBound? x.lines name = firstBound? y.lines name := by
  cases h with
  | ending same => rw [same]
  | lines edit same eq eq' =>
    rw [firstBound?, firstBound?, eq, eq']
    simp only [bindings_append, List.find?_append, edit.find?_bindings name]

/-- Any number of edits, done or undone, keeps the address of each name. -/
theorem isFirstAddress_iff (h : Relation.EqvGen Edited x y) (name a : Bytes) :
    IsFirstAddress x.text name a ↔ IsFirstAddress y.text name a := by
  have hbound : firstBound? x.lines name = firstBound? y.lines name := by
    induction h with
    | rel x y edit => exact edit.firstBound?_eq name
    | refl x => rfl
    | symm x y _ ih => exact ih.symm
    | trans x y z _ _ ih ih' => exact ih.trans ih'
  have htext : ∀ z : Layout, firstBound? (splitOn newline z.text) name = firstBound? z.lines name :=
    fun z => by rw [firstBound?, firstBound?, z.bindings_text]
  rw [isFirstAddress_iff_find?, isFirstAddress_iff_find?, htext, htext, hbound]

end Layout

end

/--
Every content is the text of a layout, and contents that come from each other by
edits get the same reply to every request, whatever tracker has them.
-/
theorem Layout.reply_eq_of_edits :
    (∀ data : Bytes, ∃ x : Layout, x.text = data) ∧
      ∀ x y : Layout, Relation.EqvGen Edited x y →
        ∀ (t t' : Tracker) (s s' : Snapshot), t.snapshot = some s → t'.snapshot = some s' →
          s.data = x.text → s'.data = y.text →
          ∀ (services : ServiceTable) (r : Request), r.reply t services = r.reply t' services := by
  refine ⟨exists_text, fun x y edits t t' s s' hs hs' hx hy services r => ?_⟩
  refine Request.reply_eq_of_isFirstAddress hs hs' (fun name a => ?_) services r
  rw [hx, hy]
  exact isFirstAddress_iff edits name a

/-- A comment comes in, two lines change places, one gets other gaps, and the end goes. -/
theorem Layout.rewriting_keeps_replies :
    Relation.EqvGen Edited (ofText (ascii "10.0.0.1 a\n10.0.0.2 b") true)
        (ofText (ascii "# both\n\t10.0.0.2   b \n10.0.0.1 a") false) ∧
      (Request.forward (some (ascii "b")) none none).reply
          (.ofContent (ascii "10.0.0.1 a\n10.0.0.2 b\n")) [] =
        (Request.forward (some (ascii "b")) none none).reply
          (.ofContent (ascii "# both\n\t10.0.0.2   b \n10.0.0.1 a")) [] := by
  have insert : Edit [] [ascii "# both"] := .insert (.comment (by decide +kernel))
  have bound : (lineBindings (ascii "10.0.0.1 a")).map (·.name) = [ascii "a"] := by decide +kernel
  have bound' : (lineBindings (ascii "10.0.0.2 b")).map (·.name) = [ascii "b"] := by decide +kernel
  have swap : Edit [ascii "10.0.0.1 a", ascii "10.0.0.2 b"]
      [ascii "10.0.0.2 b", ascii "10.0.0.1 a"] := by
    refine .swap ?_
    rintro name ⟨h, h'⟩
    have ha := mem_name_lineBindings.mpr h
    have hb := mem_name_lineBindings.mpr h'
    rw [bound, List.mem_singleton] at ha
    rw [bound', List.mem_singleton, ha] at hb
    cases hb
  have respace : Edit [ascii "10.0.0.2 b"] [ascii "\t10.0.0.2   b "] := by
    have words : wordTexts isBlank (ascii "10.0.0.2 b") = [ascii "10.0.0.2", ascii "b"] := by
      decide +kernel
    exact .respace (wordTexts_eq_iff.mp words) (wordTexts_eq_iff.mp (by decide +kernel))
      (by rintro _ ⟨⟩ ⟨⟩)
  have inserted : Edited (ofText (ascii "10.0.0.1 a\n10.0.0.2 b") true)
      (ofText (ascii "# both\n10.0.0.1 a\n10.0.0.2 b") true) :=
    @Edited.lines _ _ [] _ _ [ascii "10.0.0.1 a", ascii "10.0.0.2 b"] insert (by decide +kernel)
      (by decide +kernel) (by decide +kernel)
  have swapped : Edited (ofText (ascii "# both\n10.0.0.1 a\n10.0.0.2 b") true)
      (ofText (ascii "# both\n10.0.0.2 b\n10.0.0.1 a") true) :=
    @Edited.lines _ _ [ascii "# both"] _ _ [] swap (by decide +kernel) (by decide +kernel)
      (by decide +kernel)
  have respaced : Edited (ofText (ascii "# both\n10.0.0.2 b\n10.0.0.1 a") true)
      (ofText (ascii "# both\n\t10.0.0.2   b \n10.0.0.1 a") true) :=
    @Edited.lines _ _ [ascii "# both"] _ _ [ascii "10.0.0.1 a"] respace (by decide +kernel)
      (by decide +kernel) (by decide +kernel)
  have opened : Edited (ofText (ascii "# both\n\t10.0.0.2   b \n10.0.0.1 a") true)
      (ofText (ascii "# both\n\t10.0.0.2   b \n10.0.0.1 a") false) := .ending (by decide +kernel)
  have edits : Relation.EqvGen Edited (ofText (ascii "10.0.0.1 a\n10.0.0.2 b") true)
      (ofText (ascii "# both\n\t10.0.0.2   b \n10.0.0.1 a") false) :=
    .trans _ _ _ (.trans _ _ _ (.rel _ _ inserted) (.rel _ _ swapped))
      (.trans _ _ _ (.rel _ _ respaced) (.rel _ _ opened))
  exact ⟨edits, reply_eq_of_edits.2 _ _ edits _ _ _ _ rfl rfl (by decide +kernel)
    (by decide +kernel) [] _⟩

end HostLookup.Hosts
