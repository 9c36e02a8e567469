import HostLookup.Proofs.Run

/-!
# The words of a text

`Spaced` says how a text may lay out words: gaps of separators between them, and
perhaps before the first and after the last. It does not say how the words are
found; `wordTexts_eq_iff` shows that a text is cut into the words that it lays
out, so texts that lay out the same words cannot be told apart by them.
-/

namespace HostLookup.Bytes

/-- The words of a text without their offsets. -/
def wordTexts (isSep : UInt8 → Bool) (s : Bytes) : List Bytes := (wordsFrom isSep 0 s).map (·.text)

/-- The text has the words in this order, each ended by a separator or by the end of the text. -/
inductive Spaced (isSep : UInt8 → Bool) : List Bytes → Bytes → Prop where
  | blank {gap : Bytes} : (∀ b ∈ gap, isSep b = true) → Spaced isSep [] gap
  | word {gap word rest : Bytes} {words : List Bytes} : (∀ b ∈ gap, isSep b = true) → word ≠ [] →
      (∀ b ∈ word, isSep b = false) → (∀ b ∈ rest.head?, isSep b = true) →
      Spaced isSep words rest → Spaced isSep (word :: words) (gap ++ word ++ rest)

section

variable {isSep : UInt8 → Bool} {offset : Nat} {s gap word rest : Bytes} {words : List Bytes}

theorem wordsFrom_eq_nil_iff : wordsFrom isSep offset s = [] ↔ ∀ b ∈ s, isSep b = true := by
  induction s generalizing offset with
  | nil => simp [wordsFrom]
  | cons b rest ih =>
    rw [wordsFrom]
    split
    · next h => simp [ih, h]
    · next h => simp [h]

theorem map_text_wordsFrom (isSep : UInt8 → Bool) (offset : Nat) (s : Bytes) :
    (wordsFrom isSep offset s).map (·.text) = wordTexts isSep s := by
  unfold wordTexts
  generalize 0 = start
  fun_induction wordsFrom isSep offset s generalizing start with
  | case1 => rw [wordsFrom]
  | case2 offset b rest hb ih => rw [wordsFrom, if_pos hb, ih]
  | case3 offset b rest hb run ih =>
    rw [wordsFrom, if_neg hb]
    simp only [List.map_cons]
    rw [ih]

theorem wordTexts_gap_append (hgap : ∀ b ∈ gap, isSep b = true) (s : Bytes) :
    wordTexts isSep (gap ++ s) = wordTexts isSep s := by
  induction gap with
  | nil => rfl
  | cons b gap ih =>
    obtain ⟨hb, hgap⟩ := List.forall_mem_cons.mp hgap
    rw [wordTexts, List.cons_append, wordsFrom, if_pos hb, map_text_wordsFrom, ih hgap]

theorem wordTexts_word_append (hne : word ≠ []) (hword : ∀ b ∈ word, isSep b = false)
    (hrest : ∀ b ∈ rest.head?, isSep b = true) :
    wordTexts isSep (word ++ rest) = word :: wordTexts isSep rest := by
  obtain ⟨b, bs, rfl⟩ := List.exists_cons_of_ne_nil hne
  obtain ⟨hb, hbs⟩ := List.forall_mem_cons.mp hword
  have hrun : (bs ++ rest).takeWhile (fun c => !isSep c) = bs := by
    rw [List.takeWhile_append_of_pos fun c hc => by simp [hbs c hc]]
    cases rest with
    | nil => simp
    | cons c rest => simp [hrest c rfl]
  rw [wordTexts, List.cons_append, wordsFrom, if_neg (by simp [hb])]
  simp only [hrun, List.map_cons, List.drop_left, map_text_wordsFrom]

theorem Spaced.gap_append (hgap : ∀ b ∈ gap, isSep b = true) (h : Spaced isSep words s) :
    Spaced isSep words (gap ++ s) := by
  have join : ∀ {gap' : Bytes}, (∀ b ∈ gap', isSep b = true) → ∀ b ∈ gap ++ gap', isSep b = true :=
    fun h' b hb => (List.mem_append.mp hb).elim (hgap b) (h' b)
  cases h with
  | blank h => exact .blank (join h)
  | word h hne hword hrest hwords =>
    rw [← List.append_assoc, ← List.append_assoc]
    exact .word (join h) hne hword hrest hwords

theorem Spaced.append_gap (h : Spaced isSep words s) (hgap : ∀ b ∈ gap, isSep b = true) :
    Spaced isSep words (s ++ gap) := by
  induction h with
  | blank h => exact .blank fun b hb => (List.mem_append.mp hb).elim (h b) (hgap b)
  | @word _ _ rest _ h hne hword hrest _ ih =>
    rw [List.append_assoc]
    refine .word h hne hword ?_ ih
    cases rest with
    | nil => exact fun b hb => hgap b (List.mem_of_head? hb)
    | cons b rest => exact hrest

/-- The first byte of a text that is no separator is that of its first word. -/
theorem Spaced.find?_eq (h : Spaced isSep words s) :
    s.find? (fun b => !isSep b) = words.head?.bind List.head? := by
  have skip : ∀ {gap rest : Bytes}, (∀ b ∈ gap, isSep b = true) →
      (gap ++ rest).find? (fun b => !isSep b) = rest.find? fun b => !isSep b := by
    intro gap rest hgap
    have hnone : gap.find? (fun b => !isSep b) = none :=
      List.find?_eq_none.mpr fun b hb => by simp [hgap b hb]
    rw [List.find?_append, hnone, Option.none_or]
  cases h with
  | blank hgap => exact (congrArg _ (List.append_nil s).symm).trans (skip hgap)
  | word hgap hne hword =>
    obtain ⟨b, bs, rfl⟩ := List.exists_cons_of_ne_nil hne
    rw [List.append_assoc, skip hgap, List.cons_append,
      List.find?_cons_of_pos (by simp [hword b List.mem_cons_self])]
    rfl

theorem spaced_intercalate {sep : UInt8} (hsep : isSep sep = true)
    (h : ∀ w ∈ words, w ≠ [] ∧ ∀ b ∈ w, isSep b = false) :
    Spaced isSep words ([sep].intercalate words) := by
  induction words with
  | nil => exact .blank (List.forall_mem_nil _)
  | cons w words ih =>
    obtain ⟨⟨hne, hw⟩, hwords⟩ := List.forall_mem_cons.mp h
    cases words with
    | nil =>
      have h : Spaced isSep [w] ([] ++ w ++ []) :=
        .word (List.forall_mem_nil _) hne hw (by simp) (.blank (List.forall_mem_nil _))
      rw [List.intercalate_singleton]
      rwa [List.append_nil] at h
    | cons next more =>
      rw [List.intercalate_cons_cons, List.append_assoc]
      have hrest : Spaced isSep (next :: more) ([sep] ++ [sep].intercalate (next :: more)) :=
        .gap_append (List.forall_mem_singleton.mpr hsep) (ih hwords)
      have hnone : ∀ b ∈ ([] : Bytes), isSep b = true := List.forall_mem_nil _
      exact .word hnone hne hw (by rintro b ⟨⟩; exact hsep) hrest

theorem spaced_wordTexts (isSep : UInt8 → Bool) (s : Bytes) :
    Spaced isSep (wordTexts isSep s) s := by
  unfold wordTexts
  fun_induction wordsFrom isSep 0 s with
  | case1 => exact .blank (List.forall_mem_nil _)
  | case2 offset b rest hb ih => exact .gap_append (List.forall_mem_singleton.mpr hb) ih
  | case3 offset b rest hb run ih =>
    have hsplit : b :: rest = [] ++ (b :: run) ++ rest.drop run.length := by
      rw [List.nil_append, List.cons_append]
      exact congrArg _ (List.prefix_iff_eq_append.mp (List.takeWhile_prefix _)).symm
    rw [List.map_cons, hsplit]
    refine .word (List.forall_mem_nil _) (List.cons_ne_nil _ _) ?_ (fun c => isSep_of_head?_drop) ih
    refine List.forall_mem_cons.mpr ⟨by simpa using hb, fun c hc => ?_⟩
    simpa using List.all_eq_true.mp List.all_takeWhile c hc

theorem wordTexts_eq_iff : wordTexts isSep s = words ↔ Spaced isSep words s := by
  constructor
  · rintro rfl
    exact spaced_wordTexts isSep s
  · intro h
    induction h with
    | blank hgap =>
      rw [wordTexts, wordsFrom_eq_nil_iff.mpr hgap]
      rfl
    | word hgap hne hword hrest _ ih =>
      rw [List.append_assoc, wordTexts_gap_append hgap, wordTexts_word_append hne hword hrest, ih]

end

end HostLookup.Bytes
