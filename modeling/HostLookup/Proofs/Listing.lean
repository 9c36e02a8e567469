import HostLookup.Hosts.Index
import HostLookup.Proofs.Run

/-!
# What a hosts file lists

A listing is a name on a line: the line, the word in front, which is the address
of the line, and the later word that is the name. `Listing.IsIn` says by offsets
alone which listings a content has; `mem_mentions` shows that the scan of the
content finds these and no others, and `pairwise_mentions` that it finds them in
file order.
-/

namespace HostLookup.Hosts

open Bytes

/-- Lines are cut at line feeds only; the last one need not end in one. -/
def IsLine (data : Bytes) (l : Span) : Prop := IsRun (· == newline) data l

/-- Words are cut at blanks and are not empty. -/
def IsWord (line : Bytes) (w : Span) : Prop := IsRun isBlank line w ∧ w.start < w.stop

/-- The line is no comment, its first word `a` and a later one `n` are not too long. -/
structure Lists (line : Bytes) (a n : Span) : Prop where
  visible : line.head? ≠ some 35
  address : IsWord line a
  first : ∀ w, IsWord line w → a.start ≤ w.start
  address_le : a.length ≤ 64
  name : IsWord line n
  later : a.start < n.start
  name_le : n.length ≤ 255

/-- A line of a content and two words of the line, whose offsets count from its start. -/
structure Listing where
  line : Span
  address : Span
  name : Span
  deriving DecidableEq, Repr

namespace Listing

structure IsIn (x : Listing) (data : Bytes) : Prop where
  line : IsLine data x.line
  lists : Lists (x.line.of data) x.address x.name

def entry (x : Listing) : Entry := ⟨x.line.start + x.address.start, x.line.start + x.name.start⟩

def text (x : Listing) (data : Bytes) : Bytes := x.name.of (x.line.of data)

def mention (x : Listing) (data : Bytes) : Mention :=
  ⟨x.entry.address, ⟨x.entry.name, x.text data⟩⟩

end Listing

/-! ## One line -/

section

variable {line data : Bytes} {offset : Nat} {v w a n : Span} {m : Mention}

theorem IsWord.length_pos (h : IsWord line w) : 0 < w.length := by
  have := h.2
  unfold Span.length
  omega

theorem IsWord.eq_of_start (hv : IsWord line v) (hw : IsWord line w) (h : v.start = w.start) :
    v = w :=
  hv.1.eq_of_meet hw.1 (Nat.le_refl _) hv.1.le (Nat.le_of_eq h.symm) (h ▸ hw.1.le)

theorem mem_words {x : Word} :
    x ∈ wordsFrom isBlank offset line ↔
      ∃ w, IsWord line w ∧ x = ⟨offset + w.start, w.of line⟩ := by
  rw [mem_wordsFrom]
  constructor
  · rintro ⟨⟨w, hw, rfl⟩, hne⟩
    refine ⟨w, ⟨hw, ?_⟩, rfl⟩
    have hlen := Span.length_of hw.stop_le
    have := List.length_pos_iff.mpr hne
    simp only [Span.length] at hlen this
    omega
  · rintro ⟨w, hw, rfl⟩
    refine ⟨⟨w, hw.1, rfl⟩, ?_⟩
    have hlen := Span.length_of hw.1.stop_le
    have := hw.length_pos
    refine List.ne_nil_of_length_pos ?_
    simp only
    omega

theorem words_eq_cons {x : Word} {xs : List Word} (h : wordsFrom isBlank offset line = x :: xs) :
    ∃ a, IsWord line a ∧ (∀ w, IsWord line w → a.start ≤ w.start) ∧
      x = ⟨offset + a.start, a.of line⟩ ∧
      ∀ y, y ∈ xs ↔ ∃ n, IsWord line n ∧ a.start < n.start ∧ y = ⟨offset + n.start, n.of line⟩ := by
  have hmem : ∀ y, y ∈ x :: xs ↔ ∃ w, IsWord line w ∧ y = ⟨offset + w.start, w.of line⟩ := by
    intro y
    rw [← h]
    exact mem_words
  have hsorted := pairwise_wordsFrom isBlank offset line
  rw [h] at hsorted
  obtain ⟨hfirst, -⟩ := List.pairwise_cons.mp hsorted
  obtain ⟨a, ha, rfl⟩ := (hmem x).mp List.mem_cons_self
  refine ⟨a, ha, fun w hw => ?_, rfl, fun y => ⟨fun hy => ?_, ?_⟩⟩
  · rcases List.mem_cons.mp ((hmem _).mpr ⟨w, hw, rfl⟩) with he | he
    · rw [Word.mk.injEq] at he
      omega
    · have := hfirst _ he
      simp only at this
      omega
  · obtain ⟨n, hn, rfl⟩ := (hmem y).mp (List.mem_cons_of_mem _ hy)
    have := hfirst _ hy
    simp only at this
    exact ⟨n, hn, by omega, rfl⟩
  · rintro ⟨n, hn, hlt, rfl⟩
    rcases List.mem_cons.mp ((hmem _).mpr ⟨n, hn, rfl⟩) with he | he
    · rw [Word.mk.injEq] at he
      omega
    · exact he

/-- The first word of a line and a later one, neither too long, unless the line is a comment. -/
theorem mem_lineMentions :
    m ∈ lineMentions offset line ↔
      ∃ a n, Lists line a n ∧ m = ⟨offset + a.start, ⟨offset + n.start, n.of line⟩⟩ := by
  have hlen : ∀ {w}, IsWord line w → (w.of line).length = w.length := fun h =>
    Span.length_of h.1.stop_le
  unfold lineMentions
  split
  · next hc =>
    constructor
    · intro h
      cases h
    · rintro ⟨a, n, h, -⟩
      exact absurd hc h.visible
  · next hc =>
    split
    · next hnil =>
      constructor
      · intro h
        cases h
      · rintro ⟨a, n, h, -⟩
        have hmem : (⟨offset + a.start, a.of line⟩ : Word) ∈ wordsFrom isBlank offset line :=
          mem_words.mpr ⟨a, h.address, rfl⟩
        rw [hnil] at hmem
        cases hmem
    · next address names hcons =>
      obtain ⟨a, ha, hmin, rfl, hnames⟩ := words_eq_cons hcons
      simp only [hlen ha]
      constructor
      · intro h
        split at h
        · next hle =>
          obtain ⟨x, hx, rfl⟩ := List.mem_map.mp h
          obtain ⟨hx, hlt⟩ := List.mem_filter.mp hx
          obtain ⟨n, hn, hlater, rfl⟩ := (hnames x).mp hx
          rw [decide_eq_true_eq, hlen hn] at hlt
          exact ⟨a, n, ⟨hc, ha, hmin, hle, hn, hlater, Nat.le_of_lt_succ hlt⟩, rfl⟩
        · cases h
      · rintro ⟨a', n, h, rfl⟩
        obtain rfl : a' = a := h.address.eq_of_start ha
          (Nat.le_antisymm (h.first a ha) (hmin a' h.address))
        rw [if_pos (show a'.length ≤ maxAddressLength from h.address_le)]
        refine List.mem_map.mpr ⟨_, List.mem_filter.mpr
          ⟨(hnames _).mpr ⟨n, h.name, h.later, rfl⟩, ?_⟩, rfl⟩
        rw [decide_eq_true_eq, hlen h.name]
        exact Nat.lt_succ_of_le h.name_le

theorem pairwise_lineMentions :
    (lineMentions offset line).Pairwise fun m m' => m.name.offset < m'.name.offset := by
  have hsorted := pairwise_wordsFrom isBlank offset line
  unfold lineMentions
  split
  · exact .nil
  · split
    · exact .nil
    · next address names hcons =>
      split
      · rw [hcons] at hsorted
        exact List.pairwise_map.mpr ((List.pairwise_cons.mp hsorted).2.filter _)
      · exact .nil

theorem bounds_of_mem_lineMentions (h : m ∈ lineMentions offset line) :
    offset ≤ m.name.offset ∧ m.name.offset < offset + line.length := by
  obtain ⟨a, n, hl, rfl⟩ := mem_lineMentions.mp h
  have := hl.name.1.stop_le
  have := hl.name.2
  simp only
  omega

end

/-! ## All lines -/

section

variable {data : Bytes} {m : Mention} {x y : Listing}

theorem mentionsOfLines_eq (offset : Nat) (lines : List Bytes) :
    mentionsOfLines offset lines =
      (placedFrom offset lines).flatMap fun l => lineMentions l.offset l.text := by
  induction lines generalizing offset with
  | nil => rfl
  | cons line lines ih => rw [mentionsOfLines, placedFrom, List.flatMap_cons, ih]

/-- The scan of a content finds what it lists and nothing else. -/
theorem mem_mentions : m ∈ mentions data ↔ ∃ x : Listing, x.IsIn data ∧ m = x.mention data := by
  rw [mentions, mentionsOfLines_eq, List.mem_flatMap]
  constructor
  · rintro ⟨l, hl, hm⟩
    obtain ⟨line, hline, rfl⟩ := mem_placedFrom_splitOn.mp hl
    obtain ⟨a, n, hlists, rfl⟩ := mem_lineMentions.mp hm
    refine ⟨⟨line, a, n⟩, ⟨hline, hlists⟩, ?_⟩
    simp only [Listing.mention, Listing.entry, Listing.text, Nat.zero_add]
  · rintro ⟨⟨line, a, n⟩, ⟨hline, hlists⟩, rfl⟩
    refine ⟨_, mem_placedFrom_splitOn.mpr ⟨line, hline, rfl⟩, ?_⟩
    refine mem_lineMentions.mpr ⟨a, n, hlists, ?_⟩
    simp only [Listing.mention, Listing.entry, Listing.text, Nat.zero_add]

/-- The scan goes through the content from its start to its end. -/
theorem pairwise_mentions (data : Bytes) :
    (mentions data).Pairwise fun m m' => m.name.offset < m'.name.offset := by
  rw [mentions, mentionsOfLines_eq, List.pairwise_flatMap]
  refine ⟨fun _ _ => pairwise_lineMentions, ?_⟩
  refine (pairwise_placedFrom (splitOn newline data)).imp fun h m hm m' hm' => ?_
  have := bounds_of_mem_lineMentions hm
  have := bounds_of_mem_lineMentions hm'
  omega

end

/-! ## Offsets in the content -/

section

variable {data : Bytes} {l w : Span} {x y : Listing}

theorem isBlank_of_beq_newline (b : UInt8) (h : (b == newline) = true) : isBlank b = true := by
  rw [eq_of_beq h]
  rfl

theorem token_of_isRun {s : Bytes} (h : IsRun isBlank s w) : token s w.start = w.of s :=
  h.takeWhile_eq

theorem token_of_isLine (hl : IsLine data l) (hw : IsWord (l.of data) w) :
    token data (l.start + w.start) = w.of (l.of data) := by
  have hrun := IsRun.within isBlank_of_beq_newline hl hw.1
  have hstop := hw.1.stop_le
  rw [Span.length_of hl.stop_le] at hstop
  unfold Span.length at hstop
  have hle := hl.le
  have := token_of_isRun hrun
  rwa [Span.of_shift (by omega), Span.shift_start, Nat.add_comm] at this

theorem lt_of_isLine (hl : IsLine data l) (hw : IsWord (l.of data) w) :
    l.start + w.start < l.stop := by
  have hstop := hw.1.stop_le
  rw [Span.length_of hl.stop_le] at hstop
  unfold Span.length at hstop
  have := hw.2
  omega

namespace Listing

theorem IsIn.token_name (h : x.IsIn data) : token data x.entry.name = x.text data :=
  token_of_isLine h.line h.lists.name

theorem IsIn.ext (hx : x.IsIn data) (hy : y.IsIn data) (hl : x.line = y.line)
    (hn : x.name = y.name) : x = y := by
  obtain ⟨line, a, n⟩ := x
  obtain ⟨line', a', n'⟩ := y
  simp only at hl hn
  subst hl hn
  have : a = a' := hx.lists.address.eq_of_start hy.lists.address
    (Nat.le_antisymm (hx.lists.first _ hy.lists.address) (hy.lists.first _ hx.lists.address))
  rw [this]

theorem IsIn.eq_of_entry_name (hx : x.IsIn data) (hy : y.IsIn data)
    (h : x.entry.name = y.entry.name) : x = y := by
  have hltx := lt_of_isLine hx.line hx.lists.name
  have hlty := lt_of_isLine hy.line hy.lists.name
  simp only [entry] at h
  have hl : x.line = y.line := IsRun.eq_of_meet hx.line hy.line (i := x.line.start + x.name.start)
    (by omega) (by omega) (by omega) (by omega)
  refine hx.ext hy hl (hx.lists.name.eq_of_start (hl ▸ hy.lists.name) ?_)
  rw [hl] at h
  omega

end Listing

end

end HostLookup.Hosts
