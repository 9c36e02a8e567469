import HostLookup.Bytes

/-!
# Runs of a byte string

A span is a stretch of a byte string by its two ends. `IsRun` says which spans
are runs between separators, without saying how they are found: the lines of a
content are its runs between line feeds, the words of a text its runs between
blanks that are not empty. `mem_placedFrom_splitOn` and `mem_wordsFrom` relate
the two functions that cut byte strings to it.
-/

namespace HostLookup.Bytes

theorem drop_length_takeWhile {α : Type} (p : α → Bool) (l : List α) :
    l.drop (l.takeWhile p).length = l.dropWhile p := by
  have h : (l.takeWhile p ++ l.dropWhile p).drop (l.takeWhile p).length = _ := List.drop_left
  rwa [List.takeWhile_append_dropWhile] at h

/-- The bytes from `start` up to `stop`, that one left out. -/
structure Span where
  start : Nat
  stop : Nat
  deriving DecidableEq, Repr

namespace Span

def length (x : Span) : Nat := x.stop - x.start

def of (x : Span) (s : Bytes) : Bytes := (s.take x.stop).drop x.start

def shift (x : Span) (n : Nat) : Span := ⟨x.start + n, x.stop + n⟩

@[simp] theorem shift_start (x : Span) (n : Nat) : (x.shift n).start = x.start + n := rfl

@[simp] theorem shift_stop (x : Span) (n : Nat) : (x.shift n).stop = x.stop + n := rfl

theorem mem_of {x : Span} {s : Bytes} {b : UInt8} :
    b ∈ x.of s ↔ ∃ i, x.start ≤ i ∧ i < x.stop ∧ s[i]? = some b := by
  unfold of
  rw [List.mem_iff_getElem?]
  constructor
  · rintro ⟨i, hi⟩
    rw [List.getElem?_drop, List.getElem?_take] at hi
    split at hi
    · exact ⟨x.start + i, by omega, by omega, hi⟩
    · cases hi
  · rintro ⟨i, h1, h2, hi⟩
    refine ⟨i - x.start, ?_⟩
    rw [List.getElem?_drop, List.getElem?_take, if_pos (by omega)]
    rwa [show x.start + (i - x.start) = i by omega]

theorem of_shift_append (x : Span) (p r : Bytes) : (x.shift p.length).of (p ++ r) = x.of r := by
  simp only [of, shift, Nat.add_comm _ p.length, List.take_append, List.drop_append]
  simp

theorem of_shift_append_cons (x : Span) (p : Bytes) (c : UInt8) (r : Bytes) :
    (x.shift (p.length + 1)).of (p ++ c :: r) = x.of r := by
  have := x.of_shift_append (p ++ [c]) r
  rwa [List.length_append, List.append_assoc] at this

theorem of_zero_append (p r : Bytes) : (Span.mk 0 p.length).of (p ++ r) = p := by
  simp [of]

theorem of_append {x : Span} {s : Bytes} (h : x.stop ≤ s.length) (t : Bytes) :
    x.of (s ++ t) = x.of s := by
  rw [of, of, List.take_append_of_le_length h]

theorem getElem?_of {x : Span} {s : Bytes} {i : Nat} (h : i < x.stop - x.start) :
    (x.of s)[i]? = s[x.start + i]? := by
  rw [of, List.getElem?_drop, List.getElem?_take, if_pos (by omega)]

theorem of_shift {x y : Span} {s : Bytes} (h : x.stop + y.start ≤ y.stop) :
    (x.shift y.start).of s = x.of (y.of s) := by
  simp only [of, shift]
  rw [List.take_drop, List.drop_drop, List.take_take, Nat.min_eq_left (by omega),
    Nat.add_comm y.start x.stop, Nat.add_comm y.start x.start]

theorem length_of {x : Span} {s : Bytes} (h : x.stop ≤ s.length) : (x.of s).length = x.length := by
  simp only [of, length, List.length_drop, List.length_take]
  omega

end Span

/-- A span without separators that none but a separator, or an end of the string, adjoins. -/
structure IsRun (isSep : UInt8 → Bool) (s : Bytes) (x : Span) : Prop where
  le : x.start ≤ x.stop
  stop_le : x.stop ≤ s.length
  solid : ∀ b ∈ x.of s, isSep b = false
  before : x.start = 0 ∨ ∃ b, s[x.start - 1]? = some b ∧ isSep b = true
  after : x.stop = s.length ∨ ∃ b, s[x.stop]? = some b ∧ isSep b = true

namespace IsRun

variable {isSep : UInt8 → Bool} {s p r : Bytes} {c : UInt8} {x y : Span}

theorem not_sep (h : IsRun isSep s x) {i : Nat} (h1 : x.start ≤ i) (h2 : i < x.stop) {b : UInt8}
    (hb : s[i]? = some b) (hs : isSep b = true) : False := by
  have := h.solid b (Span.mem_of.mpr ⟨i, h1, h2, hb⟩)
  rw [hs] at this
  cases this

theorem start_le (hx : IsRun isSep s x) (hy : IsRun isSep s y) {i : Nat} (h1 : y.start ≤ i)
    (h2 : i ≤ x.stop) : y.start ≤ x.start := by
  rcases hy.before with h0 | ⟨b, hb, hs⟩
  · omega
  · rcases Nat.lt_or_ge x.start y.start with hlt | hge
    · exact (hx.not_sep (i := y.start - 1) (by omega) (by omega) hb hs).elim
    · exact hge

theorem stop_le_stop (hx : IsRun isSep s x) (hy : IsRun isSep s y) {i : Nat} (h1 : x.start ≤ i)
    (h2 : i ≤ y.stop) : x.stop ≤ y.stop := by
  rcases hy.after with he | ⟨b, hb, hs⟩
  · have := hx.stop_le
    omega
  · rcases Nat.lt_or_ge y.stop x.stop with hlt | hge
    · exact (hx.not_sep (i := y.stop) (by omega) hlt hb hs).elim
    · exact hge

/-- Runs that meet are one. -/
theorem eq_of_meet (hx : IsRun isSep s x) (hy : IsRun isSep s y) {i : Nat} (h1 : x.start ≤ i)
    (h2 : i ≤ x.stop) (h3 : y.start ≤ i) (h4 : i ≤ y.stop) : x = y := by
  have hs := hx.start_le hy h3 h2
  have hs' := hy.start_le hx h1 h4
  have ht := hx.stop_le_stop hy h1 h4
  have ht' := hy.stop_le_stop hx h3 h2
  cases x
  cases y
  simp only at hs hs' ht ht'
  simp only [Span.mk.injEq]
  omega

theorem iff_of_solid (hp : ∀ b ∈ p, isSep b = false) :
    IsRun isSep p x ↔ x = ⟨0, p.length⟩ := by
  have whole : IsRun isSep p ⟨0, p.length⟩ :=
    ⟨Nat.zero_le _, Nat.le_refl _, by simpa [Span.of] using hp, .inl rfl, .inl rfl⟩
  constructor
  · intro h
    exact h.eq_of_meet whole (Nat.le_refl _) h.le (Nat.zero_le _)
      (Nat.le_trans h.le h.stop_le)
  · rintro rfl
    exact whole

theorem front (hp : ∀ b ∈ p, isSep b = false) (hc : isSep c = true) :
    IsRun isSep (p ++ c :: r) ⟨0, p.length⟩ := by
  refine ⟨Nat.zero_le _, by simp, ?_, .inl rfl, .inr ⟨c, by simp, hc⟩⟩
  rwa [Span.of_zero_append]

/-- Past a separator the runs are those of the rest. -/
theorem shift_iff (hc : isSep c = true) :
    IsRun isSep (p ++ c :: r) (y.shift (p.length + 1)) ↔ IsRun isSep r y := by
  have hof := Span.of_shift_append_cons y p c r
  have hat : ∀ i, (p ++ c :: r)[i + (p.length + 1)]? = r[i]? := by
    intro i
    rw [List.getElem?_append_right (by omega), show i + (p.length + 1) - p.length = i + 1 by omega,
      List.getElem?_cons_succ]
  have hlen : (p ++ c :: r).length = r.length + (p.length + 1) := by
    simp only [List.length_append, List.length_cons]
    omega
  have hbefore : (y.start + (p.length + 1) = 0 ∨
      ∃ b, (p ++ c :: r)[y.start + (p.length + 1) - 1]? = some b ∧ isSep b = true) ↔
      (y.start = 0 ∨ ∃ b, r[y.start - 1]? = some b ∧ isSep b = true) := by
    rcases Nat.eq_zero_or_pos y.start with h0 | hpos
    · -- what comes before the first run of the rest is the separator
      rw [h0, Nat.zero_add, Nat.add_sub_cancel]
      simp [hc]
    · rw [show y.start + (p.length + 1) - 1 = y.start - 1 + (p.length + 1) by omega, hat]
      simp [Nat.ne_of_gt hpos]
  constructor
  · rintro ⟨hle, hstop, hsolid, hbefore', hafter⟩
    simp only [Span.shift_start, Span.shift_stop, hlen, hat, Nat.add_right_cancel_iff] at *
    exact ⟨by omega, by omega, hof ▸ hsolid, hbefore.mp hbefore', hafter⟩
  · rintro ⟨hle, hstop, hsolid, hbefore', hafter⟩
    refine ⟨?_, ?_, hof.symm ▸ hsolid, hbefore.mpr hbefore', ?_⟩
    · simp only [Span.shift_start, Span.shift_stop]
      omega
    · simp only [Span.shift_stop, hlen]
      omega
    · simpa only [Span.shift_stop, hlen, hat, Nat.add_right_cancel_iff] using hafter

theorem append_iff (hc : isSep c = true) (hx : x.start ≤ p.length) :
    IsRun isSep (p ++ c :: r) x ↔ IsRun isSep p x := by
  have hat : ∀ i < p.length, (p ++ c :: r)[i]? = p[i]? := fun i => List.getElem?_append_left
  have hmark : (p ++ c :: r)[p.length]? = some c := by
    rw [List.getElem?_append_right (Nat.le_refl _), Nat.sub_self]
    rfl
  have hbefore : (x.start = 0 ∨ ∃ b, (p ++ c :: r)[x.start - 1]? = some b ∧ isSep b = true) ↔
      (x.start = 0 ∨ ∃ b, p[x.start - 1]? = some b ∧ isSep b = true) := by
    rcases Nat.eq_zero_or_pos x.start with h0 | hpos
    · simp [h0]
    · rw [hat _ (by omega)]
  constructor
  · intro h
    have hstop : x.stop ≤ p.length := by
      refine Nat.le_of_not_lt fun hlt => ?_
      exact h.not_sep hx hlt hmark hc
    refine ⟨h.le, hstop, Span.of_append hstop _ ▸ h.solid, hbefore.mp h.before, ?_⟩
    rcases Nat.lt_or_eq_of_le hstop with hlt | heq
    · rcases h.after with hend | hsep
      · rw [hend, List.length_append] at hlt
        omega
      · rw [hat _ hlt] at hsep
        exact .inr hsep
    · exact .inl heq
  · intro h
    refine ⟨h.le, ?_, (Span.of_append h.stop_le _).symm ▸ h.solid, hbefore.mpr h.before, ?_⟩
    · rw [List.length_append]
      exact Nat.le_add_right_of_le h.stop_le
    · rcases Nat.lt_or_eq_of_le h.stop_le with hlt | heq
      · rw [hat _ hlt]
        exact .inr (h.after.resolve_left (Nat.ne_of_lt hlt))
      · rw [heq]
        exact .inr ⟨c, hmark, hc⟩

/-- The runs of a string are its front and those past its first separator. -/
theorem iff_of_front (hp : ∀ b ∈ p, isSep b = false) (hc : isSep c = true) :
    IsRun isSep (p ++ c :: r) x ↔
      x = ⟨0, p.length⟩ ∨ ∃ y, IsRun isSep r y ∧ x = y.shift (p.length + 1) := by
  constructor
  · intro h
    rcases Nat.lt_or_ge p.length x.start with hlt | hge
    · have hx : x = (Span.mk (x.start - (p.length + 1)) (x.stop - (p.length + 1))).shift
          (p.length + 1) := by
        have := h.le
        cases x
        simp only [Span.shift, Span.mk.injEq] at this hlt ⊢
        omega
      refine .inr ⟨_, ?_, hx⟩
      rw [hx] at h
      exact (shift_iff hc).mp h
    · exact .inl (h.eq_of_meet (front hp hc) (Nat.le_refl _) h.le (Nat.zero_le _) hge)
  · rintro (rfl | ⟨y, hy, rfl⟩)
    · exact front hp hc
    · exact (shift_iff hc).mpr hy

theorem takeWhile_eq (h : IsRun isSep s x) :
    ((s.drop x.start).takeWhile fun b => !isSep b) = x.of s := by
  have hsplit : s.drop x.start = x.of s ++ s.drop x.stop := by
    have hlen : x.start + (x.of s).length = x.stop := by
      rw [Span.length_of h.stop_le, Span.length]
      have := h.le
      omega
    conv => lhs; rw [← List.take_append_drop x.stop s]
    rw [List.drop_append, List.length_take, Nat.min_eq_left h.stop_le,
      Nat.sub_eq_zero_of_le h.le, List.drop_zero]
    rfl
  rw [hsplit, List.takeWhile_append_of_pos (fun b hb => by simp [h.solid b hb])]
  cases hd : s.drop x.stop with
  | nil => simp
  | cons c r =>
    have hc : s[x.stop]? = some c := by
      have : (s.drop x.stop)[0]? = some c := by rw [hd]; rfl
      simpa using this
    have hs : isSep c = true := by
      rcases h.after with he | ⟨b, hb, hs⟩
      · rw [he, List.getElem?_eq_none (Nat.le_refl _)] at hc
        cases hc
      · rw [hb] at hc
        cases hc
        exact hs
    simp [hs]

/-- A run inside a run of fewer separators is a run of the whole. -/
theorem within {isSep' : UInt8 → Bool} (hsub : ∀ b, isSep' b = true → isSep b = true)
    (hl : IsRun isSep' s y) (h : IsRun isSep (y.of s) x) : IsRun isSep s (x.shift y.start) := by
  have hlen : (y.of s).length = y.stop - y.start := Span.length_of hl.stop_le
  have hle := hl.le
  have hstop := hl.stop_le
  have hxle := h.le
  have hxstop := h.stop_le
  rw [hlen] at hxstop
  refine ⟨by simpa using hxle, ?_, ?_, ?_, ?_⟩
  · rw [Span.shift_stop]
    omega
  · rw [Span.of_shift (by omega)]
    exact h.solid
  · rcases Nat.eq_zero_or_pos x.start with h0 | hpos
    · rw [Span.shift_start, h0, Nat.zero_add]
      rcases hl.before with h0' | ⟨b, hb, hs⟩
      · exact .inl h0'
      · exact .inr ⟨b, hb, hsub b hs⟩
    · rcases h.before with h0 | ⟨b, hb, hs⟩
      · omega
      · rw [Span.getElem?_of (by omega)] at hb
        refine .inr ⟨b, ?_, hs⟩
        rw [Span.shift_start, show x.start + y.start - 1 = y.start + (x.start - 1) by omega]
        exact hb
  · rw [Span.shift_stop]
    rcases h.after with he | ⟨b, hb, hs⟩
    · rw [hlen] at he
      rw [he, Nat.sub_add_cancel hle]
      rcases hl.after with he' | ⟨b, hb, hs⟩
      · exact .inl he'
      · exact .inr ⟨b, hb, hsub b hs⟩
    · have hlt : x.stop < y.stop - y.start := by
        have := (List.getElem?_eq_some_iff.mp hb).1
        omega
      rw [Span.getElem?_of (by omega), Nat.add_comm] at hb
      exact .inr ⟨b, hb, hs⟩

end IsRun

/-! ## Cutting -/

/-- A word of `s` with its offset, where `s` itself starts at an offset. -/
def IsRunAt (isSep : UInt8 → Bool) (offset : Nat) (s : Bytes) (w : Word) : Prop :=
  ∃ x : Span, IsRun isSep s x ∧ w = ⟨offset + x.start, x.of s⟩

section

variable {isSep : UInt8 → Bool} {offset : Nat} {p r s : Bytes} {c : UInt8} {w : Word}

theorem isRunAt_solid (hp : ∀ b ∈ p, isSep b = false) :
    IsRunAt isSep offset p w ↔ w = ⟨offset, p⟩ := by
  simp [IsRunAt, IsRun.iff_of_solid hp, Span.of]

theorem isRunAt_front (hp : ∀ b ∈ p, isSep b = false) (hc : isSep c = true) :
    IsRunAt isSep offset (p ++ c :: r) w ↔
      w = ⟨offset, p⟩ ∨ IsRunAt isSep (offset + p.length + 1) r w := by
  have hof := fun y : Span => y.of_shift_append_cons p c r
  have hoff : ∀ n, offset + (n + (p.length + 1)) = offset + p.length + 1 + n := by
    intro n
    omega
  unfold IsRunAt
  constructor
  · rintro ⟨x, hx, rfl⟩
    rcases (IsRun.iff_of_front hp hc).mp hx with rfl | ⟨y, hy, rfl⟩
    · left
      rw [Span.of_zero_append, Nat.add_zero]
    · right
      exact ⟨y, hy, by rw [hof, Span.shift_start, hoff]⟩
  · rintro (rfl | ⟨y, hy, rfl⟩)
    · exact ⟨_, IsRun.front hp hc, by rw [Span.of_zero_append, Nat.add_zero]⟩
    · exact ⟨_, (IsRun.shift_iff hc).mpr hy, by rw [hof, Span.shift_start, hoff]⟩

theorem isRunAt_sep (hc : isSep c = true) :
    IsRunAt isSep offset (c :: r) w ↔ w = ⟨offset, []⟩ ∨ IsRunAt isSep (offset + 1) r w := by
  simpa using isRunAt_front (p := []) (r := r) (w := w) (by simp) hc

theorem IsRunAt.le_offset (h : IsRunAt isSep offset s w) :
    offset ≤ w.offset ∧ w.offset + w.text.length ≤ offset + s.length := by
  obtain ⟨x, hx, rfl⟩ := h
  have := hx.le
  have := hx.stop_le
  have := Span.length_of hx.stop_le
  unfold Span.length at this
  simp only
  omega

theorem isRunAt_append (hp : ∀ b ∈ p, isSep b = false) (hne : p ≠ [])
    (hr : ∀ c, r.head? = some c → isSep c = true) :
    IsRunAt isSep offset (p ++ r) w ∧ w.text ≠ [] ↔
      w = ⟨offset, p⟩ ∨ IsRunAt isSep (offset + p.length) r w ∧ w.text ≠ [] := by
  cases r with
  | nil =>
    rw [List.append_nil, isRunAt_solid hp, isRunAt_solid (by simp)]
    constructor
    · rintro ⟨rfl, -⟩
      exact .inl rfl
    · rintro (rfl | ⟨rfl, h⟩)
      · exact ⟨rfl, hne⟩
      · exact absurd rfl h
  | cons c r =>
    have hc := hr c rfl
    rw [isRunAt_front hp hc, isRunAt_sep hc]
    constructor
    · rintro ⟨rfl | h, hw⟩
      · exact .inl rfl
      · exact .inr ⟨.inr h, hw⟩
    · rintro (rfl | ⟨rfl | h, hw⟩)
      · exact ⟨.inl rfl, hne⟩
      · exact absurd rfl hw
      · exact ⟨.inr h, hw⟩

theorem isSep_of_head?_drop
    (h : (s.drop (s.takeWhile fun b => !isSep b).length).head? = some c) : isSep c = true := by
  rw [drop_length_takeWhile] at h
  have := List.head?_dropWhile_not (fun b => !isSep b) s
  rw [h] at this
  simpa using this

/-- The words of a string are its runs that are not empty. -/
theorem mem_wordsFrom :
    w ∈ wordsFrom isSep offset s ↔ IsRunAt isSep offset s w ∧ w.text ≠ [] := by
  fun_induction wordsFrom isSep offset s with
  | case1 offset =>
    rw [isRunAt_solid (by simp)]
    constructor
    · intro h
      cases h
    · rintro ⟨rfl, h⟩
      exact absurd rfl h
  | case2 offset b rest hb ih =>
    rw [ih, isRunAt_sep hb]
    constructor
    · rintro ⟨h, hne⟩
      exact ⟨.inr h, hne⟩
    · rintro ⟨rfl | h, hne⟩
      · exact absurd rfl hne
      · exact ⟨h, hne⟩
  | case3 offset b rest hb run ih =>
    have hsolid : ∀ a ∈ b :: run, isSep a = false := by
      intro a ha
      rcases List.mem_cons.mp ha with rfl | ha
      · simpa using hb
      · simpa using List.all_eq_true.mp List.all_takeWhile a ha
    have hrest : b :: rest = (b :: run) ++ rest.drop run.length := by
      rw [drop_length_takeWhile, List.cons_append, List.takeWhile_append_dropWhile]
    rw [List.mem_cons, ih, hrest,
      isRunAt_append hsolid (List.cons_ne_nil b run) fun c => isSep_of_head?_drop,
      List.length_cons, Nat.add_right_comm, Nat.add_assoc]

theorem pairwise_wordsFrom (isSep : UInt8 → Bool) (offset : Nat) (s : Bytes) :
    (wordsFrom isSep offset s).Pairwise fun v w => v.offset < w.offset := by
  fun_induction wordsFrom isSep offset s with
  | case1 => exact .nil
  | case2 _ _ _ _ ih => exact ih
  | case3 offset b rest hb run ih =>
    refine List.pairwise_cons.mpr ⟨fun w hw => ?_, ih⟩
    have := (mem_wordsFrom.mp hw).1.le_offset
    simp only
    omega

/-- Pieces with their offsets, one byte between each two. -/
def placedFrom (offset : Nat) : List Bytes → List Word
  | [] => []
  | p :: ps => ⟨offset, p⟩ :: placedFrom (offset + p.length + 1) ps

theorem le_of_mem_placedFrom {pieces : List Bytes} (h : w ∈ placedFrom offset pieces) :
    offset ≤ w.offset := by
  induction pieces generalizing offset with
  | nil => cases h
  | cons p ps ih =>
    rcases List.mem_cons.mp h with rfl | h
    · exact Nat.le_refl _
    · have := ih h
      omega

theorem pairwise_placedFrom (pieces : List Bytes) :
    (placedFrom offset pieces).Pairwise fun v w => v.offset + v.text.length < w.offset := by
  induction pieces generalizing offset with
  | nil => exact .nil
  | cons p ps ih =>
    refine List.pairwise_cons.mpr ⟨fun w hw => ?_, ih⟩
    have := le_of_mem_placedFrom hw
    simp only
    omega

theorem mem_placedFrom_splitOn {sep : UInt8} :
    w ∈ placedFrom offset (splitOn sep s) ↔ IsRunAt (· == sep) offset s w := by
  have solid : ∀ p : Bytes, sep ∉ p → ∀ b ∈ p, (b == sep) = false := by
    intro p plain b hb
    rw [beq_eq_false_iff_ne]
    rintro rfl
    exact plain hb
  induction s using cut_induction sep generalizing offset with
  | last p plain =>
    rw [List.splitOn_eq_singleton plain, isRunAt_solid (solid p plain), placedFrom, placedFrom,
      List.mem_singleton]
  | cut p rest plain ih =>
    rw [List.splitOn_append_cons_self_of_not_mem plain,
      isRunAt_front (solid p plain) (beq_self_eq_true sep), placedFrom, List.mem_cons]
    exact or_congr_right ih

end

end HostLookup.Bytes
