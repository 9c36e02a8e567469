import HostLookup.Proofs.AddressText
import HostLookup.Proofs.Layout

/-!
# Comments

Blanks aside, a remark begins with the mark of a comment. The scan of a hosts
file passes over it only where the mark stands in the first column. Behind a gap
the mark begins an address like any other word, and the line lists the names
after it (`lineLists_iff_of_spaced`). No literal has the mark in it, so such a
line has no address for its names: it hides the lines below that do
(`Layout.remark_exact`).
-/

namespace HostLookup.Hosts

open Bytes

/-- The first byte that is no blank is the mark of a comment. -/
def IsRemark (line : Bytes) : Prop := line.find? (fun b => !isBlank b) = some commentMark

instance (line : Bytes) : Decidable (IsRemark line) :=
  inferInstanceAs (Decidable (line.find? _ = some commentMark))

/-- The second layout has one more line, at any place. -/
structure Layout.Inserts (x y : Layout) (before : List Bytes) (line : Bytes)
    (after : List Bytes) : Prop where
  without : x.lines = before ++ after
  within : y.lines = before ++ line :: after

section

variable {line name : Bytes} {words before after lines : List Bytes} {x y : Layout}

/-! ## One line -/

/-- The names of a line that is no comment are the words after a first word that is not too long,
but for those that are. -/
theorem lineLists_iff_of_spaced (visible : line.head? ≠ some 35)
    (laid : Spaced isBlank words line) :
    LineLists line name ↔ ∃ address names, words = address :: names ∧ address.length ≤ 64 ∧
      name ∈ names ∧ name.length < 256 := by
  rw [LineLists, ← mem_name_lineBindings, lineBindings_of_spaced visible laid]
  cases words with
  | nil => simp [bindingsOfWords]
  | cons address names =>
    rw [bindingsOfWords]
    constructor
    · intro h
      split at h
      · next short =>
        simp only [List.map_map, List.mem_map, List.mem_filter, decide_eq_true_eq] at h
        obtain ⟨name', ⟨hname, hlength⟩, rfl⟩ := h
        exact ⟨address, names, rfl, short, hname, hlength⟩
      · cases h
    · rintro ⟨_, _, heq, short, hname, hlength⟩
      cases heq
      have short : address.length ≤ maxAddressLength := short
      rw [if_pos short]
      simp only [List.map_map, List.mem_map, List.mem_filter, decide_eq_true_eq]
      exact ⟨name, ⟨hname, hlength⟩, rfl⟩

theorem not_lineLists_of_isComment (h : line.head? = some 35) : ¬ LineLists line name := by
  rw [LineLists, ← mem_name_lineBindings, lineBindings_of_isComment h]
  exact List.not_mem_nil

/-- Every word of a remark that is taken for an address begins with the mark. -/
theorem head?_address_of_isRemark (h : IsRemark line) :
    ∀ b ∈ lineBindings line, b.address.head? = some commentMark := by
  intro b hb
  by_cases hc : IsComment line
  · rw [lineBindings_of_isComment hc] at hb
    cases hb
  · have laid := spaced_wordTexts isBlank line
    rw [lineBindings_of_spaced hc laid] at hb
    rw [IsRemark, laid.find?_eq] at h
    cases hwords : wordTexts isBlank line with
    | nil =>
      rw [hwords] at hb
      cases hb
    | cons address names =>
      rw [hwords] at hb h
      rw [bindingsOfWords] at hb
      split at hb
      · obtain ⟨_, -, rfl⟩ := List.mem_map.mp hb
        exact h
      · cases hb

theorem ofText?_of_mark {t : Bytes} (h : t.head? = some commentMark) :
    Address.ofText? t = none := by
  cases hx : Address.ofText? t with
  | none => rfl
  | some x =>
    rcases Address.isLiteralByte_of_ofText? hx _ (List.mem_of_head? h) with hmark | hmark | hmark
    · exact absurd rfl hmark
    · cases hmark
    · cases hmark

/-! ## All lines -/

theorem find?_bindings_eq_none_iff :
    (bindings lines).find? (fun b => b.name == name) = none ↔
      ∀ line ∈ lines, ¬ LineLists line name := by
  simp only [LineLists, ← mem_name_lineBindings, List.find?_eq_none, bindings, List.mem_flatMap,
    List.mem_map, beq_iff_eq]
  constructor
  · rintro h line hline ⟨b, hb, rfl⟩
    exact h b ⟨line, hline, hb⟩ rfl
  · rintro h b ⟨line, hline, hb⟩ rfl
    exact h line hline ⟨b, hb, rfl⟩

namespace Layout

theorem isFirstAddress_text_iff (x : Layout) (name t : Bytes) :
    IsFirstAddress x.text name t ↔ firstBound? x.lines name = some t := by
  rw [isFirstAddress_iff_find?, firstBound?, firstBound?, x.bindings_text]

theorem hasName_text_iff (x : Layout) (name : Bytes) :
    HasName x.text name ↔ ∃ line ∈ x.lines, LineLists line name := by
  rw [hasName_iff]
  simp only [isFirstAddress_text_iff]
  rw [← Option.isSome_iff_exists, firstBound?, Option.isSome_map, ← not_iff_not,
    Bool.not_eq_true, Option.isSome_eq_false_iff, Option.isNone_iff_eq_none,
    find?_bindings_eq_none_iff]
  simp only [not_exists, not_and]

namespace Inserts

theorem hasName_iff (h : Inserts x y before line after) :
    HasName y.text name ↔ HasName x.text name ∨ LineLists line name := by
  rw [hasName_text_iff, hasName_text_iff, h.without, h.within]
  simp only [List.mem_append, List.mem_cons, or_and_right, exists_or, exists_eq_left]
  rw [or_left_comm, or_comm]

theorem firstBound?_eq (h : Inserts x y before line after) (name : Bytes) :
    firstBound? y.lines name =
      (((bindings before).find? fun b => b.name == name).or
        (((lineBindings line).find? fun b => b.name == name).or
          ((bindings after).find? fun b => b.name == name))).map (·.address) := by
  rw [firstBound?, h.within, bindings_append, bindings_cons, List.find?_append, List.find?_append]

/-- The line decides the address of no name that it does not list, and of none that a line before
it does. -/
theorem isFirstAddress_iff (h : Inserts x y before line after)
    (other : ¬ LineLists line name ∨ ∃ l ∈ before, LineLists l name) (t : Bytes) :
    IsFirstAddress x.text name t ↔ IsFirstAddress y.text name t := by
  have hfirst : firstBound? x.lines name = firstBound? y.lines name := by
    rw [h.firstBound?_eq, firstBound?, h.without, bindings_append, List.find?_append]
    rcases other with absent | ⟨l, hl, lists⟩
    · have hnone : (bindings [line]).find? (fun b => b.name == name) = none :=
        find?_bindings_eq_none_iff.mpr (List.forall_mem_singleton.mpr absent)
      rw [bindings_singleton] at hnone
      rw [hnone, Option.none_or]
    · cases hsome : (bindings before).find? fun b => b.name == name with
      | none => exact absurd lists (find?_bindings_eq_none_iff.mp hsome l hl)
      | some b => rfl
  rw [isFirstAddress_text_iff, isFirstAddress_text_iff, hfirst]

theorem head?_of_isFirstAddress (h : Inserts x y before line after) (remark : IsRemark line)
    (lists : LineLists line name) (first : ∀ l ∈ before, ¬ LineLists l name) {t : Bytes}
    (address : IsFirstAddress y.text name t) : t.head? = some commentMark := by
  rw [isFirstAddress_text_iff, h.firstBound?_eq, find?_bindings_eq_none_iff.mpr first,
    Option.none_or] at address
  cases hfind : (lineBindings line).find? fun b => b.name == name with
  | none =>
    obtain ⟨b, hb, rfl⟩ := List.mem_map.mp (mem_name_lineBindings.mpr lists)
    exact absurd (beq_self_eq_true b.name) (List.find?_eq_none.mp hfind b hb)
  | some b =>
    rw [hfind] at address
    cases address
    exact head?_address_of_isRemark remark b (List.mem_of_find?_eq_some hfind)

end Inserts

end Layout

end

/-! ## Replies -/

section

variable {t : Tracker} {s : Snapshot} {host : Bytes}

theorem Snapshot.forward_of_no_literal {service : Option Bytes} {hints : Option Hints}
    {services : ServiceTable}
    (h : ∀ a, IsFirstAddress s.data host a → Address.ofText? a = none) :
    s.forward services host service hints = .error (.notFound host) := by
  have hnone : ((s.lookup host).bind fun e => Address.ofText? (s.addressToken e)) = none := by
    rw [Option.bind_eq_none_iff]
    intro e he
    exact h _ (addressToken_lookup_iff.mp (congrArg _ he))
  unfold Snapshot.forward
  rw [hnone]

/-- A forward query for a name that the remark has first finds nothing. -/
theorem Layout.Inserts.reply_forward {x y : Layout} {before after : List Bytes} {line : Bytes}
    (h : Inserts x y before line after) (remark : IsRemark line) (lists : LineLists line host)
    (first : ∀ l ∈ before, ¬ LineLists l host) (loaded : t.snapshot = some s)
    (hy : s.data = y.text) (service : Option Bytes) (hints : Option Hints)
    (services : ServiceTable) :
    (Request.forward (some host) service hints).reply t services = .failed .noName := by
  have hnone : s.forward services host service hints = .error (.notFound host) :=
    s.forward_of_no_literal fun a ha =>
      ofText?_of_mark (h.head?_of_isFirstAddress remark lists first (hy ▸ ha))
  rw [Request.reply, Request.answer, Tracker.forward_of_snapshot loaded, hnone]
  rfl

end

/--
A layout with a remark somewhere between its lines and one without it, however the two files end.
The names that the remark lists come in, and no others: none with the mark in the first column, and
behind a gap the names that it would list with any other first word. A request for another name is
answered as without it. A forward query for one of its names is so, too, if a line before it lists
the name, and otherwise finds nothing, whatever the lines below say. A host query for one of its
names is answered as with any content that lists the name.
-/
theorem Layout.remark_exact (x y : Layout) (before : List Bytes) (line : Bytes)
    (after : List Bytes) (inserts : Inserts x y before line after) (remark : IsRemark line) :
    (∀ name, HasName y.text name ↔ HasName x.text name ∨ LineLists line name) ∧
    (line.head? = some 35 → ∀ name, ¬ LineLists line name) ∧
    (line.head? ≠ some 35 → ∀ words, Spaced isBlank words line → ∀ name,
      (LineLists line name ↔ ∃ address names, words = address :: names ∧ address.length ≤ 64 ∧
        name ∈ names ∧ name.length < 256)) ∧
    ∀ (t t' : Tracker) (s s' : Snapshot), t.snapshot = some s → t'.snapshot = some s' →
      s.data = x.text → s'.data = y.text → ∀ (services : ServiceTable) (r : Request),
        ((∀ name ∈ r.subject?, ¬ LineLists line name) → r.reply t' services = r.reply t services) ∧
        (∀ host service hints, r = .forward (some host) service hints → LineLists line host →
          ((∃ l ∈ before, LineLists l host) → r.reply t' services = r.reply t services) ∧
          ((∀ l ∈ before, ¬ LineLists l host) → r.reply t' services = .failed .noName)) ∧
        (r.kind = .host → (∀ name ∈ r.subject?, LineLists line name) →
          ∀ (t'' : Tracker) (s'' : Snapshot), t''.snapshot = some s'' →
            (∀ name ∈ r.subject?, HasName s''.data name) →
              r.reply t' services = r.reply t'' services) := by
  refine ⟨fun name => inserts.hasName_iff, fun mark name => not_lineLists_of_isComment mark,
    fun visible words laid name => lineLists_iff_of_spaced visible laid, ?_⟩
  intro t t' s s' hs hs' hx hy services r
  refine ⟨fun absent => ?_, ?_, fun kind lists t'' s'' hs'' listed => ?_⟩
  · refine (Request.reply_eq_of_subject hs hs' (fun name hname a => ?_) services).symm
    rw [hx, hy]
    exact inserts.isFirstAddress_iff (.inl (absent name hname)) a
  · rintro host service hints rfl lists
    refine ⟨fun earlier => ?_, fun first =>
      inserts.reply_forward remark lists first hs' hy service hints services⟩
    refine (Request.reply_eq_of_subject hs hs' ?_ services).symm
    rintro name ⟨⟩ a
    rw [hx, hy]
    exact inserts.isFirstAddress_iff (.inr earlier) a
  · refine Request.reply_eq_of_hasName hs' hs'' kind (fun name hname => ?_) services
    rw [hy, inserts.hasName_iff]
    exact iff_of_true (.inr (lists name hname)) (listed name hname)

namespace Layout

def bare : Layout := ofText (ascii "10.0.0.5 hidden") true

def gapRemark : Bytes := ascii "  # 10.0.0.6 hidden"

def remarked : Layout := ofText (ascii "  # 10.0.0.6 hidden\n10.0.0.5 hidden") true

def hiddenRequest : Request := .forward (some (ascii "hidden")) none none

/-- The remark hides the address of the host, and brings in a name of its own. -/
theorem gapRemark_hides :
    IsRemark gapRemark ∧ Inserts bare remarked [] gapRemark [ascii "10.0.0.5 hidden"] ∧
      hiddenRequest.reply (.ofContent bare.text) [] =
        .addresses [⟨.inet, 0, 0, .ofAddress (.v4 ⟨10, 0, 0, 5⟩) 0⟩] ∧
      hiddenRequest.reply (.ofContent remarked.text) [] = .failed .noName ∧
      ¬ HasName bare.text (ascii "10.0.0.6") ∧ HasName remarked.text (ascii "10.0.0.6") := by
  have remark : IsRemark gapRemark := by decide
  have inserts : Inserts bare remarked [] gapRemark [ascii "10.0.0.5 hidden"] :=
    ⟨by decide +kernel, by decide +kernel⟩
  have listed : names bare.text = [ascii "hidden"] := by decide +kernel
  have listed' : names remarked.text =
      [ascii "10.0.0.6", ascii "hidden", ascii "hidden"] := by
    decide +kernel
  have hidden : LineLists gapRemark (ascii "hidden") := mem_name_lineBindings.mp (by decide +kernel)
  refine ⟨remark, inserts, by decide +kernel,
    inserts.reply_forward (t := .ofContent remarked.text) remark hidden (List.forall_mem_nil _)
      rfl rfl none none [], ?_, ?_⟩
  · rw [← mem_names, listed]
    decide
  · rw [← mem_names, listed']
    decide

theorem gapRemark_exact :
    IsRemark gapRemark ∧ (HasName remarked.text (ascii "10.0.0.6") ↔
        HasName bare.text (ascii "10.0.0.6") ∨ LineLists gapRemark (ascii "10.0.0.6")) ∧
      LineLists gapRemark (ascii "hidden") ∧
      hiddenRequest.reply (.ofContent remarked.text) [] = .failed .noName := by
  have remark : IsRemark gapRemark := by decide
  have inserts : Inserts bare remarked [] gapRemark [ascii "10.0.0.5 hidden"] :=
    ⟨by decide +kernel, by decide +kernel⟩
  have laid : Spaced isBlank [ascii "#", ascii "10.0.0.6", ascii "hidden"] gapRemark :=
    wordTexts_eq_iff.mp (by decide +kernel)
  obtain ⟨listed, -, lists, replies⟩ :=
    remark_exact bare remarked [] gapRemark [ascii "10.0.0.5 hidden"] inserts remark
  have hidden : LineLists gapRemark (ascii "hidden") :=
    (lists (by decide) _ laid _).mpr ⟨_, _, rfl, by decide, by decide, by decide⟩
  obtain ⟨-, forward, -⟩ := replies (.ofContent bare.text) (.ofContent remarked.text) _ _ rfl rfl
    rfl rfl [] hiddenRequest
  exact ⟨remark, listed _, hidden, (forward _ _ _ rfl hidden).2 (List.forall_mem_nil _)⟩

end Layout

end HostLookup.Hosts
