import HostLookup.Proofs.Lookup

/-!
# The address of a name

The first line that lists a name decides which address the name has: a lookup
leads to the first word of that line (`addressToken_lookup_iff`), and no line
after it, whatever it lists, changes that (`IsFirstAddress.append`).
-/

namespace HostLookup.Hosts

open Bytes

/-- `t` is the address on the first line of the content that lists the name. -/
def IsFirstAddress (data name t : Bytes) : Prop :=
  ∃ x : Listing, x.IsIn data ∧ x.text data = name ∧
    (∀ y : Listing, y.IsIn data → y.text data = name → x.line.start ≤ y.line.start) ∧
    t = x.address.of (x.line.of data)

section

variable {data name t t' more : Bytes} {x y : Listing}

namespace Listing

theorem IsIn.line_start_le (hx : x.IsIn data) (hy : y.IsIn data)
    (h : x.entry.name ≤ y.entry.name) : x.line.start ≤ y.line.start := by
  have hstop := lt_of_isLine hy.line hy.lists.name
  simp only [entry] at h
  rcases Nat.lt_or_ge y.line.stop x.line.start with hlt | hge
  · omega
  · rcases Nat.lt_or_ge y.line.start x.line.start with hlt | hle
    · -- lines that meet are one
      have heq := IsRun.eq_of_meet hx.line hy.line (Nat.le_refl _) hx.line.le (Nat.le_of_lt hlt) hge
      rw [heq] at hlt
      exact absurd hlt (Nat.lt_irrefl _)
    · exact hle

theorem IsIn.address_eq (hx : x.IsIn data) (hy : y.IsIn data)
    (h : x.line.start = y.line.start) :
    x.line = y.line ∧ x.address = y.address := by
  have hline : x.line = y.line :=
    IsRun.eq_of_meet hx.line hy.line (Nat.le_refl _) hx.line.le (Nat.le_of_eq h.symm)
      (h ▸ hy.line.le)
  refine ⟨hline, hx.lists.address.eq_of_start (hline ▸ hy.lists.address) ?_⟩
  exact Nat.le_antisymm (hx.lists.first _ (hline ▸ hy.lists.address))
    (hy.lists.first _ (hline ▸ hx.lists.address))

theorem isIn_append_iff (h : x.line.start ≤ data.length) :
    x.IsIn (data ++ newline :: more) ↔ x.IsIn data := by
  have hline : IsLine (data ++ newline :: more) x.line ↔ IsLine data x.line :=
    IsRun.append_iff (beq_self_eq_true newline) h
  constructor
  · rintro ⟨hl, hlists⟩
    have hl := hline.mp hl
    exact ⟨hl, Span.of_append hl.stop_le _ ▸ hlists⟩
  · rintro ⟨hl, hlists⟩
    exact ⟨hline.mpr hl, (Span.of_append hl.stop_le _).symm ▸ hlists⟩

theorem IsIn.text_append (h : x.IsIn data) (more : Bytes) :
    x.text (data ++ more) = x.text data := by
  rw [text, text, Span.of_append h.line.stop_le]

end Listing

theorem IsFirstAddress.unique (h : IsFirstAddress data name t) (h' : IsFirstAddress data name t') :
    t' = t := by
  obtain ⟨x, hx, htext, hfirst, rfl⟩ := h
  obtain ⟨y, hy, htext', hfirst', rfl⟩ := h'
  obtain ⟨hline, haddress⟩ := hx.address_eq hy
    (Nat.le_antisymm (hfirst y hy htext') (hfirst' x hx htext))
  rw [hline, haddress]

/-- Lines after the first one that lists a name do not matter. -/
theorem IsFirstAddress.append (h : IsFirstAddress data name t) (more : Bytes) :
    IsFirstAddress (data ++ newline :: more) name t := by
  obtain ⟨x, hx, htext, hfirst, rfl⟩ := h
  have hstart : x.line.start ≤ data.length := Nat.le_trans hx.line.le hx.line.stop_le
  refine ⟨x, (Listing.isIn_append_iff hstart).mpr hx, (hx.text_append _).trans htext, ?_,
    by rw [Span.of_append hx.line.stop_le]⟩
  intro y hy htext'
  rcases Nat.lt_or_ge data.length y.line.start with hlt | hge
  · exact Nat.le_trans hstart (Nat.le_of_lt hlt)
  · have hy := (Listing.isIn_append_iff hge).mp hy
    exact hfirst y hy ((hy.text_append _).symm.trans htext')

/-- A lookup leads to the address of the name. -/
theorem addressToken_lookup_iff {s : Snapshot} :
    (s.lookup name).map s.addressToken = some t ↔ IsFirstAddress s.data name t := by
  have hscan := scanResult_find? s.data name
  rw [← s.lookup_eq_find?] at hscan
  have address : ∀ {t}, (s.lookup name).map s.addressToken = some t →
      IsFirstAddress s.data name t := by
    intro t h
    generalize s.lookup name = r at h hscan
    cases hscan with
    | missing => cases h
    | found x hx htext hfirst =>
      refine ⟨x, hx, htext, fun y hy htext' => hx.line_start_le hy (hfirst y hy htext'), ?_⟩
      exact (Option.some.inj h).symm.trans hx.isEntry.address_token
  refine ⟨address, fun h => ?_⟩
  cases hr : (s.lookup name).map s.addressToken with
  | some t' => rw [h.unique (address hr)]
  | none =>
    rw [Option.map_eq_none_iff] at hr
    rw [hr] at hscan
    cases hscan with
    | missing habsent =>
      obtain ⟨x, hx, htext, -⟩ := h
      exact absurd htext (habsent x hx)

end

end HostLookup.Hosts
