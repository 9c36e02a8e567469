import HostLookup.Proofs.Numerals
import HostLookup.Service

/-!
# The port of a service

`PortOf` says which port a service text stands for: the number that it spells,
else the port of the first row that serves it, else zero. The number is read as
a whole before it is measured, so no text of digits is reduced to a port that it
does not spell (`resolvePort_exact`).
-/

namespace HostLookup

open Bytes

/-- The text spells a number that is a port. -/
def SpellsPort (s : Bytes) : Prop := Decimal.IsNumeral s ∧ Decimal.value s ≤ 65535

/-- The row has the name, under a protocol that the socket type allows. -/
structure Service.Serves (row : Service) (s : Bytes) (socktype : Int32) : Prop where
  named : row.name = s ∨ s ∈ row.aliases
  datagram : socktype = 2 → row.protocol = ascii "udp"
  stream : socktype = 1 → row.protocol = ascii "tcp"

/-- The port that a text stands for under a socket type. -/
inductive PortOf (table : ServiceTable) (socktype : Int32) (s : Bytes) : UInt16 → Prop where
  | number {port : UInt16} (digits : Decimal.IsNumeral s) (value : Decimal.value s = port.toNat) :
      PortOf table socktype s port
  | row {before after : ServiceTable} {row : Service} (noNumber : ¬ SpellsPort s) (noZero : 0 ∉ s)
      (split : table = before ++ row :: after) (serves : row.Serves s socktype)
      (first : ∀ earlier ∈ before, ¬ earlier.Serves s socktype) :
      PortOf table socktype s row.port
  | unknown (noNumber : ¬ SpellsPort s)
      (noRow : 0 ∈ s ∨ ∀ row ∈ table, ¬ row.Serves s socktype) :
      PortOf table socktype s 0

section

variable {table : ServiceTable} {socktype : Int32} {s : Bytes} {port port' : UInt16}

/-! ## Numbers -/

theorem decimalPort?_eq_some_iff :
    decimalPort? s = some port ↔ Decimal.IsNumeral s ∧ Decimal.value s = port.toNat := by
  unfold decimalPort?
  rw [Option.map_eq_some_iff]
  constructor
  · rintro ⟨n, hn, rfl⟩
    obtain ⟨digits, rfl, hlimit⟩ := Decimal.natBelow?_eq_some_iff.mp hn
    exact ⟨digits, (UInt16.toNat_ofNat_of_lt hlimit).symm⟩
  · rintro ⟨digits, hvalue⟩
    have hlimit := port.toNat_lt
    refine ⟨_, Decimal.natBelow?_eq_some_iff.mpr ⟨digits, hvalue, hlimit⟩, ?_⟩
    exact UInt16.ofNat_toNat

theorem spellsPort_iff :
    SpellsPort s ↔ ∃ port : UInt16, Decimal.IsNumeral s ∧ Decimal.value s = port.toNat := by
  constructor
  · rintro ⟨digits, hvalue⟩
    have hlimit : Decimal.value s < UInt16.size := Nat.lt_succ_of_le hvalue
    exact ⟨_, digits, (UInt16.toNat_ofNat_of_lt hlimit).symm⟩
  · rintro ⟨port, digits, hvalue⟩
    have hlimit := port.toNat_lt
    exact ⟨digits, by omega⟩

theorem decimalPort?_eq_none_iff : decimalPort? s = none ↔ ¬ SpellsPort s := by
  rw [spellsPort_iff, Option.eq_none_iff_forall_ne_some, not_exists]
  exact forall_congr' fun port => not_congr decimalPort?_eq_some_iff

/-! ## Rows -/

theorem Service.answers_iff {row : Service} :
    row.answers s (protocolOf socktype) = true ↔ row.Serves s socktype := by
  have hnamed : (row.name == s || row.aliases.contains s) = true ↔
      row.name = s ∨ s ∈ row.aliases := by
    rw [Bool.or_eq_true, beq_iff_eq, List.contains_iff_mem]
  unfold answers protocolOf
  rw [Bool.and_eq_true, hnamed]
  by_cases hdatagram : socktype = 2
  · subst hdatagram
    rw [if_pos rfl, beq_iff_eq]
    exact ⟨fun ⟨h, hp⟩ => ⟨h, fun _ => hp, fun h => absurd h (by decide)⟩,
      fun h => ⟨h.named, h.datagram rfl⟩⟩
  · by_cases hstream : socktype = 1
    · subst hstream
      rw [if_neg hdatagram, if_pos rfl, beq_iff_eq]
      exact ⟨fun ⟨h, hp⟩ => ⟨h, fun h => absurd h (by decide), fun _ => hp⟩,
        fun h => ⟨h.named, h.stream rfl⟩⟩
    · rw [if_neg hdatagram, if_neg hstream]
      exact ⟨fun ⟨h, _⟩ => ⟨h, fun h => absurd h hdatagram, fun h => absurd h hstream⟩,
        fun h => ⟨h.named, rfl⟩⟩

theorem find?_answers_eq_some_iff {row : Service} :
    table.find? (fun row => row.answers s (protocolOf socktype)) = some row ↔
      row.Serves s socktype ∧ ∃ before after, table = before ++ row :: after ∧
        ∀ earlier ∈ before, ¬ earlier.Serves s socktype := by
  rw [List.find?_eq_some_iff_append, Service.answers_iff]
  simp only [Bool.not_eq_true', ← Bool.not_eq_true, Service.answers_iff]

theorem find?_answers_eq_none_iff :
    table.find? (fun row => row.answers s (protocolOf socktype)) = none ↔
      ∀ row ∈ table, ¬ row.Serves s socktype := by
  rw [List.find?_eq_none]
  simp only [Service.answers_iff]

/-! ## Ports -/

theorem resolvePort_of_number (digits : Decimal.IsNumeral s)
    (value : Decimal.value s = port.toNat) : table.resolvePort (some s) socktype = port := by
  have hport := decimalPort?_eq_some_iff.mpr ⟨digits, value⟩
  simp only [ServiceTable.resolvePort, hport]

theorem resolvePort_of_noNumber (h : ¬ SpellsPort s) :
    table.resolvePort (some s) socktype = (table.port? s (protocolOf socktype)).getD 0 := by
  have hport := decimalPort?_eq_none_iff.mpr h
  simp only [ServiceTable.resolvePort, hport]

theorem port?_of_zero (protocol : Option Bytes) (h : 0 ∈ s) : table.port? s protocol = none := by
  unfold ServiceTable.port?
  rw [if_pos (List.contains_iff_mem.mpr h)]

theorem port?_of_noZero (protocol : Option Bytes) (h : 0 ∉ s) :
    table.port? s protocol = (table.find? fun row => row.answers s protocol).map (·.port) := by
  unfold ServiceTable.port?
  rw [if_neg fun hc => h (List.contains_iff_mem.mp hc)]

theorem PortOf.resolvePort_eq (h : PortOf table socktype s port) :
    table.resolvePort (some s) socktype = port := by
  cases h with
  | number digits value => exact resolvePort_of_number digits value
  | row noNumber noZero split serves first =>
    rw [resolvePort_of_noNumber noNumber, port?_of_noZero _ noZero,
      find?_answers_eq_some_iff.mpr ⟨serves, _, _, split, first⟩]
    rfl
  | unknown noNumber noRow =>
    rw [resolvePort_of_noNumber noNumber]
    rcases noRow with hzero | habsent
    · rw [port?_of_zero _ hzero]
      rfl
    · by_cases hzero : 0 ∈ s
      · rw [port?_of_zero _ hzero]
        rfl
      · rw [port?_of_noZero _ hzero, find?_answers_eq_none_iff.mpr habsent]
        rfl

theorem exists_portOf (table : ServiceTable) (socktype : Int32) (s : Bytes) :
    ∃ port, PortOf table socktype s port := by
  by_cases hspells : SpellsPort s
  · obtain ⟨port, digits, value⟩ := spellsPort_iff.mp hspells
    exact ⟨port, .number digits value⟩
  · by_cases hzero : 0 ∈ s
    · exact ⟨0, .unknown hspells (.inl hzero)⟩
    · cases hfind : table.find? fun row => row.answers s (protocolOf socktype) with
      | none => exact ⟨0, .unknown hspells (.inr (find?_answers_eq_none_iff.mp hfind))⟩
      | some row =>
        obtain ⟨serves, before, after, split, first⟩ := find?_answers_eq_some_iff.mp hfind
        exact ⟨row.port, .row hspells hzero split serves first⟩

theorem resolvePort_eq_iff :
    table.resolvePort (some s) socktype = port ↔ PortOf table socktype s port := by
  constructor
  · rintro rfl
    obtain ⟨port, hport⟩ := exists_portOf table socktype s
    rwa [hport.resolvePort_eq]
  · exact PortOf.resolvePort_eq

end

/--
The port of any service text under any socket type: the number that it spells if that is a port,
else the port of the first row that serves it, else zero. A number may have any zeros in front, and
is never reduced to a port.
-/
theorem ServiceTable.resolvePort_exact (table : ServiceTable) (socktype : Int32) (s : Bytes) :
    (∀ port, table.resolvePort (some s) socktype = port ↔ PortOf table socktype s port) ∧
    ∀ zeros n, s = List.replicate zeros 48 ++ Decimal.ofNat n →
      (n ≤ 65535 → (table.resolvePort (some s) socktype).toNat = n) ∧
      (65535 < n → (∀ row ∈ table, ¬ row.Serves s socktype) →
        table.resolvePort (some s) socktype = 0) := by
  refine ⟨fun port => resolvePort_eq_iff, ?_⟩
  rintro zeros n rfl
  obtain ⟨digits, value⟩ := Decimal.isNumeral_zeros_append zeros n
  constructor
  · intro hport
    have hn : n = n.toUInt16.toNat := (UInt16.toNat_ofNat_of_lt (Nat.lt_succ_of_le hport)).symm
    rw [resolvePort_of_number digits (value.trans hn)]
    exact hn.symm
  · intro hlarge absent
    apply resolvePort_eq_iff.mpr
    refine .unknown (fun hspells => ?_) (.inr absent)
    have := hspells.2
    omega

def sampleServices : ServiceTable :=
  [⟨ascii "domain", [], ascii "udp", 53⟩, ⟨ascii "domain", [], ascii "tcp", 1053⟩,
    ⟨ascii "http", [ascii "www"], ascii "tcp", 80⟩]

theorem sampleServices_resolved :
    sampleServices.resolvePort (some (ascii "domain")) 1 = 1053 ∧
      sampleServices.resolvePort (some (ascii "domain")) (-1) = 53 ∧
      (sampleServices.resolvePort (some (ascii "0000080")) 2).toNat = 80 ∧
      sampleServices.resolvePort (some (ascii "065616")) 1 = 0 := by
  have unserved : ∀ row ∈ sampleServices, ¬ row.Serves (ascii "065616") 1 := by
    have unnamed : ∀ row ∈ sampleServices,
        row.name ≠ ascii "065616" ∧ ascii "065616" ∉ row.aliases := by
      decide
    rintro row hrow ⟨hname | halias, -, -⟩
    · exact (unnamed row hrow).1 hname
    · exact (unnamed row hrow).2 halias
  obtain ⟨stream, -⟩ := sampleServices.resolvePort_exact 1 (ascii "domain")
  obtain ⟨anyProtocol, -⟩ := sampleServices.resolvePort_exact (-1) (ascii "domain")
  obtain ⟨-, zeros⟩ := sampleServices.resolvePort_exact 2 (ascii "0000080")
  obtain ⟨-, large⟩ := sampleServices.resolvePort_exact 1 (ascii "065616")
  have noNumber : ¬ SpellsPort (ascii "domain") := fun h => by
    have := h.1.2 100 (by decide)
    cases this
  refine ⟨(stream _).mpr ?_, (anyProtocol _).mpr ?_, (zeros 5 80 (by decide +kernel)).1 (by decide),
    (large 1 65616 (by decide +kernel)).2 (by decide) unserved⟩
  · have split : sampleServices = [⟨ascii "domain", [], ascii "udp", 53⟩] ++ _ :: _ := rfl
    refine .row noNumber (by decide) split ⟨.inl rfl, by decide, by decide⟩ ?_
    intro earlier hmem hserves
    rw [List.mem_singleton.mp hmem] at hserves
    exact absurd (hserves.stream rfl) (by decide)
  · have split : sampleServices = [] ++ _ :: _ := rfl
    refine .row noNumber (by decide) split ⟨.inl rfl, by decide, by decide⟩ ?_
    exact fun earlier hmem => absurd hmem List.not_mem_nil

end HostLookup
