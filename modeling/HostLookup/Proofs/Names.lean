import HostLookup.Proofs.FirstAddress
import HostLookup.Reply

/-!
# The names of a hosts file

A host query by name asks for no more than whether the content lists the name:
the answer is made of the name itself, read as an address
(`hostByName_eq_ok_iff`). So contents that list the same names answer it alike.
A forward query asks for the address of the name as well, and with that a
content has told all that any reply depends on (`reply_eq_of_isFirstAddress`).
-/

namespace HostLookup

open Bytes Hosts

namespace Hosts

/-- Some line of the content lists the name. -/
def HasName (data name : Bytes) : Prop := ∃ x : Listing, x.IsIn data ∧ x.text data = name

def names (data : Bytes) : List Bytes := (mentions data).map (·.name.text)

section

variable {data name : Bytes} {s : Snapshot} {e : Entry}

theorem mem_names : name ∈ names data ↔ HasName data name := by
  unfold names HasName
  rw [List.mem_map]
  constructor
  · rintro ⟨m, hm, rfl⟩
    obtain ⟨x, hx, rfl⟩ := mem_mentions.mp hm
    exact ⟨x, hx, rfl⟩
  · rintro ⟨x, hx, rfl⟩
    exact ⟨x.mention data, mem_mentions.mpr ⟨x, hx, rfl⟩, rfl⟩

instance : Decidable (HasName data name) := decidable_of_iff _ mem_names

theorem scanResult_lookup (s : Snapshot) (name : Bytes) :
    ScanResult s.data name (s.lookup name) := by
  rw [s.lookup_eq_find?]
  exact scanResult_find? s.data name

theorem isSome_lookup_iff : (s.lookup name).isSome = true ↔ HasName s.data name := by
  have hscan := scanResult_lookup s name
  generalize s.lookup name = r at hscan ⊢
  cases hscan with
  | found x hx htext => exact iff_of_true rfl ⟨x, hx, htext⟩
  | missing habsent =>
    refine iff_of_false Bool.false_ne_true ?_
    rintro ⟨x, hx, htext⟩
    exact habsent x hx htext

theorem nameToken_of_lookup (h : s.lookup name = some e) : s.nameToken e = name := by
  have hscan := scanResult_lookup s name
  rw [h] at hscan
  cases hscan with
  | found x hx htext => exact hx.token_name.trans htext

theorem hasName_iff : HasName data name ↔ ∃ t, IsFirstAddress data name t := by
  have hlookup : ((Snapshot.take 0 ⟨[]⟩ data ⟨0, 0⟩).lookup name).isSome = true ↔ _ :=
    isSome_lookup_iff
  refine hlookup.symm.trans ?_
  rw [← Option.isSome_map (f := (Snapshot.take 0 ⟨[]⟩ data ⟨0, 0⟩).addressToken),
    Option.isSome_iff_exists]
  exact exists_congr fun t => addressToken_lookup_iff

end

end Hosts

/-! ## Queries by name -/

theorem Family.admits_iff {family : Family} {x : Address} :
    family.admits x = true ↔ family = .unspecified ∨ family = .ofAddress x := by
  cases family <;> cases x <;> simp [Family.admits, Family.ofAddress]

section

variable {name : Bytes} {family : Family} {entry : HostEntry} {failure : Failure}

namespace Hosts.Snapshot

variable {s s' : Snapshot}

/-- The token that a lookup leads to is the name, so it is the name that is read as an address. -/
theorem hostByName_eq (s : Snapshot) (name : Bytes) (family : Family) :
    s.hostByName name family =
      match (s.lookup name).bind fun _ => Address.ofText? name with
      | some x =>
        if family.admits x then .ok ⟨name, .ofAddress x, [x]⟩ else .error (.notFound name)
      | none => .error (.notFound name) := by
  unfold hostByName
  cases h : s.lookup name with
  | none => rfl
  | some e =>
    simp only [Option.bind_some, nameToken_of_lookup h]
    cases Address.ofText? name <;> rfl

theorem hostByName_eq_ok_iff :
    s.hostByName name family = .ok entry ↔
      HasName s.data name ∧ ∃ x, Address.ofText? name = some x ∧
        (family = .unspecified ∨ family = .ofAddress x) ∧
        entry = ⟨name, .ofAddress x, [x]⟩ := by
  rw [hostByName_eq, ← isSome_lookup_iff]
  cases s.lookup name with
  | none => simp
  | some e =>
    cases Address.ofText? name with
    | none => simp
    | some x =>
      simp only [Option.bind_some, Option.isSome_some, true_and, Option.some.injEq,
        exists_eq_left', ← Family.admits_iff]
      split
      · next h => simp [h, eq_comm]
      · next h => simp [h]

theorem notFound_of_hostByName (h : s.hostByName name family = .error failure) :
    failure = .notFound name := by
  rw [hostByName_eq] at h
  split at h
  · split at h
    · cases h
    · cases h
      rfl
  · cases h
    rfl

theorem hostByName_eq_of_hasName (same : HasName s.data name ↔ HasName s'.data name) :
    s.hostByName name family = s'.hostByName name family := by
  have hok : ∀ entry,
      s.hostByName name family = .ok entry ↔ s'.hostByName name family = .ok entry :=
    fun entry => by rw [hostByName_eq_ok_iff, hostByName_eq_ok_iff, same]
  cases h : s.hostByName name family with
  | ok entry => exact ((hok entry).mp h).symm
  | error failure =>
    cases h' : s'.hostByName name family with
    | ok entry => cases h.symm.trans ((hok entry).mpr h')
    | error failure' => rw [notFound_of_hostByName h, notFound_of_hostByName h']

theorem forward_eq_of_isFirstAddress {services : ServiceTable} {service : Option Bytes}
    {hints : Option Hints}
    (same : ∀ t, IsFirstAddress s.data name t ↔ IsFirstAddress s'.data name t) :
    s.forward services name service hints = s'.forward services name service hints := by
  have htoken : (s.lookup name).map s.addressToken = (s'.lookup name).map s'.addressToken :=
    Option.ext fun t => by rw [addressToken_lookup_iff, addressToken_lookup_iff, same]
  have hread : ((s.lookup name).bind fun e => Address.ofText? (s.addressToken e)) =
      (s'.lookup name).bind fun e => Address.ofText? (s'.addressToken e) := by
    rw [← Function.comp_def Address.ofText?, ← Function.comp_def Address.ofText?,
      ← Option.bind_map, ← Option.bind_map, htoken]
  unfold forward
  rw [hread]

end Hosts.Snapshot

namespace Hosts.Tracker

variable {t : Tracker} {s : Snapshot}

theorem hostByName_of_snapshot (h : t.snapshot = some s) :
    t.hostByName name family = s.hostByName name family := by
  unfold hostByName
  rw [h]

theorem forward_of_snapshot {services : ServiceTable} {service : Option Bytes}
    {hints : Option Hints} (h : t.snapshot = some s) :
    t.forward services (some name) service hints = s.forward services name service hints := by
  unfold forward
  rw [h]

end Hosts.Tracker

end

namespace Request

/-- The name that a request looks up. -/
def subject? : Request → Option Bytes
  | forward host _ _ => host
  | byAddress octets _ => (Address.ofOctets? octets).map Address.text
  | byName name _ => some name

variable {t t' : Tracker} {s s' : Snapshot} {r : Request}

/-- A host query depends on a content by whether it lists the name that is looked up. -/
theorem reply_eq_of_hasName (hs : t.snapshot = some s) (hs' : t'.snapshot = some s')
    (kind : r.kind = .host)
    (same : ∀ name ∈ r.subject?, HasName s.data name ↔ HasName s'.data name)
    (services : ServiceTable) : r.reply t services = r.reply t' services := by
  have hbyName : ∀ name ∈ r.subject?, ∀ family,
      t.hostByName name family = t'.hostByName name family := by
    intro name hname family
    rw [Tracker.hostByName_of_snapshot hs, Tracker.hostByName_of_snapshot hs',
      Snapshot.hostByName_eq_of_hasName (same name hname)]
  have hanswer : r.answer t services = r.answer t' services := by
    cases r with
    | forward host service hints => cases kind
    | byAddress octets family =>
      cases hx : Address.ofOctets? octets with
      | none => simp only [answer, hx]
      | some x => simp only [answer, hx, hbyName x.text (by rw [subject?, hx]; rfl)]
    | byName name family => simp only [answer, hbyName name rfl]
  rw [reply, reply, hanswer]

theorem reply_eq_of_subject (hs : t.snapshot = some s) (hs' : t'.snapshot = some s')
    (same : ∀ name ∈ r.subject?, ∀ a, IsFirstAddress s.data name a ↔ IsFirstAddress s'.data name a)
    (services : ServiceTable) : r.reply t services = r.reply t' services := by
  have hnames : ∀ name ∈ r.subject?, HasName s.data name ↔ HasName s'.data name :=
    fun name hname => by
      rw [hasName_iff, hasName_iff]
      exact exists_congr (same name hname)
  cases r with
  | forward host service hints =>
    cases host with
    | none => rfl
    | some host =>
      rw [reply, reply, answer, answer, Tracker.forward_of_snapshot hs,
        Tracker.forward_of_snapshot hs', Snapshot.forward_eq_of_isFirstAddress (same host rfl)]
  | byAddress octets family => exact reply_eq_of_hasName hs hs' rfl hnames services
  | byName name family => exact reply_eq_of_hasName hs hs' rfl hnames services

/-- A reply depends on a content through the address of each name alone. -/
theorem reply_eq_of_isFirstAddress (hs : t.snapshot = some s) (hs' : t'.snapshot = some s')
    (same : ∀ name a, IsFirstAddress s.data name a ↔ IsFirstAddress s'.data name a)
    (services : ServiceTable) (r : Request) : r.reply t services = r.reply t' services :=
  reply_eq_of_subject hs hs' (fun name _ => same name) services

end Request

/-! ## Contents with the same names -/

/--
Where two hosts files list the same names, whatever addresses they give them, in whatever order,
however often and in whatever layout, a query by name is answered alike. It succeeds for a name that
is listed and is an address of a family asked for, and fails for want of the name otherwise.
-/
theorem Hosts.Tracker.hostByName_by_names (t t' : Tracker) (s s' : Snapshot)
    (hs : t.snapshot = some s) (hs' : t'.snapshot = some s')
    (same : ∀ name, HasName s.data name ↔ HasName s'.data name) (name : Bytes) (family : Family) :
    t.hostByName name family = t'.hostByName name family ∧
    (∀ entry, t.hostByName name family = .ok entry ↔
      HasName s.data name ∧ ∃ x, Address.ofText? name = some x ∧
        (family = .unspecified ∨ family = .ofAddress x) ∧
        entry = ⟨name, .ofAddress x, [x]⟩) ∧
    ∀ failure, t.hostByName name family = .error failure → failure = .notFound name := by
  rw [hostByName_of_snapshot hs, hostByName_of_snapshot hs']
  exact ⟨Snapshot.hostByName_eq_of_hasName (same name),
    fun entry => Snapshot.hostByName_eq_ok_iff, fun failure => Snapshot.notFound_of_hostByName⟩

def Hosts.Tracker.ofContent (data : Bytes) : Tracker :=
  ({ path := ⟨ascii "hosts"⟩ } : Tracker).replace data ⟨0, 0⟩

/-- Other addresses and another order for the same two names. -/
theorem Hosts.Tracker.rearranged_by_names :
    (ofContent (ascii "10.0.0.1 10.0.0.9 a\n")).hostByName (ascii "10.0.0.9") .inet =
        (ofContent (ascii "# b\nx a\n\ny 10.0.0.9 10.0.0.9")).hostByName (ascii "10.0.0.9") .inet ∧
      (ofContent (ascii "10.0.0.1 10.0.0.9 a\n")).hostByName (ascii "10.0.0.9") .inet =
        .ok ⟨ascii "10.0.0.9", .inet, [.v4 ⟨10, 0, 0, 9⟩]⟩ := by
  have hnames : names (ascii "10.0.0.1 10.0.0.9 a\n") = [ascii "10.0.0.9", ascii "a"] := by
    decide +kernel
  have hnames' : names (ascii "# b\nx a\n\ny 10.0.0.9 10.0.0.9") =
      [ascii "a", ascii "10.0.0.9", ascii "10.0.0.9"] := by decide +kernel
  have same : ∀ name, HasName (ascii "10.0.0.1 10.0.0.9 a\n") name ↔
      HasName (ascii "# b\nx a\n\ny 10.0.0.9 10.0.0.9") name := by
    intro name
    rw [← mem_names, ← mem_names, hnames, hnames']
    simp only [List.mem_cons, List.not_mem_nil, or_false, or_self]
    exact Or.comm
  have literal : Address.ofText? (ascii "10.0.0.9") = some (.v4 ⟨10, 0, 0, 9⟩) := by decide +kernel
  have listed : HasName (ascii "10.0.0.1 10.0.0.9 a\n") (ascii "10.0.0.9") :=
    mem_names.mp (hnames ▸ List.mem_cons_self)
  obtain ⟨alike, answers, -⟩ := hostByName_by_names
    (ofContent (ascii "10.0.0.1 10.0.0.9 a\n"))
    (ofContent (ascii "# b\nx a\n\ny 10.0.0.9 10.0.0.9")) _ _ rfl rfl same (ascii "10.0.0.9") .inet
  exact ⟨alike, (answers _).mpr ⟨listed, _, literal, .inr rfl, rfl⟩⟩

end HostLookup
