import HostLookup.Proofs.AddressText
import HostLookup.Proofs.Framing

/-!
# Reading replies back

`Reply.read?` reads a reply and its number from the lines it was written as. It
cuts a line into words at single spaces, so that the name in a host line is what
stands between the fixed words around it, spaces and all. What it gives is the
reply itself with families by their numbers and line feeds as spaces
(`Reply.normal`); only replies without results look alike.
-/

namespace HostLookup

open Bytes

inductive ReplyLine where
  | record (r : AddressRecord)
  | host (name : Bytes) (family : Family) (x : Address)
  | done
  | failed (status : Status)
  | badArguments (text : Bytes)
  deriving DecidableEq, Repr

namespace ReplyLine

def recordOfWords? : List Bytes → Option ReplyLine
  | [family, socktype, protocol, digits] => do
    let family ← Decimal.int32? family
    let socktype ← Decimal.int32? socktype
    let protocol ← Decimal.int32? protocol
    let endpoint ← (Hex.decode? digits).bind Endpoint.ofLayout?
    return .record ⟨.ofRaw family, socktype, protocol, endpoint⟩
  | _ => none

/-- The host in the words after `hostent`, the last first; the name may be several words. -/
def hostOfWords? : List Bytes → Option ReplyLine
  | address :: family :: name => do
    let family ← Decimal.int32? family
    let x ← Address.ofText? address
    return .host ([space].intercalate name.reverse) (.ofRaw family) x
  | _ => none

def failedOfWords? : List Bytes → Option ReplyLine
  | [code, name] => do
    let status ← Status.all.find? fun s => Decimal.ofNat s.code == code && s.name == name
    return .failed status
  | _ => none

def ofWords? (code : Bytes) (words : List Bytes) : Option ReplyLine :=
  if code = ascii "200" then if words = [ascii "0"] then some .done else none
  else if code = ascii "401" then failedOfWords? words
  else if code = ascii "500" then some (.badArguments ([space].intercalate words))
  else if code = ascii "222" then
    match words with
    | kind :: words =>
      if kind = ascii "addrinfo" then recordOfWords? words
      else if kind = ascii "hostent" then hostOfWords? words.reverse
      else none
    | [] => none
  else none

def ofText? (line : Bytes) : Option (UInt32 × ReplyLine) :=
  match splitOn space line with
  | code :: seq :: words => do
    let seq ← Decimal.uint32? seq
    let said ← ofWords? code words
    return (seq, said)
  | _ => none

end ReplyLine

/-- A record with its family by the number. -/
def AddressRecord.normal (r : AddressRecord) : AddressRecord :=
  { r with family := .ofRaw r.family.raw }

def HostEntry.normal (entry : HostEntry) : HostEntry :=
  { entry with family := .ofRaw entry.family.raw }

namespace Reply

/-- The reply of consecutive lines; all host lines of one reply have one name and family. -/
def ofLines? : List ReplyLine → Option Reply
  | [.done] => some (.addresses [])
  | [.failed status] => some (.failed status)
  | [.badArguments text] => some (.badArguments text)
  | .record r :: lines =>
    match ofLines? lines with
    | some (.addresses records) => some (.addresses (r :: records))
    | _ => none
  | .host name family x :: lines =>
    match ofLines? lines with
    | some (.addresses []) => some (.host ⟨name, family, [x]⟩)
    | some (.host entry) =>
      if entry.name = name ∧ entry.family = family then
        some (.host { entry with addresses := x :: entry.addresses })
      else none
    | _ => none
  | _ => none

/-- The number and the reply in a text whose lines all end in a line feed. -/
def read? (text : Bytes) : Option (UInt32 × Reply) := do
  let lines ← ((splitOn newline text).dropLast).mapM ReplyLine.ofText?
  let (seq, _) ← lines.getLast?
  let reply ← ofLines? (lines.map (·.2))
  if lines.all (·.1 == seq) then return (seq, reply) else none

/-- Whether a reply has no result and no status either. -/
def isBare : Reply → Bool
  | addresses records => records.isEmpty
  | host entry => entry.addresses.isEmpty
  | _ => false

/-- A reply with families by their numbers and its text on one line. -/
def normal : Reply → Reply
  | addresses records => addresses (records.map AddressRecord.normal)
  | host entry => host entry.normal
  | failed status => failed status
  | badArguments text => badArguments (oneLine text)

end Reply

/-! ## One line -/

/-- The text is one line with a number, and says this. -/
def ReplyLine.Reads (seq : UInt32) (text : Bytes) (said : ReplyLine) : Prop :=
  ∃ line, text = terminate line ∧ newline ∉ line ∧ ofText? line = some (seq, said)

section

variable {seq : UInt32}

theorem space_notMem_number (n : Int32) : space ∉ Decimal.ofInt32 n :=
  Decimal.notMem_ofInt rfl (by decide) _

theorem newline_notMem_number (n : Int32) : newline ∉ Decimal.ofInt32 n :=
  Decimal.notMem_ofInt rfl (by decide) _

theorem Status.space_notMem_name (s : Status) : space ∉ s.name := by
  cases s <;> decide

theorem splitOn_intercalate_eq_flatMap {sep : UInt8} {pieces : List Bytes} (hne : pieces ≠ []) :
    splitOn sep ([sep].intercalate pieces) = pieces.flatMap (splitOn sep) := by
  induction pieces with
  | nil => exact absurd rfl hne
  | cons piece pieces ih =>
    by_cases h : pieces = []
    · rw [h, List.flatMap_singleton, List.intercalate_singleton]
    · rw [List.intercalate_cons_of_ne_nil h, List.append_assoc, List.singleton_append,
        List.splitOn_append_cons_self, ih h, List.flatMap_cons]

theorem flatMap_splitOn_of_notMem {sep : UInt8} {words : List Bytes}
    (h : ∀ word ∈ words, sep ∉ word) : words.flatMap (splitOn sep) = words := by
  induction words with
  | nil => rfl
  | cons word words ih =>
    obtain ⟨hword, hwords⟩ := List.forall_mem_cons.mp h
    rw [List.flatMap_cons, List.splitOn_eq_singleton hword, ih hwords]
    rfl

namespace ReplyLine

theorem reads_wordLine {code : Bytes} {words : List Bytes} {said : ReplyLine}
    (hcode : space ∉ code) (plain : ∀ word ∈ code :: words, newline ∉ word)
    (hsaid : ofWords? code (words.flatMap (splitOn space)) = some said) :
    Reads seq (wordLine (code :: Reply.sequenceText seq :: words)) said := by
  obtain ⟨hcode', hwords⟩ := List.forall_mem_cons.mp plain
  have hseq : space ∉ Reply.sequenceText seq := Decimal.notMem_ofNat rfl _
  refine ⟨_, rfl, not_mem_intercalate (by decide) ?_, ?_⟩
  · exact List.forall_mem_cons.mpr
      ⟨hcode', List.forall_mem_cons.mpr ⟨Decimal.notMem_ofNat rfl _, hwords⟩⟩
  · have hsplit :
        splitOn space ((ascii " ").intercalate (code :: Reply.sequenceText seq :: words)) =
          code :: Reply.sequenceText seq :: words.flatMap (splitOn space) := by
      have hcons := List.cons_ne_nil code (Reply.sequenceText seq :: words)
      have h : splitOn space ([space].intercalate (code :: Reply.sequenceText seq :: words)) = _ :=
        splitOn_intercalate_eq_flatMap hcons
      rwa [List.flatMap_cons, List.flatMap_cons, List.splitOn_eq_singleton hcode,
        List.splitOn_eq_singleton hseq] at h
    rw [ofText?, hsplit]
    simp only [Reply.sequenceText, Decimal.uint32?_ofNat, hsaid]
    rfl

theorem reads_doneLine (seq : UInt32) : Reads seq (Reply.doneLine seq) .done :=
  reads_wordLine (by decide) (by simp only [List.forall_mem_cons]; decide) (by decide)

theorem reads_recordLine (seq : UInt32) (r : AddressRecord) :
    Reads seq (Reply.recordLine seq r) (.record r.normal) := by
  refine reads_wordLine (by decide) ?_ ?_
  · simp only [List.forall_mem_cons]
    exact ⟨by decide, by decide, newline_notMem_number _, newline_notMem_number _,
      newline_notMem_number _, Hex.notMem_encode rfl _, List.forall_mem_nil _⟩
  · rw [flatMap_splitOn_of_notMem]
    · have hrecord : recordOfWords? [Decimal.ofInt32 r.family.raw, Decimal.ofInt32 r.socktype,
          Decimal.ofInt32 r.protocol, Hex.encode r.endpoint.layout] =
          some (.record r.normal) := by
        simp only [recordOfWords?, Decimal.int32?_ofInt32, Hex.decode?_encode,
          Option.bind_some, Endpoint.ofLayout?_layout]
        rfl
      exact hrecord
    · simp only [List.forall_mem_cons]
      exact ⟨by decide, space_notMem_number _, space_notMem_number _, space_notMem_number _,
        Hex.notMem_encode rfl _, List.forall_mem_nil _⟩

theorem reads_hostLine {entry : HostEntry} (plain : newline ∉ entry.name) (x : Address) :
    Reads seq (Reply.hostLine seq entry x) (.host entry.name (.ofRaw entry.family.raw) x) := by
  refine reads_wordLine (by decide) ?_ ?_
  · simp only [List.forall_mem_cons]
    exact ⟨by decide, by decide, plain, newline_notMem_number _,
      Address.notMem_text rfl (by decide) (by decide) x, List.forall_mem_nil _⟩
  · have hkind : splitOn space (ascii "hostent") = [ascii "hostent"] := by decide
    rw [List.flatMap_cons, hkind, List.flatMap_cons, flatMap_splitOn_of_notMem]
    · -- what the fixed words leave is the pieces of the name
      have hhost : hostOfWords? (splitOn space entry.name ++
          [Decimal.ofInt32 entry.family.raw, x.text]).reverse =
          some (.host entry.name (.ofRaw entry.family.raw) x) := by
        rw [List.reverse_append]
        simp only [List.reverse_cons, List.reverse_nil, List.nil_append, List.cons_append,
          hostOfWords?, Decimal.int32?_ofInt32, x.ofText?_text, List.reverse_reverse,
          List.intercalate_splitOn]
        rfl
      exact hhost
    · simp only [List.forall_mem_cons]
      exact ⟨space_notMem_number _, Address.notMem_text rfl (by decide) (by decide) x,
        List.forall_mem_nil _⟩

theorem reads_failed (seq : UInt32) (status : Status) :
    Reads seq ((Reply.failed status).encode seq) (.failed status) := by
  refine reads_wordLine (by decide) ?_ ?_
  · simp only [List.forall_mem_cons]
    exact ⟨by decide, Decimal.notMem_ofNat rfl _, status.newline_notMem_name, List.forall_mem_nil _⟩
  · rw [flatMap_splitOn_of_notMem]
    · have hfailed : failedOfWords? [Decimal.ofNat status.code, status.name] =
          some (.failed status) := by
        cases status <;> decide +kernel
      exact hfailed
    · simp only [List.forall_mem_cons]
      exact ⟨Decimal.notMem_ofNat rfl _, status.space_notMem_name, List.forall_mem_nil _⟩

theorem reads_badArguments (seq : UInt32) (text : Bytes) :
    Reads seq ((Reply.badArguments text).encode seq) (.badArguments (Reply.oneLine text)) := by
  refine reads_wordLine (by decide) ?_ ?_
  · simp only [List.forall_mem_cons]
    exact ⟨by decide, Reply.newline_notMem_oneLine text, List.forall_mem_nil _⟩
  · rw [List.flatMap_singleton]
    exact congrArg (some ∘ badArguments) (List.intercalate_splitOn space)

end ReplyLine

/-! ## All lines -/

namespace Reply

theorem read?_flatten {texts : List Bytes} {said : List ReplyLine} (hne : said ≠ [])
    (h : List.Forall₂ (ReplyLine.Reads seq) texts said) :
    read? texts.flatten = (ofLines? said).map fun reply => (seq, reply) := by
  have hlines : (splitOn newline texts.flatten).dropLast.mapM ReplyLine.ofText? =
      some (said.map fun line => (seq, line)) := by
    clear hne
    induction h with
    | nil => rfl
    | cons hread _ ih =>
      obtain ⟨line, rfl, plain, hline⟩ := hread
      rw [List.flatten_cons, terminate, List.append_assoc, List.singleton_append,
        List.splitOn_append_cons_self_of_not_mem plain,
        List.dropLast_cons_of_ne_nil (List.splitOn_ne_nil _ _),
        List.mapM_cons, hline, ih]
      rfl
  have hmap : (said.map fun line => (seq, line)).map (·.2) = said := by
    rw [List.map_map]
    exact List.map_id said
  have hall : (said.map fun line => (seq, line)).all (·.1 == seq) = true := by
    simp
  have hlast : said.getLast? = some (said.getLast hne) := List.getLast?_eq_some_getLast hne
  simp only [read?, hlines, Option.bind_eq_bind, Option.bind_some, List.getLast?_map, hlast,
    Option.map_some, hmap, hall, if_true]
  cases ofLines? said <;> rfl

theorem read?_results {α : Type} {f : α → Bytes} {g : α → ReplyLine} {text : Bytes}
    {said : ReplyLine} (results : ∀ x, ReplyLine.Reads seq (f x) (g x))
    (last : ReplyLine.Reads seq text said) (xs : List α) :
    read? (xs.flatMap f ++ text) =
      (ofLines? (xs.map g ++ [said])).map fun reply => (seq, reply) := by
  have hlines : List.Forall₂ (ReplyLine.Reads seq) (xs.map f ++ [text]) (xs.map g ++ [said]) := by
    induction xs with
    | nil => exact .cons last .nil
    | cons x xs ih => exact .cons (results x) ih
  rw [← read?_flatten (by simp) hlines, List.flatten_append, List.flatten_singleton,
    List.flatMap_def]

theorem ofLines?_records (records : List AddressRecord) :
    ofLines? (records.map (fun r => .record r.normal) ++ [.done]) =
      some (.addresses (records.map AddressRecord.normal)) := by
  induction records with
  | nil => rfl
  | cons r records ih => rw [List.map_cons, List.cons_append, ofLines?, ih, List.map_cons]

theorem ofLines?_hosts (name : Bytes) (family : Family) (xs : List Address) :
    ofLines? (xs.map (.host name family) ++ [.done]) =
      some (if xs.isEmpty then .addresses [] else .host ⟨name, family, xs⟩) := by
  induction xs with
  | nil => rfl
  | cons x xs ih =>
    rw [List.map_cons, List.cons_append, ofLines?, ih]
    cases xs with
    | nil => rfl
    | cons y ys => exact if_pos ⟨rfl, rfl⟩

/-- A plain reply is read back with its number. -/
theorem read?_encode {reply : Reply} (plain : reply.IsPlain) :
    read? (reply.encode seq) =
      some (seq, if reply.isBare then .addresses [] else reply.normal) := by
  cases reply with
  | addresses records =>
    rw [encode, read?_results (ReplyLine.reads_recordLine seq) (ReplyLine.reads_doneLine seq),
      ofLines?_records]
    cases records <;> rfl
  | host entry =>
    rw [encode, read?_results (ReplyLine.reads_hostLine plain) (ReplyLine.reads_doneLine seq),
      ofLines?_hosts]
    rfl
  | failed status =>
    have hread := read?_flatten (by simp) (.cons (ReplyLine.reads_failed seq status) .nil)
    rwa [List.flatten_singleton] at hread
  | badArguments text =>
    have hread := read?_flatten (by simp) (.cons (ReplyLine.reads_badArguments seq text) .nil)
    rwa [List.flatten_singleton] at hread

/-! ## Which replies look alike -/

theorem oneLine_oneLine (s : Bytes) : oneLine (oneLine s) = oneLine s := by
  rw [oneLine, oneLine, List.map_map]
  refine List.map_congr_left fun b _ => ?_
  by_cases h : b = newline
  · simp [h]
  · simp [h]

theorem encode_normal (seq : UInt32) (reply : Reply) :
    reply.normal.encode seq = reply.encode seq := by
  cases reply with
  | addresses records =>
    have hline : recordLine seq ∘ AddressRecord.normal = recordLine seq := by
      funext r
      simp only [Function.comp_apply, recordLine, AddressRecord.normal, Family.raw_ofRaw]
    rw [normal, encode, encode, List.flatMap_map, ← Function.comp_def, hline]
  | host entry =>
    have hline : hostLine seq entry.normal = hostLine seq entry := by
      funext x
      simp only [hostLine, HostEntry.normal, Family.raw_ofRaw]
    rw [normal, encode, encode, hline]
    rfl
  | failed status => rfl
  | badArguments text => rw [normal, encode, encode, oneLine_oneLine]

theorem encode_of_isBare {reply : Reply} (h : reply.isBare = true) :
    reply.encode seq = doneLine seq := by
  cases reply with
  | addresses records =>
    rw [isBare, List.isEmpty_iff] at h
    rw [h]
    rfl
  | host entry =>
    rw [isBare, List.isEmpty_iff] at h
    rw [encode, h]
    rfl
  | failed status => cases h
  | badArguments text => cases h

theorem read_eq_empty_iff {reply : Reply} :
    (if reply.isBare then .addresses [] else reply.normal) = Reply.addresses [] ↔
      reply.isBare = true := by
  cases reply with
  | addresses records => cases records <;> simp [isBare, normal]
  | host entry => cases h : entry.addresses <;> simp [isBare, normal, h]
  | failed status => simp [isBare, normal]
  | badArguments text => simp [isBare, normal]

end Reply

end

/--
Every reply, but for a host whose name has a line feed, is read back from its
text with the number; and two such replies have one text only where number and
content agree, or where neither has a result or a status.
-/
theorem Reply.encode_recoverable :
    (∀ (seq : UInt32) (reply : Reply), reply.IsPlain →
      read? (reply.encode seq) =
        some (seq, if reply.isBare then .addresses [] else reply.normal)) ∧
    ∀ (seq seq' : UInt32) (reply reply' : Reply), reply.IsPlain → reply'.IsPlain →
      (reply.encode seq = reply'.encode seq' ↔
        seq = seq' ∧ (reply.normal = reply'.normal ∨
          reply.isBare = true ∧ reply'.isBare = true)) := by
  refine ⟨fun seq reply plain => read?_encode plain, ?_⟩
  intro seq seq' reply reply' plain plain'
  constructor
  · intro h
    have hread : read? (reply.encode seq) = _ := read?_encode plain
    rw [h, read?_encode plain'] at hread
    obtain ⟨rfl, hsaid⟩ := Prod.mk.inj (Option.some.inj hread)
    refine ⟨rfl, ?_⟩
    cases hbare : reply.isBare with
    | true =>
      rw [hbare, if_pos rfl, read_eq_empty_iff] at hsaid
      exact .inr ⟨rfl, hsaid⟩
    | false =>
      cases hbare' : reply'.isBare with
      | true =>
        rw [hbare', if_pos rfl, eq_comm, read_eq_empty_iff, hbare] at hsaid
        cases hsaid
      | false =>
        rw [hbare, hbare'] at hsaid
        exact .inl hsaid.symm
  · rintro ⟨rfl, hsame | ⟨hbare, hbare'⟩⟩
    · rw [← encode_normal, hsame, encode_normal]
    · rw [encode_of_isBare hbare, encode_of_isBare hbare']

namespace Reply

def spacedHost : Reply :=
  .host ⟨ascii "a  b ", .other 2, [.v4 ⟨10, 0, 0, 1⟩, .v6 ⟨[0, 0, 1, 0, 0, 0, 0, 1], rfl⟩]⟩

theorem spacedHost_recovered :
    spacedHost.IsPlain ∧ spacedHost.normal ≠ spacedHost ∧
      read? (spacedHost.encode 4294967295) = some (4294967295, spacedHost.normal) := by
  have plain : spacedHost.IsPlain := by
    have h : newline ∉ ascii "a  b " := by decide
    exact h
  exact ⟨plain, by decide, encode_recoverable.1 4294967295 spacedHost plain⟩

end Reply

end HostLookup
