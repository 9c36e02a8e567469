import HostLookup.Proofs.Answers
import HostLookup.Proofs.Texts

/-!
# Framing

A reply is lines with its number: results, and one last line with a status.
Whatever words a client sends and whatever the hosts file holds, no reply has a
line feed but at the ends of its lines (`isFramed_encode`). So a stream of
replies can be cut after every line that is no result, and that gives back the
replies (`cutReplies_flatten`).
-/

namespace HostLookup

open Bytes Hosts

/-! ## Lines with a code and a number -/

/-- How a line with a code and a number begins. -/
def tag (code : String) (seq : UInt32) : Bytes :=
  ascii code ++ ascii " " ++ Reply.sequenceText seq ++ ascii " "

/-- The codes of a last line. -/
def lastCodes : List String := ["200", "401", "500"]

/-- How a line begins that others follow. -/
def resultMark : Bytes := ascii "222 "

def terminate (line : Bytes) : Bytes := line ++ [newline]

/--
Lines without line feeds, each with one after it: results with a number, then a
last line with the same number.
-/
def IsFramed (seq : UInt32) (text : Bytes) : Prop :=
  ∃ results last, text = (results ++ [last]).flatMap terminate ∧
    (∀ line ∈ results ++ [last], newline ∉ line) ∧
    (∀ line ∈ results, tag "222" seq <+: line) ∧ ∃ code ∈ lastCodes, tag code seq <+: last

/-- Joins each piece that begins like a result to the pieces after it, up to one that does not. -/
def cutAfterLast : List Bytes → List Bytes
  | [] => []
  | [rest] => if rest.isEmpty then [] else [rest]
  | line :: lines =>
    if resultMark.isPrefixOf line then
      match cutAfterLast lines with
      | [] => [terminate line]
      | text :: texts => (terminate line ++ text) :: texts
    else terminate line :: cutAfterLast lines

/-- Cuts a stream after every line that does not begin like a result. -/
def cutReplies (stream : Bytes) : List Bytes := cutAfterLast (splitOn newline stream)

section

variable {seq : UInt32} {text line rest : Bytes}

theorem cutReplies_line_append (plain : newline ∉ line) :
    cutReplies (terminate line ++ rest) =
      if resultMark.isPrefixOf line then
        match cutReplies rest with
        | [] => [terminate line]
        | text :: texts => (terminate line ++ text) :: texts
      else terminate line :: cutReplies rest := by
  have hsplit : splitOn newline (terminate line ++ rest) = line :: splitOn newline rest := by
    rw [terminate, List.append_assoc, List.singleton_append,
      List.splitOn_append_cons_self_of_not_mem plain]
  obtain ⟨piece, pieces, hpieces⟩ := List.exists_cons_of_ne_nil (List.splitOn_ne_nil newline rest)
  rw [cutReplies, hsplit, cutReplies, hpieces, cutAfterLast]
  simp

theorem flatten_cutAfterLast (pieces : List Bytes) :
    (cutAfterLast pieces).flatten = [newline].intercalate pieces := by
  fun_induction cutAfterLast pieces with
  | case1 => rfl
  | case2 rest h =>
    rw [List.intercalate_singleton, List.isEmpty_iff.mp h]
    rfl
  | case3 rest h => rw [List.intercalate_singleton, List.flatten_singleton]
  | case4 line lines hne _ hnil ih =>
    rw [List.intercalate_cons_of_ne_nil hne, ← ih, hnil]
    rfl
  | case5 line lines hne _ text texts hcons ih =>
    rw [List.intercalate_cons_of_ne_nil hne, ← ih, hcons, List.flatten_cons, List.flatten_cons,
      List.append_assoc]
    rfl
  | case6 line lines hne _ ih =>
    rw [List.intercalate_cons_of_ne_nil hne, ← ih, List.flatten_cons]
    rfl

theorem flatten_cutReplies (stream : Bytes) : (cutReplies stream).flatten = stream := by
  rw [cutReplies, flatten_cutAfterLast, List.intercalate_splitOn]

theorem isPrefixOf_of_tag (h : tag "222" seq <+: line) : resultMark.isPrefixOf line = true := by
  have hmark : resultMark <+: tag "222" seq := ⟨Reply.sequenceText seq ++ ascii " ", by
    simp only [tag, List.append_assoc]
    rfl⟩
  exact List.isPrefixOf_iff_prefix.mpr (hmark.trans h)

theorem not_isPrefixOf_of_tag {code : String} (hcode : code ∈ lastCodes)
    (h : tag code seq <+: line) : resultMark.isPrefixOf line = false := by
  obtain ⟨tail, rfl⟩ := h
  simp only [lastCodes, List.mem_cons, List.not_mem_nil, or_false] at hcode
  rcases hcode with rfl | rfl | rfl <;> rfl

theorem IsFramed.cutReplies_append (h : IsFramed seq text) :
    cutReplies (text ++ rest) = text :: cutReplies rest := by
  obtain ⟨results, last, rfl, plain, tagged, code, hcode, hlast⟩ := h
  induction results with
  | nil =>
    have hlast := not_isPrefixOf_of_tag hcode hlast
    rw [List.nil_append, List.flatMap_singleton, cutReplies_line_append (plain last (by simp)),
      hlast]
    rfl
  | cons line results ih =>
    rw [List.cons_append] at plain ⊢
    obtain ⟨hline, hrest⟩ := List.forall_mem_cons.mp plain
    obtain ⟨htag, htags⟩ := List.forall_mem_cons.mp tagged
    rw [List.flatMap_cons, List.append_assoc, cutReplies_line_append hline,
      isPrefixOf_of_tag htag, ih hrest htags]
    rfl

/-- Cutting a stream of replies gives back the replies. -/
theorem cutReplies_flatten {texts : List Bytes} (h : ∀ text ∈ texts, ∃ seq, IsFramed seq text) :
    cutReplies texts.flatten = texts := by
  induction texts with
  | nil => rfl
  | cons text texts ih =>
    obtain ⟨⟨seq, hframed⟩, hrest⟩ := List.forall_mem_cons.mp h
    rw [List.flatten_cons, hframed.cutReplies_append, ih hrest]

end

/-! ## Replies -/

/-- One line with a code and a number. -/
def IsTagged (code : String) (seq : UInt32) (text : Bytes) : Prop :=
  ∃ line, text = terminate line ∧ newline ∉ line ∧ tag code seq <+: line

section

variable {seq : UInt32} {text first : Bytes} {code : String}

theorem isTagged_wordLine {word : Bytes} {words : List Bytes}
    (plain : ∀ w ∈ ascii code :: word :: words, newline ∉ w) :
    IsTagged code seq (wordLine (ascii code :: Reply.sequenceText seq :: word :: words)) := by
  obtain ⟨hcode, hwords⟩ := List.forall_mem_cons.mp plain
  refine ⟨_, rfl, not_mem_intercalate (by decide) ?_, (ascii " ").intercalate (word :: words), ?_⟩
  · exact List.forall_mem_cons.mpr ⟨hcode,
      List.forall_mem_cons.mpr ⟨Decimal.notMem_ofNat rfl _, hwords⟩⟩
  · simp only [tag, List.intercalate_cons_cons, List.append_assoc]

theorem IsTagged.isFramed (h : IsTagged code seq text) (hcode : code ∈ lastCodes) :
    IsFramed seq text := by
  obtain ⟨line, rfl, plain, htag⟩ := h
  refine ⟨[], line, by rw [List.nil_append, List.flatMap_singleton], ?_, List.forall_mem_nil _,
    code, hcode, htag⟩
  exact List.forall_mem_singleton.mpr plain

theorem IsFramed.cons (h : IsFramed seq text) (hfirst : IsTagged "222" seq first) :
    IsFramed seq (first ++ text) := by
  obtain ⟨results, last, rfl, plain, tagged, hlast⟩ := h
  obtain ⟨line, rfl, hline, htag⟩ := hfirst
  exact ⟨line :: results, last, rfl, List.forall_mem_cons.mpr ⟨hline, plain⟩,
    List.forall_mem_cons.mpr ⟨htag, tagged⟩, hlast⟩

theorem IsFramed.flatMap_append {α : Type} {f : α → Bytes} (h : IsFramed seq text)
    (hf : ∀ x, IsTagged "222" seq (f x)) (xs : List α) : IsFramed seq (xs.flatMap f ++ text) := by
  induction xs with
  | nil => exact h
  | cons x xs ih =>
    rw [List.flatMap_cons, List.append_assoc]
    exact ih.cons (hf x)

end

namespace Reply

/-- The name in a host entry has no line feed; what else a reply has needs no such care. -/
def IsPlain : Reply → Prop
  | host entry => newline ∉ entry.name
  | _ => True

section

variable {seq : UInt32} {reply : Reply}

theorem isFramed_doneLine (seq : UInt32) : IsFramed seq (doneLine seq) :=
  IsTagged.isFramed (isTagged_wordLine (by simp only [List.forall_mem_cons]; decide)) (by decide)

theorem isTagged_recordLine (seq : UInt32) (r : AddressRecord) :
    IsTagged "222" seq (recordLine seq r) := by
  refine isTagged_wordLine ?_
  simp only [List.forall_mem_cons]
  have number : ∀ n, newline ∉ Decimal.ofInt n := Decimal.notMem_ofInt rfl (by decide)
  exact ⟨by decide, by decide, number _, number _, number _, Hex.notMem_encode rfl _,
    List.forall_mem_nil _⟩

theorem isTagged_hostLine {entry : HostEntry} (plain : newline ∉ entry.name) (x : Address) :
    IsTagged "222" seq (hostLine seq entry x) := by
  refine isTagged_wordLine ?_
  simp only [List.forall_mem_cons]
  exact ⟨by decide, by decide, plain, Decimal.notMem_ofInt rfl (by decide) _,
    Address.notMem_text rfl (by decide) (by decide) x, List.forall_mem_nil _⟩

theorem isTagged_badArguments (text : Bytes) (seq : UInt32) :
    IsTagged "500" seq ((badArguments text).encode seq) := by
  refine isTagged_wordLine ?_
  simp only [List.forall_mem_cons]
  exact ⟨by decide, newline_notMem_oneLine text, List.forall_mem_nil _⟩

/-- A plain reply is framed. -/
theorem isFramed_encode (plain : reply.IsPlain) : IsFramed seq (reply.encode seq) := by
  cases reply with
  | addresses records => exact (isFramed_doneLine seq).flatMap_append (isTagged_recordLine seq) _
  | host entry => exact (isFramed_doneLine seq).flatMap_append (isTagged_hostLine plain) _
  | failed status =>
    refine IsTagged.isFramed (isTagged_wordLine ?_) (by decide)
    simp only [List.forall_mem_cons]
    exact ⟨by decide, Decimal.notMem_ofNat rfl _, status.newline_notMem_name, List.forall_mem_nil _⟩
  | badArguments text => exact (isTagged_badArguments text seq).isFramed (by decide)

end

end Reply

/-! ## Replies of a run -/

namespace Request

theorem newline_notMem_of_hostByName {t : Tracker} {name : Bytes} {family : Family}
    {entry : HostEntry} (h : t.hostByName name family = .ok entry) : newline ∉ entry.name := by
  rw [Tracker.hostByName] at h
  split at h
  · cases h
  · next s _ =>
    rw [Snapshot.hostByName] at h
    split at h
    · cases h
    · next word x hfind =>
      obtain ⟨e, -, he⟩ := Option.bind_eq_some_iff.mp hfind
      obtain ⟨_, -, heq⟩ := Option.map_eq_some_iff.mp he
      cases heq
      split at h
      · cases h
        exact newline_notMem_token _ _
      · cases h

theorem isPlain_reply (t : Tracker) (services : ServiceTable) (r : Request) :
    (r.reply t services).IsPlain := by
  rw [reply]
  split
  · next reply hanswer =>
    cases r with
    | forward host service hints =>
      obtain ⟨records, -, rfl⟩ := map_eq_ok_iff.mp hanswer
      trivial
    | byAddress octets family =>
      rw [answer] at hanswer
      split at hanswer
      · cases hanswer
      · obtain ⟨entry, hentry, rfl⟩ := map_eq_ok_iff.mp hanswer
        exact newline_notMem_of_hostByName hentry
    | byName name family =>
      obtain ⟨entry, hentry, rfl⟩ := map_eq_ok_iff.mp hanswer
      exact newline_notMem_of_hostByName hentry
  · trivial

end Request

theorem Reply.isPlain_ofRefusal (words : List Bytes) (failure : Failure) :
    (ofRefusal words failure).IsPlain := by
  cases failure <;> trivial

def Client.written (client : Client) : Bytes :=
  client.received.flatMap fun (seq, reply) => reply.encode seq

namespace Dispatcher

section

variable {d : Dispatcher} {a : Action} {actions : List Action} {c k : Nat} {seq : UInt32}
  {reply : Reply}

/-- Only plain replies are sent, by workers as well as in refusals. -/
theorem Tells.isPlain (fresh : d.workers = []) (ha : actions[k]? = some a)
    (h : (d.after actions k).Tells a c seq reply) : reply.IsPlain := by
  cases h with
  | refusal reads refused => exact Reply.isPlain_ofRefusal _ _
  | @answer i w reply worker phase =>
    have hk := Nat.le_of_lt (List.getElem?_eq_some_iff.mp ha).1
    have hi : d.workers.length ≤ i := by
      rw [fresh]
      exact Nat.zero_le i
    obtain ⟨l, -, hresolves⟩ := exists_resolve hi worker phase hk
    rw [hresolves.reply_eq]
    exact Request.isPlain_reply _ _ _

end

/--
Whatever lines, files and orders of steps a run has, starting without workers and messages. What is
written to a client grows in a step by one whole reply to a request of the client, or not at all.
Cutting it after each line that does not begin like a result leaves nothing out and gives back the
replies in the order sent. Each of them has results and one last line, with the number of its
request, and no other line feeds than those that end its lines.
-/
theorem replies_framed (d : Dispatcher) (fresh : d.workers = [])
    (empty : ∀ client ∈ d.clients, client.received = []) (actions : List Action) :
    (∀ c k a client, actions[k]? = some a → (d.after actions k).clients[c]? = some client →
      ∃ client', (d.after actions (k + 1)).clients[c]? = some client' ∧
        (client' = client ∨ ∃ j a' seq reply, actions[j]? = some a' ∧ a'.Asks c seq ∧
          d.Answers actions j k c seq reply ∧
          client'.received = client.received ++ [(seq, reply)] ∧
          client'.written = client.written ++ reply.encode seq)) ∧
    (∀ stream, (cutReplies stream).flatten = stream) ∧
    ∀ c client, (d.run actions).clients[c]? = some client →
      cutReplies client.written =
          client.received.map (fun (seq, reply) => reply.encode seq) ∧
        ∀ seq reply, (seq, reply) ∈ client.received →
          IsFramed seq (reply.encode seq) ∧
            ∃ j k a, actions[j]? = some a ∧ a.Asks c seq ∧ d.Answers actions j k c seq reply := by
  have idle : ∀ c, ∀ w ∈ d.workers, w.client ≠ c := by
    rw [fresh]
    exact fun _ => List.forall_mem_nil _
  refine ⟨?_, flatten_cutReplies, ?_⟩
  · intro c k a client ha hc
    rcases client_step hc a with ⟨hkept, -⟩ | ⟨seq, reply, htells, hgot⟩
    · exact ⟨client, after_succ ha ▸ hkept, .inl rfl⟩
    · refine ⟨_, after_succ ha ▸ hgot, ?_⟩
      by_cases hbroken : client.medium = .broken
      · exact .inl (if_pos hbroken)
      · obtain ⟨j, hanswers⟩ := exists_command (idle c) ha htells
        obtain ⟨a', ha', hasks⟩ := hanswers.exists_asks
        refine .inr ⟨j, a', seq, reply, ha', hasks, hanswers, ?_, ?_⟩
        · rw [Client.receive_of_works hbroken]
        · rw [Client.receive_of_works hbroken, Client.written, List.flatMap_append,
            List.flatMap_singleton]
          rfl
  · intro c client hc
    have hlast : (d.after actions actions.length).clients[c]? = some client := by
      rw [after_length, hc]
    have messages : ∀ seq reply, (seq, reply) ∈ client.received →
        IsFramed seq (reply.encode seq) ∧
          ∃ j k a, actions[j]? = some a ∧ a.Asks c seq ∧ d.Answers actions j k c seq reply := by
      intro seq reply hm
      obtain ⟨k, a, ha, htells⟩ := exists_tells empty hlast hm (Nat.le_refl _)
      obtain ⟨j, hanswers⟩ := exists_command (idle c) ha htells
      obtain ⟨a', ha', hasks⟩ := hanswers.exists_asks
      exact ⟨Reply.isFramed_encode (htells.isPlain fresh ha), j, k, a', ha', hasks, hanswers⟩
    refine ⟨?_, messages⟩
    rw [Client.written, List.flatMap_def]
    refine cutReplies_flatten fun text htext => ?_
    obtain ⟨⟨seq, reply⟩, hm, rfl⟩ := List.mem_map.mp htext
    exact ⟨seq, (messages seq reply hm).1⟩

theorem twoQueries_cut :
    oneClient.workers = [] ∧ (∀ client ∈ oneClient.clients, client.received = []) ∧
      ∃ client, (oneClient.run twoQueriesServed).clients[0]? = some client ∧
        (cutReplies client.written).length = 3 := by
  have fresh : oneClient.workers = [] := rfl
  have empty : ∀ client ∈ oneClient.clients, client.received = [] := by simp [oneClient]
  have count : ((oneClient.run twoQueriesServed).clients[0]?.map fun client =>
      client.received.length) = some 3 := by
    decide +kernel
  obtain ⟨client, hclient, hlength⟩ := Option.map_eq_some_iff.mp count
  obtain ⟨-, -, cut⟩ := replies_framed oneClient fresh empty twoQueriesServed
  refine ⟨fresh, empty, client, hclient, ?_⟩
  rw [(cut 0 client hclient).1, List.length_map, hlength]

end Dispatcher

end HostLookup
