import HostLookup.Proofs.Dispatch

/-!
# Freshness of replies

A reply depends on a tracker through the content of its snapshot alone
(`Request.reply_eq_freshReply`). In a run in which the tracked file can be
loaded and length and time tell its contents apart, a worker is answered from
the content that the file has in the very step, which lies between the start of
the worker and its reply.
-/

namespace HostLookup

open Bytes Hosts

/-! ## What a reply depends on -/

namespace Hosts.Snapshot

section

variable {s s' : Snapshot}

theorem lookup_congr (h : s.data = s'.data) (name : Bytes) : s.lookup name = s'.lookup name := by
  unfold lookup
  rw [s.entries_eq, s'.entries_eq, h]

theorem forward_congr (h : s.data = s'.data) (services : ServiceTable) (host : Bytes)
    (service : Option Bytes) (hints : Option Hints) :
    s.forward services host service hints = s'.forward services host service hints := by
  unfold forward addressToken
  rw [lookup_congr h, h]

theorem hostByName_congr (h : s.data = s'.data) (name : Bytes) (family : Family) :
    s.hostByName name family = s'.hostByName name family := by
  unfold hostByName nameToken
  rw [lookup_congr h, h]

end

end Hosts.Snapshot

namespace Request

/-- The reply from a new index over a content. -/
def freshReply (r : Request) (services : ServiceTable) (content : Bytes) : Reply :=
  r.reply (({ path := ⟨[]⟩ } : Tracker).replace content ⟨0, 0⟩) services

theorem reply_congr {t t' : Tracker} {s s' : Snapshot} (hs : t.snapshot = some s)
    (hs' : t'.snapshot = some s') (h : s.data = s'.data) (services : ServiceTable) (r : Request) :
    r.reply t services = r.reply t' services := by
  have hanswer : r.answer t services = r.answer t' services := by
    cases r with
    | forward host service hints =>
      simp only [answer, Tracker.forward, hs, hs', Snapshot.forward_congr h]
    | byAddress octets family =>
      simp only [answer, Tracker.hostByName, hs, hs', Snapshot.hostByName_congr h]
    | byName name family =>
      simp only [answer, Tracker.hostByName, hs, hs', Snapshot.hostByName_congr h]
  rw [reply, reply, hanswer]

theorem reply_eq_freshReply {t : Tracker} {s : Snapshot} (hs : t.snapshot = some s)
    (services : ServiceTable) (r : Request) :
    r.reply t services = r.freshReply services s.data := by
  have hs' : (({ path := ⟨[]⟩ } : Tracker).replace s.data ⟨0, 0⟩).snapshot =
      some (.take 0 ⟨[]⟩ s.data ⟨0, 0⟩) := rfl
  exact reply_congr hs hs' rfl services r

end Request

namespace Dispatcher

/-! ## What the tracked file holds in a run -/

/-- The content and time of the tracked file, if it can be loaded. -/
def content? (d : Dispatcher) : Option (Bytes × Timestamp) := d.tracker.current? d.files

/-- What the tracked file holds in the course of a run. -/
def contents (d : Dispatcher) (actions : List Action) : List (Bytes × Timestamp) :=
  (List.range (actions.length + 1)).filterMap fun k => (d.after actions k).content?

/-- The same, with what it held when the first snapshot was taken. -/
def history (d : Dispatcher) (actions : List Action) : List (Bytes × Timestamp) :=
  (d.tracker.snapshot.map fun s => (s.data, s.modified)).toList ++ d.contents actions

/--
The tracked file can be loaded all along, and length and time tell its contents
apart, that of a first snapshot among them.
-/
structure IsTracked (d : Dispatcher) (actions : List Action) : Prop where
  loadable : ∀ k ≤ actions.length, (d.after actions k).content? ≠ none
  apart : ∀ c ∈ d.history actions, ∀ c' ∈ d.history actions,
    c.1.length = c'.1.length → c.2 = c'.2 → c.1 = c'.1

def isTracked (d : Dispatcher) (actions : List Action) : Bool :=
  (List.range (actions.length + 1)).all (fun k => (d.after actions k).content?.isSome) &&
    (d.history actions).all fun c => (d.history actions).all fun c' =>
      c.1.length != c'.1.length || c.2 != c'.2 || c.1 == c'.1

section

variable {d : Dispatcher} {actions : List Action} {i k l : Nat} {w : Worker} {reply : Reply}
  {content : Bytes} {modified : Timestamp}

theorem isTracked_iff : d.isTracked actions = true ↔ d.IsTracked actions := by
  simp only [isTracked, Bool.and_eq_true, List.all_eq_true, List.mem_range, Nat.lt_succ_iff,
    Option.isSome_iff_ne_none, Bool.or_eq_true, bne_iff_ne, beq_iff_eq]
  constructor
  · rintro ⟨loadable, apart⟩
    refine ⟨loadable, fun c hc c' hc' hlen hmod => ?_⟩
    rcases apart c hc c' hc' with (hne | hne) | heq
    · exact absurd hlen hne
    · exact absurd hmod hne
    · exact heq
  · rintro ⟨loadable, apart⟩
    refine ⟨loadable, fun c hc c' hc' => ?_⟩
    by_cases hlen : c.1.length = c'.1.length
    · by_cases hmod : c.2 = c'.2
      · exact .inr (apart c hc c' hc' hlen hmod)
      · exact .inl (.inr hmod)
    · exact .inl (.inl hlen)

instance : Decidable (d.IsTracked actions) := decidable_of_iff _ isTracked_iff

theorem mem_contents (hk : k ≤ actions.length)
    (h : (d.after actions k).content? = some (content, modified)) :
    (content, modified) ∈ d.contents actions :=
  List.mem_filterMap.mpr ⟨k, List.mem_range.mpr (Nat.lt_succ_of_le hk), h⟩

theorem contents_cons (d : Dispatcher) (a : Action) (actions : List Action) :
    d.contents (a :: actions) = d.content?.toList ++ (d.step a).contents actions := by
  rw [contents, List.length_cons, List.range_succ_eq_map, List.filterMap_cons, List.filterMap_map]
  cases h : d.content? with
  | none =>
    rw [after_zero, h]
    rfl
  | some c =>
    rw [after_zero, h]
    rfl

theorem isTracked_cons_iff {a : Action} (files : (d.step a).files = d.files)
    (tracker : (d.step a).tracker = d.tracker) :
    d.IsTracked (a :: actions) ↔ (d.step a).IsTracked actions := by
  have hcontent : (d.step a).content? = d.content? := by rw [content?, content?, files, tracker]
  have hhistory : ∀ c, c ∈ d.history (a :: actions) ↔ c ∈ (d.step a).history actions := by
    intro c
    have hfirst : c ∈ d.content?.toList → c ∈ (d.step a).contents actions := fun hc =>
      mem_contents (Nat.zero_le _) (hcontent.trans (Option.mem_toList.mp hc))
    rw [history, history, contents_cons, tracker, List.mem_append, List.mem_append,
      List.mem_append, or_iff_right_of_imp hfirst]
  constructor
  · intro h
    refine ⟨fun k hk => h.loadable (k + 1) (Nat.succ_le_succ hk), fun c hc c' hc' => ?_⟩
    exact h.apart c ((hhistory c).mpr hc) c' ((hhistory c').mpr hc')
  · intro h
    refine ⟨fun k hk => ?_, fun c hc c' hc' => ?_⟩
    · cases k with
      | zero => exact hcontent ▸ h.loadable 0 (Nat.zero_le _)
      | succ k => exact h.loadable k (Nat.le_of_succ_le_succ hk)
    · exact h.apart c ((hhistory c).mp hc) c' ((hhistory c').mp hc')

/-- Every snapshot of a run is of what the file held in the run, or the first one. -/
theorem mem_history_of_snapshot {s : Snapshot} (hk : k ≤ actions.length)
    (hs : (d.after actions k).tracker.snapshot = some s) :
    (s.data, s.modified) ∈ d.history actions := by
  refine after_induction (P := fun _ d' => ∀ s, d'.tracker.snapshot = some s →
    (s.data, s.modified) ∈ d.history actions) (l := 0) ?_ ?_ (Nat.zero_le k) hk s hs
  · intro s hs
    rw [after_zero] at hs
    exact List.mem_append_left _ (by simp [hs])
  · intro k a _ ha ih s hs
    rcases (d.after actions k).tracker_step a with h | ⟨path, h⟩ | h
    · rw [h] at hs
      exact ih s hs
    · rw [h, Tracker.snapshot_retarget] at hs
      exact ih s hs
    · rw [h] at hs
      rcases (d.after actions k).tracker.refresh_cases (d.after actions k).files with
        ⟨hr, -⟩ | ⟨hr, -⟩ | ⟨content, modified, hr, hc, -⟩
      · rw [hr] at hs
        exact ih s hs
      · rw [hr] at hs
        exact ih s hs
      · rw [hr] at hs
        cases hs
        have hk := Nat.le_of_lt (List.getElem?_eq_some_iff.mp ha).1
        exact List.mem_append_right _ (mem_contents hk hc)

namespace IsTracked

/-- Whenever the tracker is refreshed, its snapshot then has the content of the file. -/
theorem data_refresh (h : d.IsTracked actions) (hl : l ≤ actions.length) :
    ∃ s modified,
      ((d.after actions l).tracker.refresh (d.after actions l).files).1.snapshot = some s ∧
      (d.after actions l).content? = some (s.data, modified) := by
  obtain ⟨⟨content, modified⟩, hc⟩ := Option.ne_none_iff_exists'.mp (h.loadable l hl)
  have hmem : (content, modified) ∈ d.history actions :=
    List.mem_append_right _ (mem_contents hl hc)
  obtain ⟨s, hs, rfl⟩ := Tracker.data_refresh hc fun s hs _ hlen hmod =>
    h.apart _ (mem_history_of_snapshot hl hs) _ hmem hlen hmod
  exact ⟨s, modified, hs, hc⟩

theorem reply_of_resolves {r : Request} (h : d.IsTracked actions)
    (hr : d.Resolves actions l i r reply) :
    ∃ content modified, (d.after actions l).content? = some (content, modified) ∧
      reply = r.freshReply d.services content := by
  have hl := Nat.le_of_lt (List.getElem?_eq_some_iff.mp hr.action).1
  obtain ⟨s, modified, hs, hc⟩ := h.data_refresh hl
  exact ⟨s.data, modified, hc, hr.reply_eq.trans (r.reply_eq_freshReply hs d.services)⟩

/-- A reply is answered from a content that the file has between start and reply. -/
theorem reply_of_sends (h : d.IsTracked actions) (hi : d.workers.length ≤ i)
    (hs : d.Sends actions k i w reply) :
    ∃ j l content modified, d.Starts actions j i { w with phase := .waiting } ∧ j < l ∧ l ≤ k ∧
      (d.after actions l).content? = some (content, modified) ∧
      reply = w.request.freshReply d.services content := by
  have hk := Nat.le_of_lt hs.lt_length
  obtain ⟨j, hj, hstart⟩ := exists_starts hi hs.worker hk
  obtain ⟨l, hl, hresolve⟩ := exists_resolve hi hs.worker hs.phase hk
  obtain ⟨content, modified, hc, hreply⟩ := h.reply_of_resolves hresolve
  refine ⟨j, l, content, modified, hstart, ?_, Nat.le_of_lt hl, hc, hreply⟩
  refine Nat.lt_of_not_le fun hlj => ?_
  have hmono := length_workers_mono (d := d) hlj (Nat.le_trans (Nat.le_of_lt hj) hk)
  have := hresolve.started
  have := hstart.fresh
  omega

end IsTracked

end

/--
In a run with a tracked file, whatever the interleaving, a worker has sent one reply once it is past
its answer, and sends no other. The client gets it with the number of the request, and it is what a
new index over a content that the file has between the start of the worker and its reply answers.
Where the file holds the same in two runs all along, equal requests get equal replies.
-/
theorem replies_fresh (d : Dispatcher) (actions : List Action) (tracked : d.IsTracked actions) :
    (∀ i w, d.workers.length ≤ i → (d.after actions actions.length).workers[i]? = some w →
      w.phase = .delivered ∨ w.phase = .ended →
      ∃ k v reply, d.Sends actions k i v reply ∧ w = { v with phase := w.phase }) ∧
    (∀ i k w reply k' w' reply', d.Sends actions k i w reply → d.Sends actions k' i w' reply' →
      k' = k ∧ w' = w ∧ reply' = reply) ∧
    (∀ i k w reply, d.workers.length ≤ i → d.Sends actions k i w reply →
      (d.after actions (k + 1)).clients =
          (d.after actions k).clients.modify w.client (·.receive w.seq reply) ∧
        ∃ j l content modified, d.Starts actions j i { w with phase := .waiting } ∧
          j < l ∧ l ≤ k ∧ (d.after actions l).content? = some (content, modified) ∧
          reply = w.request.freshReply d.services content) ∧
    ∀ (d' : Dispatcher) (actions' : List Action), d'.services = d.services →
      d'.IsTracked actions' →
      (∀ c ∈ d.contents actions, ∀ c' ∈ d'.contents actions', c.1 = c'.1) →
      ∀ i k w reply i' k' w' reply', d.workers.length ≤ i → d'.workers.length ≤ i' →
        d.Sends actions k i w reply → d'.Sends actions' k' i' w' reply' →
        w.request = w'.request → reply = reply' := by
  refine ⟨?_, ?_, ?_, ?_⟩
  · intro i w hi hw hphase
    obtain ⟨k, -, v, reply, hs, hv⟩ := exists_sends hi hw hphase (Nat.le_refl _)
    exact ⟨k, v, reply, hs, hv⟩
  · intro i k w reply k' w' reply' hs hs'
    exact hs.unique hs'
  · intro i k w reply hi hs
    exact ⟨hs.clients, tracked.reply_of_sends hi hs⟩
  · intro d' actions' hservices tracked' same i k w reply i' k' w' reply' hi hi' hs hs' hreq
    obtain ⟨j, l, content, modified, -, -, hl, hc, rfl⟩ := tracked.reply_of_sends hi hs
    obtain ⟨j', l', content', modified', -, -, hl', hc', rfl⟩ := tracked'.reply_of_sends hi' hs'
    have hmem := mem_contents (Nat.le_trans hl (Nat.le_of_lt hs.lt_length)) hc
    have hmem' := mem_contents (Nat.le_trans hl' (Nat.le_of_lt hs'.lt_length)) hc'
    have hcontent : content = content' := same _ hmem _ hmem'
    rw [hservices, hreq, hcontent]

def sample : Dispatcher :=
  { files := Tracking.sampleFiles
    tracker := (Tracker.mk Tracking.samplePath none 0).replace (ascii "10.0.0.9 a\n") ⟨0, 0⟩
    clients := [{ medium := .memory }] }

def sampleRequest : Request := .forward (some (ascii "a")) none none

def sampleWorker (seq : UInt32) (reply : Reply) : Worker :=
  { seq, request := sampleRequest, client := 0, slotted := true, phase := .answered reply }

def sampleReplacement : List Action :=
  [.dispatch 0 1 sampleRequest.arguments, .dispatch 0 2 sampleRequest.arguments, .resolve 0,
    .change (.write Tracking.samplePath (ascii "10.0.0.2 a\n") ⟨2, 0⟩), .resolve 1, .deliver 1]

def sampleOrder (i j : Nat) : List Action :=
  [.dispatch 0 1 sampleRequest.arguments, .dispatch 0 2 sampleRequest.arguments,
    .resolve i, .resolve j, .deliver 0]

theorem sample_replies :
    sample.IsTracked sampleReplacement ∧ sample.IsTracked (sampleOrder 0 1) ∧
      (∃ reply, sample.Sends sampleReplacement 5 1 (sampleWorker 2 reply) reply ∧
        ∃ j l content modified,
          sample.Starts sampleReplacement j 1
            { sampleWorker 2 reply with phase := .waiting } ∧
          j < l ∧ l ≤ 5 ∧ (sample.after sampleReplacement l).content? = some (content, modified) ∧
          reply = sampleRequest.freshReply [] content) ∧
      ∃ reply reply', sample.Sends (sampleOrder 0 1) 4 0 (sampleWorker 1 reply) reply ∧
        sample.Sends (sampleOrder 1 0) 4 0 (sampleWorker 1 reply') reply' ∧ reply = reply' := by
  have tracked : sample.IsTracked sampleReplacement := isTracked_iff.mp (by decide +kernel)
  have tracked₁ : sample.IsTracked (sampleOrder 0 1) := isTracked_iff.mp (by decide +kernel)
  have tracked₂ : sample.IsTracked (sampleOrder 1 0) := isTracked_iff.mp (by decide +kernel)
  have same : ((sample.contents (sampleOrder 0 1)).all fun c =>
      (sample.contents (sampleOrder 1 0)).all fun c' => c.1 == c'.1) = true := by
    decide +kernel
  simp only [List.all_eq_true, beq_iff_eq] at same
  have sends : sample.Sends sampleReplacement 5 1
      (sampleWorker 2 (sampleRequest.freshReply [] (ascii "10.0.0.2 a\n")))
      (sampleRequest.freshReply [] (ascii "10.0.0.2 a\n")) :=
    ⟨rfl, by decide +kernel, rfl⟩
  have sends₁ : sample.Sends (sampleOrder 0 1) 4 0
      (sampleWorker 1 (sampleRequest.freshReply [] (ascii "10.0.0.1 a\n")))
      (sampleRequest.freshReply [] (ascii "10.0.0.1 a\n")) :=
    ⟨rfl, by decide +kernel, rfl⟩
  have sends₂ : sample.Sends (sampleOrder 1 0) 4 0
      (sampleWorker 1 (sampleRequest.freshReply [] (ascii "10.0.0.1 a\n")))
      (sampleRequest.freshReply [] (ascii "10.0.0.1 a\n")) :=
    ⟨rfl, by decide +kernel, rfl⟩
  obtain ⟨-, -, fresh, -⟩ := replies_fresh sample sampleReplacement tracked
  obtain ⟨-, -, -, order⟩ := replies_fresh sample (sampleOrder 0 1) tracked₁
  refine ⟨tracked, tracked₁, ⟨_, sends, (fresh _ _ _ _ (Nat.zero_le _) sends).2⟩,
    ⟨_, _, sends₁, sends₂, ?_⟩⟩
  exact order sample (sampleOrder 1 0) rfl tracked₂ same _ _ _ _ _ _ _ _ (Nat.zero_le _)
    (Nat.zero_le _) sends₁ sends₂ rfl

end Dispatcher

end HostLookup
