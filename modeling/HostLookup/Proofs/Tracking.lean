import HostLookup.Hosts.Tracker

/-!
# Runs of a tracker

A run mixes changes of the files with retargets and refreshes of one tracker.
`refresh_cases` says all that a refresh can do. A snapshot is known by its path,
length and time, so what a refresh keeps is right as long as these tell contents
apart (`Tracker.IsFaithful`); serials only grow (`Tracker.IsNumbered`), so a new
snapshot is never one that was there before.
-/

namespace HostLookup.Hosts

open Bytes

theorem Snapshot.isCurrent_iff {s : Snapshot} {source : Path} {length : Nat}
    {modified : Timestamp} :
    s.isCurrent source length modified = true ↔
      s.source.same source = true ∧ s.data.length = length ∧ s.modified = modified := by
  simp only [isCurrent, Bool.and_eq_true, beq_iff_eq, and_assoc]

namespace Tracker

/--
What opens at the tracked path with the length and time of the snapshot, taken
through an equal path, is a file with the content of the snapshot.
-/
def IsFaithful (t : Tracker) (files : FileTree) : Prop :=
  ∀ s opened, t.snapshot = some s → s.source.same t.path = true →
    files.openForReading t.path = .ok opened → opened.length = s.data.length →
    opened.modified = s.modified → opened = .file s.data s.modified

/-- `IsFaithful` as a check. -/
def isFaithful (t : Tracker) (files : FileTree) : Bool :=
  match t.snapshot, files.openForReading t.path with
  | some s, .ok opened =>
    !s.isCurrent t.path opened.length opened.modified || opened == .file s.data s.modified
  | _, _ => true

/-- The serials of snapshots to come are not in use. -/
def IsNumbered (t : Tracker) : Prop := ∀ s, t.snapshot = some s → s.serial < t.next

section

variable {t : Tracker} {files : FileTree} {content : Bytes} {modified : Timestamp}

theorem isFaithful_iff : t.isFaithful files = true ↔ t.IsFaithful files := by
  unfold isFaithful IsFaithful
  cases t.snapshot with
  | none => simp
  | some s =>
    cases files.openForReading t.path with
    | error fault => simp
    | ok opened =>
      simp only [Bool.or_eq_true, Bool.not_eq_true', beq_iff_eq]
      constructor
      · rintro h s' opened' hs hpath ho hlen hmod
        cases hs
        cases ho
        rcases h with hne | heq
        · rw [Snapshot.isCurrent_iff.mpr ⟨hpath, hlen.symm, hmod.symm⟩] at hne
          cases hne
        · exact heq
      · intro h
        cases hc : s.isCurrent t.path opened.length opened.modified with
        | false => exact .inl rfl
        | true =>
          obtain ⟨hpath, hlen, hmod⟩ := Snapshot.isCurrent_iff.mp hc
          exact .inr (h s opened rfl hpath rfl hlen.symm hmod.symm)

instance : Decidable (t.IsFaithful files) := decidable_of_iff _ isFaithful_iff

theorem current?_eq_some_iff :
    t.current? files = some (content, modified) ↔
      ∃ opened, files.openForReading t.path = .ok opened ∧ opened.mapped? = some content ∧
        opened.modified = modified := by
  unfold current?
  constructor
  · intro h
    split at h
    · next opened ho =>
      obtain ⟨c, hc, he⟩ := Option.map_eq_some_iff.mp h
      cases he
      exact ⟨opened, ho, hc, rfl⟩
    · cases h
  · rintro ⟨opened, ho, hm, rfl⟩
    rw [ho]
    simp only [hm, Option.map_some]

theorem holds_iff {length : Nat} :
    t.holds length modified = true ↔
      ∃ s, t.snapshot = some s ∧ s.source.same t.path = true ∧ s.data.length = length ∧
        s.modified = modified := by
  unfold holds
  cases t.snapshot with
  | none => simp
  | some s =>
    simp only [Snapshot.isCurrent_iff]
    constructor
    · intro h
      exact ⟨s, rfl, h⟩
    · rintro ⟨s', he, h⟩
      cases he
      exact h

theorem retarget_of_same {path : Path} (h : t.path.same path = true) : t.retarget path = t :=
  if_pos h

@[simp] theorem snapshot_retarget (t : Tracker) (path : Path) :
    (t.retarget path).snapshot = t.snapshot := by
  unfold retarget
  split <;> rfl

@[simp] theorem next_retarget (t : Tracker) (path : Path) : (t.retarget path).next = t.next := by
  unfold retarget
  split <;> rfl

/-- A refresh finds nothing to open or map, keeps a current snapshot, or takes a new one. -/
theorem refresh_cases (t : Tracker) (files : FileTree) :
    (t.refresh files = (t, .unavailable) ∧ t.current? files = none) ∨
      (t.refresh files = (t, .unchanged) ∧ ∃ opened, files.openForReading t.path = .ok opened ∧
        t.holds opened.length opened.modified = true) ∨
      ∃ content modified, t.refresh files =
          (t.replace content modified, .rebuilt (Index.build content).size) ∧
        t.current? files = some (content, modified) ∧
        t.holds content.length modified = false := by
  unfold refresh current?
  cases ho : files.openForReading t.path with
  | error fault => exact .inl ⟨rfl, rfl⟩
  | ok opened =>
    simp only
    by_cases hh : t.holds opened.length opened.modified = true
    · rw [if_pos hh]
      exact .inr (.inl ⟨rfl, opened, rfl, hh⟩)
    · rw [if_neg hh]
      cases hm : opened.mapped? with
      | none => exact .inl ⟨rfl, rfl⟩
      | some content =>
        refine .inr (.inr ⟨content, opened.modified, rfl, rfl, ?_⟩)
        rw [← opened.length_of_mapped? hm]
        exact Bool.not_eq_true _ ▸ hh

theorem IsNumbered.replace : (t.replace content modified).IsNumbered := by
  intro s hs
  cases hs
  exact Nat.lt_succ_self _

theorem IsNumbered.refresh (h : t.IsNumbered) : (t.refresh files).1.IsNumbered := by
  rcases t.refresh_cases files with ⟨hr, -⟩ | ⟨hr, -⟩ | ⟨content, modified, hr, -, -⟩
  · rw [hr]
    exact h
  · rw [hr]
    exact h
  · rw [hr]
    exact .replace

theorem IsNumbered.retarget (h : t.IsNumbered) (path : Path) : (t.retarget path).IsNumbered := by
  intro s hs
  rw [snapshot_retarget] at hs
  rw [next_retarget]
  exact h s hs

theorem IsNumbered.replace_ne (h : t.IsNumbered) :
    (t.replace content modified).snapshot ≠ t.snapshot := by
  intro he
  have := h _ he.symm
  exact Nat.lt_irrefl _ this

theorem next_le_refresh (t : Tracker) (files : FileTree) : t.next ≤ (t.refresh files).1.next := by
  rcases t.refresh_cases files with ⟨hr, -⟩ | ⟨hr, -⟩ | ⟨content, modified, hr, -, -⟩
  · exact Nat.le_of_eq (congrArg (·.1.next) hr).symm
  · exact Nat.le_of_eq (congrArg (·.1.next) hr).symm
  · rw [hr]
    exact Nat.le_succ _

theorem holds_replace : (t.replace content modified).holds content.length modified = true :=
  holds_iff.mpr ⟨_, rfl, Path.same_refl _, rfl, rfl⟩

/-! ## One refresh -/

theorem snapshot_refresh_ne_iff (h : t.IsNumbered) :
    (t.refresh files).1.snapshot ≠ t.snapshot ↔ ∃ n, (t.refresh files).2 = .rebuilt n := by
  rcases t.refresh_cases files with ⟨hr, -⟩ | ⟨hr, -⟩ | ⟨content, modified, hr, -, -⟩
  · simp [hr]
  · simp [hr]
  · rw [hr]
    exact ⟨fun _ => ⟨_, rfl⟩, fun _ => h.replace_ne⟩

theorem snapshot_of_rebuilt {n : Nat} (h : (t.refresh files).2 = .rebuilt n) :
    ∃ s, (t.refresh files).1.snapshot = some s ∧ s.entries.size = n ∧ s.serial = t.next := by
  rcases t.refresh_cases files with ⟨hr, -⟩ | ⟨hr, -⟩ | ⟨content, modified, hr, -, -⟩
  · rw [hr] at h
    cases h
  · rw [hr] at h
    cases h
  · rw [hr] at h ⊢
    cases h
    exact ⟨_, rfl, rfl, rfl⟩

/-- With a snapshot that tells contents apart, a refresh fails exactly if the file does. -/
theorem unavailable_iff (h : t.IsFaithful files) :
    (t.refresh files).2 = .unavailable ↔ t.current? files = none := by
  rcases t.refresh_cases files with ⟨hr, hc⟩ | ⟨hr, opened, ho, hh⟩ | ⟨content, modified, hr, hc, -⟩
  · simp [hr, hc]
  · obtain ⟨s, hs, hpath, hlen, hmod⟩ := holds_iff.mp hh
    have := h s opened hs hpath ho hlen.symm hmod.symm
    subst this
    have hc : t.current? files = some (s.data, s.modified) :=
      current?_eq_some_iff.mpr ⟨_, ho, rfl, rfl⟩
    simp [hr, hc]
  · simp [hr, hc]

theorem snapshot_of_unavailable (h : (t.refresh files).2 = .unavailable) :
    (t.refresh files).1 = t := by
  rcases t.refresh_cases files with ⟨hr, -⟩ | ⟨hr, -⟩ | ⟨content, modified, hr, -, -⟩
  · rw [hr]
  · rw [hr]
  · rw [hr] at h
    cases h

/-- If the snapshot tells the content of the file apart, a refresh ends with that content. -/
theorem data_refresh (hc : t.current? files = some (content, modified))
    (apart : ∀ s, t.snapshot = some s → s.source.same t.path = true →
      s.data.length = content.length → s.modified = modified → s.data = content) :
    ∃ s, (t.refresh files).1.snapshot = some s ∧ s.data = content := by
  rcases t.refresh_cases files with ⟨hr, hc'⟩ | ⟨hr, opened, ho, hh⟩ | ⟨c, m, hr, hc', -⟩
  · rw [hc] at hc'
    cases hc'
  · obtain ⟨s, hs, hpath, hlen, hmod⟩ := holds_iff.mp hh
    obtain ⟨o, ho', hm, hmod'⟩ := current?_eq_some_iff.mp hc
    cases ho.symm.trans ho'
    have hdata := apart s hs hpath (hlen.trans (opened.length_of_mapped? hm)) (hmod.trans hmod')
    exact ⟨s, by rw [hr]; exact hs, hdata⟩
  · rw [hc] at hc'
    cases hc'
    exact ⟨_, by rw [hr]; rfl, rfl⟩

theorem IsFaithful.data_eq (h : t.IsFaithful files)
    (hc : t.current? files = some (content, modified)) {s : Snapshot} (hs : t.snapshot = some s)
    (hpath : s.source.same t.path = true) (hlen : s.data.length = content.length)
    (hmod : s.modified = modified) : s.data = content := by
  obtain ⟨opened, ho, hm, hmod'⟩ := current?_eq_some_iff.mp hc
  have hlen' := (opened.length_of_mapped? hm).trans hlen.symm
  rw [h s opened hs hpath ho hlen' (hmod'.trans hmod.symm)] at hm
  exact Option.some.inj hm

theorem current?_eq_none_iff :
    t.current? files = none ↔
      ∀ opened, files.openForReading t.path = .ok opened → opened.mapped? = none := by
  constructor
  · intro h opened ho
    cases hm : opened.mapped? with
    | none => rfl
    | some content =>
      rw [current?_eq_some_iff.mpr ⟨opened, ho, hm, rfl⟩] at h
      cases h
  · intro h
    cases hc : t.current? files with
    | none => rfl
    | some c =>
      obtain ⟨opened, ho, hm, -⟩ := current?_eq_some_iff.mp hc
      rw [h opened ho] at hm
      cases hm

theorem refresh_refresh (t : Tracker) (files : FileTree) :
    (t.refresh files).1.refresh files =
      ((t.refresh files).1,
        if (t.refresh files).2 = .unavailable then .unavailable else .unchanged) := by
  rcases t.refresh_cases files with ⟨hr, -⟩ | ⟨hr, -⟩ | ⟨content, modified, hr, hc, -⟩
  · simp [hr]
  · simp [hr]
  · rw [hr]
    simp only [reduceCtorEq, if_false]
    rcases (t.replace content modified).refresh_cases files with
      ⟨-, hc'⟩ | ⟨hr', -⟩ | ⟨content', modified', -, hc', hh⟩
    · exact absurd (hc'.symm.trans hc) (by simp)
    · exact hr'
    · -- the file is the one that the new snapshot was taken of
      obtain ⟨rfl, rfl⟩ := Prod.mk.inj (Option.some.inj (hc'.symm.trans hc))
      rw [holds_replace] at hh
      cases hh

end

end Tracker

/-! ## Runs -/

inductive TrackerStep where
  | change (what : FileChange)
  /-- The system reports other lengths and times for the directories. -/
  | restat (stat : Location → Nat × Timestamp)
  | retarget (path : Path)
  | refresh

structure Tracking where
  files : FileTree
  tracker : Tracker

namespace Tracking

def step (s : Tracking) : TrackerStep → Tracking
  | .change what => { s with files := s.files.after what }
  | .restat stat => { s with files := { s.files with directoryStat := stat } }
  | .retarget path => { s with tracker := s.tracker.retarget path }
  | .refresh => { s with tracker := (s.tracker.refresh s.files).1 }

def run (s : Tracking) (steps : List TrackerStep) : Tracking := steps.foldl step s

def outcome (s : Tracking) : Refresh := (s.tracker.refresh s.files).2

/-- Steps that change neither the files nor the tracked path. -/
def IsQuiet (s : Tracking) : TrackerStep → Prop
  | .retarget path => s.tracker.path.same path = true
  | .refresh => True
  | _ => False

section

variable {s : Tracking} {steps : List TrackerStep} {step : TrackerStep}

theorem run_take_succ {k : Nat} (h : steps[k]? = some step) :
    s.run (steps.take (k + 1)) = (s.run (steps.take k)).step step := by
  obtain ⟨hk, rfl⟩ := List.getElem?_eq_some_iff.mp h
  rw [run, run, List.take_succ_eq_append_getElem hk, List.foldl_append]
  rfl

theorem isNumbered_step (h : s.tracker.IsNumbered) : (s.step step).tracker.IsNumbered := by
  cases step with
  | change what => exact h
  | restat stat => exact h
  | retarget path => exact h.retarget path
  | refresh => exact h.refresh

theorem isNumbered_run (h : s.tracker.IsNumbered) : (s.run steps).tracker.IsNumbered := by
  induction steps generalizing s with
  | nil => exact h
  | cons step steps ih => exact ih (isNumbered_step h)

theorem next_le_step (s : Tracking) (step : TrackerStep) :
    s.tracker.next ≤ (s.step step).tracker.next := by
  cases step with
  | change what => exact Nat.le_refl _
  | restat stat => exact Nat.le_refl _
  | retarget path => exact Nat.le_of_eq (s.tracker.next_retarget path).symm
  | refresh => exact s.tracker.next_le_refresh s.files

theorem next_le_run (s : Tracking) (steps : List TrackerStep) :
    s.tracker.next ≤ (s.run steps).tracker.next := by
  induction steps generalizing s with
  | nil => exact Nat.le_refl _
  | cons step steps ih => exact Nat.le_trans (s.next_le_step step) (ih _)

theorem next_le_run_take (s : Tracking) (steps : List TrackerStep) {i k : Nat} (h : i ≤ k) :
    (s.run (steps.take i)).tracker.next ≤ (s.run (steps.take k)).tracker.next := by
  have hsplit : steps.take k = steps.take i ++ (steps.take k).drop i := by
    conv => lhs; rw [← List.take_append_drop i (steps.take k)]
    rw [List.take_take, Nat.min_eq_left h]
  have hrun : s.run (steps.take k) = (s.run (steps.take i)).run ((steps.take k).drop i) := by
    conv => lhs; rw [hsplit]
    exact List.foldl_append
  rw [hrun]
  exact next_le_run _ _

theorem snapshot_step (h : step ≠ .refresh) :
    (s.step step).tracker.snapshot = s.tracker.snapshot := by
  cases step with
  | change what => rfl
  | restat stat => rfl
  | retarget path => exact s.tracker.snapshot_retarget path
  | refresh => exact absurd rfl h

theorem step_of_isQuiet (h : (s.step .refresh).IsQuiet step) :
    (s.step .refresh).step step = s.step .refresh := by
  cases step with
  | change what => exact h.elim
  | restat stat => exact h.elim
  | retarget path => rw [Tracking.step, Tracker.retarget_of_same h]
  | refresh =>
    have := s.tracker.refresh_refresh s.files
    simp only [Tracking.step, this]

theorem outcome_step_refresh (s : Tracking) :
    (s.step .refresh).outcome = if s.outcome = .unavailable then .unavailable else .unchanged :=
  congrArg Prod.snd (s.tracker.refresh_refresh s.files)

theorem run_take_of_isQuiet {j k : Nat} (hj : steps[j]? = some .refresh) (hjk : j < k)
    (hk : k ≤ steps.length)
    (quiet : ∀ i step, j < i → i < k → steps[i]? = some step →
      (s.run (steps.take i)).IsQuiet step) :
    s.run (steps.take k) = s.run (steps.take (j + 1)) := by
  induction k with
  | zero => omega
  | succ k ih =>
    rcases Nat.eq_or_lt_of_le (Nat.le_of_lt_succ hjk) with rfl | hlt
    · rfl
    · have hprev := ih hlt (by omega) fun i step h1 h2 => quiet i step h1 (by omega)
      have hstep : steps[k]? = some steps[k] := List.getElem?_eq_getElem (by omega)
      have hq := quiet k _ hlt (Nat.lt_succ_self k) hstep
      rw [run_take_succ hstep, hprev]
      rw [hprev, run_take_succ hj] at hq
      rw [run_take_succ hj]
      exact step_of_isQuiet hq

end

/-! ## What a run does -/

section

variable {s : Tracking} {steps : List TrackerStep}

/-- A refresh that succeeds ends with the content that the tracked path opens. -/
theorem refresh_exact (h : s.tracker.IsFaithful s.files) (hne : s.outcome ≠ .unavailable) :
    ∃ snapshot opened, (s.step .refresh).tracker.snapshot = some snapshot ∧
      s.files.openForReading s.tracker.path = .ok opened ∧
      opened.mapped? = some snapshot.data ∧ snapshot.entries = Index.build snapshot.data := by
  have hc : s.tracker.current? s.files ≠ none := fun hc => hne ((Tracker.unavailable_iff h).mpr hc)
  obtain ⟨⟨content, modified⟩, hc⟩ := Option.ne_none_iff_exists'.mp hc
  obtain ⟨snapshot, hs, hdata⟩ := Tracker.data_refresh hc fun _ hs => h.data_eq hc hs
  obtain ⟨opened, ho, hm, -⟩ := Tracker.current?_eq_some_iff.mp hc
  exact ⟨snapshot, opened, hs, ho, hdata ▸ hm, snapshot.entries_eq⟩

theorem snapshot_step_ne_iff (h : s.tracker.IsNumbered) (step : TrackerStep) :
    (s.step step).tracker.snapshot ≠ s.tracker.snapshot ↔
      step = .refresh ∧ ∃ n, s.outcome = .rebuilt n := by
  by_cases hs : step = .refresh
  · subst hs
    rw [eq_self_iff_true, true_and]
    exact Tracker.snapshot_refresh_ne_iff h
  · constructor
    · intro hne
      exact absurd (snapshot_step hs) hne
    · rintro ⟨heq, -⟩
      exact absurd heq hs

/-- The serial of a new snapshot is later than all that a run had so far. -/
theorem snapshot_run_ne {i k : Nat} {snapshot : Snapshot} (h : s.tracker.IsNumbered)
    (hik : i ≤ k) (hserial : snapshot.serial = (s.run (steps.take k)).tracker.next) :
    (s.run (steps.take i)).tracker.snapshot ≠ some snapshot := by
  intro hold
  have hlt := isNumbered_run h snapshot hold
  have hle := s.next_le_run_take steps hik
  omega

theorem outcome_step_refresh_cases (h : (s.step .refresh).tracker.IsFaithful s.files) :
    (s.step .refresh).outcome = .unchanged ∨ (s.step .refresh).outcome = .unavailable ∧
      ∀ opened, s.files.openForReading (s.step .refresh).tracker.path = .ok opened →
        opened.mapped? = none := by
  rw [← Tracker.current?_eq_none_iff, outcome_step_refresh]
  by_cases hu : s.outcome = .unavailable
  · have hu' : (s.step .refresh).outcome = .unavailable := by
      rw [outcome_step_refresh, if_pos hu]
    rw [if_pos hu]
    exact .inr ⟨rfl, (Tracker.unavailable_iff h).mp hu'⟩
  · rw [if_neg hu]
    exact .inl rfl

end

/--
A run from a new tracker, in which the recorded path, length and time tell contents apart whenever
the file is refreshed. A refresh that succeeds ends with the content that the tracked path opens. It
fails exactly if nothing can be opened and mapped, and then keeps the snapshot. The snapshot changes
exactly at a refresh that counts its entries, to one that was never there before. A refresh after
quiet steps replaces nothing, and fails only if the file does.
-/
theorem run_tracks (files : FileTree) (path : Path) (steps : List TrackerStep)
    (faithful : ∀ k, steps[k]? = some .refresh →
      (run ⟨files, { path }⟩ (steps.take k)).tracker.IsFaithful
        (run ⟨files, { path }⟩ (steps.take k)).files) :
    let state := fun k => run ⟨files, { path }⟩ (steps.take k)
    (∀ k, steps[k]? = some .refresh → (state k).outcome ≠ .unavailable →
      ∃ s opened, (state (k + 1)).tracker.snapshot = some s ∧
        (state k).files.openForReading (state k).tracker.path = .ok opened ∧
        opened.mapped? = some s.data ∧ s.entries = Index.build s.data) ∧
    (∀ k, steps[k]? = some .refresh →
      ((state k).outcome = .unavailable ↔
        ∀ opened, (state k).files.openForReading (state k).tracker.path = .ok opened →
          opened.mapped? = none) ∧
      ((state k).outcome = .unavailable →
        (state (k + 1)).tracker.snapshot = (state k).tracker.snapshot)) ∧
    (∀ k step, steps[k]? = some step →
      ((state (k + 1)).tracker.snapshot ≠ (state k).tracker.snapshot ↔
        step = .refresh ∧ ∃ n, (state k).outcome = .rebuilt n) ∧
      ∀ n, step = .refresh → (state k).outcome = .rebuilt n →
        ∃ s, (state (k + 1)).tracker.snapshot = some s ∧ s.entries.size = n ∧
          ∀ i ≤ k, (state i).tracker.snapshot ≠ some s) ∧
    ∀ j k, j < k → steps[j]? = some .refresh → steps[k]? = some .refresh →
      (∀ i step, j < i → i < k → steps[i]? = some step → (state i).IsQuiet step) →
      (state (k + 1)).tracker.snapshot = (state (j + 1)).tracker.snapshot ∧
      ((state k).outcome = .unchanged ∨ (state k).outcome = .unavailable ∧
        ∀ opened, (state k).files.openForReading (state k).tracker.path = .ok opened →
          opened.mapped? = none) := by
  intro state
  have new : Tracker.IsNumbered { path } := fun s hs => by cases hs
  have numbered : ∀ k, (state k).tracker.IsNumbered := fun k => isNumbered_run new
  have succ : ∀ {k step}, steps[k]? = some step → state (k + 1) = (state k).step step :=
    run_take_succ
  refine ⟨?_, ?_, ?_, ?_⟩
  · intro k hk hne
    rw [succ hk]
    exact refresh_exact (faithful k hk) hne
  · intro k hk
    refine ⟨?_, fun hu => ?_⟩
    · rw [← Tracker.current?_eq_none_iff]
      exact Tracker.unavailable_iff (faithful k hk)
    · rw [succ hk]
      exact congrArg _ (Tracker.snapshot_of_unavailable hu)
  · intro k step hk
    rw [succ hk]
    refine ⟨snapshot_step_ne_iff (numbered k) step, ?_⟩
    rintro n rfl hn
    obtain ⟨s, hs, hsize, hserial⟩ := Tracker.snapshot_of_rebuilt hn
    exact ⟨s, hs, hsize, fun i hik => snapshot_run_ne new hik hserial⟩
  · intro j k hjk hj hk quiet
    have hlt := (List.getElem?_eq_some_iff.mp hk).1
    have hstay : state k = (state j).step .refresh := by
      rw [← succ hj]
      exact run_take_of_isQuiet hj hjk (Nat.le_of_lt hlt) quiet
    refine ⟨?_, ?_⟩
    · rw [succ hk, succ hj, hstay]
      exact congrArg (·.1.snapshot) ((state j).tracker.refresh_refresh (state j).files)
    · have hfaithful := faithful k hk
      change (state k).tracker.IsFaithful (state k).files at hfaithful
      rw [hstay] at hfaithful ⊢
      exact outcome_step_refresh_cases hfaithful

def sampleFiles : FileTree :=
  { entries := [([ascii "hosts"], .file (ascii "10.0.0.1 a\n") ⟨1, 0⟩)] }

def samplePath : Path := ⟨ascii "hosts"⟩

def sampleSteps : List TrackerStep :=
  [.refresh, .refresh, .change (.write samplePath (ascii "10.0.0.2 b\n") ⟨2, 0⟩), .refresh,
    .change (.remove samplePath), .refresh]

theorem sampleSteps_tracked :
    let state := fun k => run ⟨sampleFiles, { path := samplePath }⟩ (sampleSteps.take k)
    (∀ k, sampleSteps[k]? = some .refresh → (state k).tracker.IsFaithful (state k).files) ∧
      (∃ s opened, (state 4).tracker.snapshot = some s ∧
        (state 3).files.openForReading (state 3).tracker.path = .ok opened ∧
        opened.mapped? = some s.data ∧ s.entries = Index.build s.data) ∧
      (state 2).tracker.snapshot = (state 1).tracker.snapshot ∧
      (state 6).tracker.snapshot = (state 5).tracker.snapshot := by
  intro state
  have faithful : ∀ k, sampleSteps[k]? = some .refresh →
      (state k).tracker.IsFaithful (state k).files := by
    intro k hk
    have hlt : k < 6 := (List.getElem?_eq_some_iff.mp hk).1
    have hall : (List.range 6).all (fun k =>
        (state k).tracker.isFaithful (state k).files) = true := by
      decide +kernel
    exact Tracker.isFaithful_iff.mp (List.all_eq_true.mp hall k (List.mem_range.mpr hlt))
  obtain ⟨ha, hb, -, hd⟩ := run_tracks sampleFiles samplePath sampleSteps faithful
  have rebuilt : (state 3).outcome = .rebuilt 1 := by decide +kernel
  have unavailable : (state 5).outcome = .unavailable := by decide +kernel
  have available : (state 3).outcome ≠ .unavailable := by
    rw [rebuilt]
    exact Refresh.noConfusion
  refine ⟨faithful, ha 3 rfl available, ?_, (hb 5 rfl).2 unavailable⟩
  exact (hd 0 1 Nat.zero_lt_one rfl rfl fun i step h1 h2 => by omega).1

end Tracking

end HostLookup.Hosts
