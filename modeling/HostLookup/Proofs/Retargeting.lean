import HostLookup.Proofs.Paths
import HostLookup.Proofs.Tracking

/-!
# Retargeting a tracker

A tracker that is sent to a path it takes for its own keeps the text it has.
That text leads to the same file or nowhere (`current?_of_same`), so a retarget
to a file that can be read takes effect at the next refresh unless the kept
text is too long or asks for a directory in the place of the file.
-/

namespace HostLookup.Hosts

open Bytes FileTree

namespace Tracker

section

variable {t : Tracker} {files : FileTree} {p : Path} {content : Bytes} {modified : Timestamp}

theorem same_retarget (t : Tracker) (p : Path) : (t.retarget p).path.same p = true := by
  unfold retarget
  split
  · assumption
  · exact p.same_refl

theorem refresh_of_error {fault : Fault} (h : files.openForReading t.path = .error fault) :
    t.refresh files = (t, .unavailable) := by
  rw [refresh, h]

theorem available_of_current? (h : t.current? files = some (content, modified)) :
    (t.refresh files).2 ≠ .unavailable := by
  rcases t.refresh_cases files with ⟨-, hc⟩ | ⟨hr, -⟩ | ⟨_, _, hr, -⟩
  · rw [hc] at h
    cases h
  · rw [hr]
    exact Refresh.noConfusion
  · rw [hr]
    exact Refresh.noConfusion

/-- The same path has the same content, unless its text is refused. -/
theorem current?_of_same {u : Tracker} (h : t.path.same u.path = true)
    (hc : u.current? files = some (content, modified))
    (hallowed : ¬ files.IsRefused t.path u.path) :
    t.current? files = some (content, modified) := by
  obtain ⟨opened, ho, hm⟩ := current?_eq_some_iff.mp hc
  exact current?_eq_some_iff.mpr ⟨opened, openForReading_of_same h ho hallowed, hm⟩

theorem not_isRefused (h : ({ path := p } : Tracker).current? files = some (content, modified)) :
    ¬ files.IsRefused p p := by
  obtain ⟨opened, ho, -⟩ := current?_eq_some_iff.mp h
  intro hrefused
  obtain ⟨fault, hfault⟩ := openForReading_of_isRefused p.same_refl ho hrefused
  rw [ho] at hfault
  cases hfault

theorem isRefused_retarget_iff
    (h : ({ path := p } : Tracker).current? files = some (content, modified)) :
    files.IsRefused (t.retarget p).path p ↔
      t.path.same p = true ∧ files.IsRefused t.path p := by
  unfold retarget
  split
  · next hsame => simp [hsame]
  · next hsame => simp [hsame, not_isRefused h]

/-- A retarget to another text for the path that it has, where that text is refused. -/
theorem refresh_retarget_of_isRefused
    (h : ({ path := p } : Tracker).current? files = some (content, modified))
    (hsame : t.path.same p = true) (hrefused : files.IsRefused t.path p) :
    (t.retarget p).refresh files = (t, .unavailable) := by
  obtain ⟨opened, ho, -⟩ := current?_eq_some_iff.mp h
  obtain ⟨fault, hfault⟩ := openForReading_of_isRefused hsame ho hrefused
  rw [retarget_of_same hsame, refresh_of_error hfault]

theorem current?_retarget
    (h : ({ path := p } : Tracker).current? files = some (content, modified))
    (hallowed : ¬ (t.path.same p = true ∧ files.IsRefused t.path p)) :
    (t.retarget p).current? files = some (content, modified) :=
  current?_of_same (t.same_retarget p) h (mt (isRefused_retarget_iff h).mp hallowed)

end

end Tracker

namespace Tracking

/--
A retarget, and the refresh after it, in any state that a new tracker comes to, to a path whose file
can be opened and mapped, as a new tracker of the path shows. The retargeted one reads the file too,
unless it keeps another text for the path that is refused; then nothing has happened.
-/
theorem retarget_exact (files : FileTree) (path : Path) (steps : List TrackerStep) (p : Path)
    (content : Bytes) (modified : Timestamp)
    (opens : ({ path := p } : Tracker).current? (run ⟨files, { path }⟩ steps).files =
      some (content, modified))
    (apart : ∀ s, (run ⟨files, { path }⟩ steps).tracker.snapshot = some s →
      s.source.same p = true → s.data.length = content.length → s.modified = modified →
      s.data = content) :
    let before := run ⟨files, { path }⟩ steps
    let after := before.step (.retarget p)
    (∃ s, (step ⟨before.files, { path := p }⟩ .refresh).tracker.snapshot = some s ∧
      s.data = content) ∧
    (after.outcome ≠ .unavailable →
      ∃ s, (after.step .refresh).tracker.snapshot = some s ∧ s.data = content ∧
        s.entries = Index.build content) ∧
    (after.outcome = .unavailable ↔ before.tracker.path.same p = true ∧
      (maxPathLength < before.tracker.path.text.length ∨
        before.tracker.path.asksForDirectory = true ∧ before.files.isDirectory p = false)) ∧
    (after.outcome = .unavailable → after.step .refresh = before) := by
  intro before after
  refine ⟨Tracker.data_refresh opens (fun s hs => by cases hs), ?_⟩
  by_cases hrefused : before.tracker.path.same p = true ∧
      before.files.IsRefused before.tracker.path p
  · have hrefresh := Tracker.refresh_retarget_of_isRefused opens hrefused.1 hrefused.2
    have houtcome : after.outcome = .unavailable := congrArg Prod.snd hrefresh
    have hstay : after.step .refresh = before :=
      congrArg (fun r : Tracker × Refresh => (⟨before.files, r.1⟩ : Tracking)) hrefresh
    exact ⟨fun hne => absurd houtcome hne, ⟨fun _ => hrefused, fun _ => houtcome⟩, fun _ => hstay⟩
  · have hcurrent := Tracker.current?_retarget opens hrefused
    have houtcome : after.outcome ≠ .unavailable := Tracker.available_of_current? hcurrent
    refine ⟨fun _ => ?_, ⟨fun h => absurd h houtcome, fun h => absurd h hrefused⟩,
      fun h => absurd h houtcome⟩
    obtain ⟨s, hs, hdata⟩ := Tracker.data_refresh hcurrent fun s hs hsource => by
      rw [Tracker.snapshot_retarget] at hs
      exact apart s hs (Path.same_iff.mpr ((Path.same_iff.mp hsource).trans
        (Path.same_iff.mp (before.tracker.same_retarget p))))
    exact ⟨s, hs, hdata, hdata ▸ s.entries_eq⟩

def slashedPath : Path := ⟨ascii "hosts/"⟩

/-- A tracker of a path with a slash at its end keeps it when it is told the right one. -/
theorem retarget_to_same_path :
    let before := run ⟨sampleFiles, { path := slashedPath }⟩ [.refresh]
    ({ path := samplePath } : Tracker).current? before.files =
        some (ascii "10.0.0.1 a\n", ⟨1, 0⟩) ∧
      before.tracker.snapshot = none ∧
      (before.step (.retarget samplePath)).outcome = .unavailable := by
  refine ⟨?_, ?_, ?_⟩ <;> decide +kernel

theorem missing_retargeted :
    let before := run ⟨sampleFiles, { path := ⟨ascii "missing"⟩ }⟩ [.refresh]
    let after := before.step (.retarget samplePath)
    after.outcome ≠ .unavailable ∧
      ∃ s, (after.step .refresh).tracker.snapshot = some s ∧ s.data = ascii "10.0.0.1 a\n" := by
  intro before after
  have opens : ({ path := samplePath } : Tracker).current? before.files =
      some (ascii "10.0.0.1 a\n", ⟨1, 0⟩) := by decide +kernel
  have empty : before.tracker.snapshot = none := by decide +kernel
  have different : before.tracker.path.same samplePath = false := by decide +kernel
  obtain ⟨-, htakes, hfails, -⟩ := retarget_exact sampleFiles ⟨ascii "missing"⟩ [.refresh]
    samplePath _ _ opens fun s hs => by rw [empty] at hs; cases hs
  have houtcome : after.outcome ≠ .unavailable := fun h => by
    rw [different] at hfails
    cases (hfails.mp h).1
  obtain ⟨s, hs, hdata, -⟩ := htakes houtcome
  exact ⟨houtcome, s, hs, hdata⟩

end Tracking

end HostLookup.Hosts
