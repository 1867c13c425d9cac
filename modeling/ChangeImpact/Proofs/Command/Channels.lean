/-
What a completed run says about its selection, and where.

The jobs are published on the standard output, as a line or in a report, and possibly in
an output file and in a summary.  Each of these is read by a reader of its own, and all
of them find the jobs that were selected, whatever the settings were.  So two runs on
one text cannot be told apart by the jobs that they publish, and whether the echo lines
are shown changes nothing behind them.
-/
import ChangeImpact.Proofs.Command.Published
import ChangeImpact.Proofs.Report.RoundTrip
import ChangeImpact.Proofs.Report.Table

namespace ChangeImpact

namespace Announcement

theorem Ended.append {a b : String} (ha : Ended a) (hb : Ended b) : Ended (a ++ b) := by
  rcases hb with hb | ⟨r, hb⟩
  · rw [hb, String.append_empty]
    exact ha
  · rw [hb, ← String.append_assoc]
    exact .inr ⟨a ++ r, rfl⟩

end Announcement

namespace Settings

open Announcement (Ended)

variable {s : Settings} {raw : String} {paths : ChangeSet}

/-- The echo lines in front of the publishing line. -/
def echoed (s : Settings) (raw : String) (paths : ChangeSet) : String :=
  s.echoLine (Announcement.echoInput raw) ++ s.echoLine (Announcement.echoChanges paths) ++
    s.echoLine (Announcement.echoJobs (Catalog.config.jobs paths))

theorem ended_echoed (s : Settings) (raw : String) (paths : ChangeSet) :
    Ended (s.echoed raw paths) :=
  ((s.ended_echoLine _).append (s.ended_echoLine _)).append (s.ended_echoLine _)

theorem echoed_of_silent (h : s.showsEcho = false) : s.echoed raw paths = "" := by
  simp only [echoed, echoLine, h, Bool.false_eq_true, if_false, String.append_empty]

theorem announced_of_github (h : s.format = .github) :
    s.announced raw paths = s.echoed raw paths ++
      (Announcement.setOutput s.name (Catalog.config.jobs paths) ++ "\n") := by
  unfold announced publish echoed
  rw [h]
  simp only [String.append_assoc]
  rfl

theorem announced_of_json (h : s.format = .json) :
    s.announced raw paths = (Command.Selecting.report paths).toJson.pretty ++ "\n" := by
  have hsilent : s.showsEcho = false := by
    rw [showsEcho, h]
    exact Bool.and_false _
  unfold announced publish echoLine
  rw [h, hsilent]
  simp only [Bool.false_eq_true, if_false, String.empty_append]

end Settings

namespace Command
namespace Selecting

open Announcement

/-- A run on a text that completes, with its output file and its summary apart. -/
structure Completes (o : Selecting) (t : Tree) (stdin : ByteArray) (interactive : Bool)
    (raw printed : String) (after : Tree) : Prop where
  input : Input.read stdin interactive Input.maxBytes = .ok raw
  run : o.perform t stdin interactive = (⟨printed, .success⟩, after)
  apart : ∀ path path', o.output = some path → o.summary = some path' →
    t.location? path ≠ t.location? path'

/-- Every channel of a completed run carries one list. -/
structure Carries (o : Selecting) (t after : Tree) (s : Settings) (printed : String)
    (paths : ChangeSet) (jobs : JobList) : Prop where
  line : s.format = .github → ∃ payload,
    readSetOutput printed = some (s.name, payload) ∧ JobList.ofJoined payload = jobs
  report : s.format = .json → printed = (Selecting.report paths).toJson.pretty ++ "\n" ∧
    ∃ r, Report.decoder.decode printed = .ok r ∧ r.jobs = jobs ∧ r.found.map Match.job = jobs
  /-- What was appended is one entry, which stands apart if the file ended its last line. -/
  entry : ∀ path, o.output = some path → ∃ text payload,
    after.read? path = some ((t.read? path).getD .empty ++ text.toUTF8) ∧
      readEntries text = [(s.name, payload)] ∧ JobList.ofJoined payload = jobs ∧
      ∀ before, Ended before → readEntries (before ++ text) =
        readEntries before ++ [(s.name, payload)]
  rows : ∀ path, o.summary = some path → (∀ p ∈ paths, '\n' ∉ p.toList) → ∃ text,
    after.read? path = some text.toUTF8 ∧ (Report.readRows text).map Row.job = jobs

variable {o : Selecting} {t after : Tree} {stdin : ByteArray} {interactive : Bool}
  {s : Settings} {raw printed : String} {paths : ChangeSet}

/-! ## The channels one by one -/

theorem readSetOutput_announced (hname : Settings.nameFault? s.name = none)
    (hf : s.format = .github) (hraw : ChangeSet.read raw = .ok paths) :
    readSetOutput (s.announced raw paths) =
      some (s.name, (Catalog.config.jobs paths).joined) := by
  unfold Settings.announced
  rw [String.append_assoc,
    readSetOutput_append (s.unmarked_echoLine (unmarked_echoInput hraw)) (s.ended_echoLine _),
    readSetOutput_append (s.unmarked_echoLine (unmarked_echoChanges paths)) (s.ended_echoLine _),
    readSetOutput_publish hname hf]

theorem readEntries_entry (hname : Settings.nameFault? s.name = none) (paths : ChangeSet) :
    readEntries (outputEntry s.name (Catalog.config.jobs paths)) =
      [(s.name, (Catalog.config.jobs paths).joined)] :=
  readEntries_outputEntry hname (Catalog.feed_not_mem_joined_jobs paths)
    (Catalog.getLast?_joined_ne_return paths)

/-- The rows of a selection by the catalog can be told apart if its paths can. -/
theorem isPlain_toRow {m : Match} (hm : m ∈ (Selecting.report paths).found)
    (hpaths : ∀ p ∈ paths, '\n' ∉ p.toList) : m.toRow.IsPlain := by
  have hjob : m.job ∈ Catalog.config.jobs paths := List.mem_map_of_mem hm
  exact ⟨Catalog.quote_not_mem_of_mem_jobs hjob,
    (Catalog.isPlain_of_mem_jobs hjob).feed_not_mem,
    hpaths _ (Config.path_mem_of_mem_select hm)⟩

theorem map_job_readRows (hpaths : ∀ p ∈ paths, '\n' ∉ p.toList) :
    (Report.readRows (Selecting.report paths).summary).map Row.job =
      Catalog.config.jobs paths := by
  rw [Report.readRows_summary fun _ hm => isPlain_toRow hm hpaths, List.map_map]
  rfl

/-! ## All channels -/

/-- The course of a completed run. -/
theorem exists_of_completes (h : o.Completes t stdin interactive raw printed after)
    (hraw : ChangeSet.read raw = .ok paths) :
    ∃ s between, o.settings (t.settingsSource o.settingsPath) = .ok s ∧
      printed = s.announced raw paths ∧
      t.writeAt (entryDraft s paths) o.output = .whole between ∧
      between.writeAt (summaryDraft paths) o.summary = .whole after := by
  cases perform_eq_iff_course.mp h.run with
  | complete haccepts hentry hsummary =>
    obtain rfl := Except.ok.inj (haccepts.input.symm.trans h.input)
    obtain rfl := Except.ok.inj (haccepts.changes.symm.trans hraw)
    exact ⟨_, _, haccepts.settings, rfl, hentry, hsummary⟩

theorem carries_announced (hs : o.settings (t.settingsSource o.settingsPath) = .ok s)
    (hraw : ChangeSet.read raw = .ok paths) {between : Tree}
    (hentry : t.writeAt (entryDraft s paths) o.output = .whole between)
    (hsummary : between.writeAt (summaryDraft paths) o.summary = .whole after)
    (hapart : ∀ path path', o.output = some path → o.summary = some path' →
      t.location? path ≠ t.location? path') :
    o.Carries t after s (s.announced raw paths) paths (Catalog.config.jobs paths) where
  line hf :=
    ⟨_, readSetOutput_announced (nameFault?_of_settings hs) hf hraw,
      Catalog.ofJoined_joined_jobs paths⟩
  report hf := by
    refine ⟨Settings.announced_of_json hf, Selecting.report paths, ?_, rfl, rfl⟩
    have hdoc := Report.document_publish hf (Selecting.report paths)
    rw [Settings.publish, hf] at hdoc
    rw [Settings.announced_of_json hf]
    exact Report.decode_of_document hdoc
  entry path hpath := by
    have hread := readEntries_entry (nameFault?_of_settings hs) paths
    refine ⟨_, _, ?_, hread, Catalog.ofJoined_joined_jobs paths, fun before hbefore => ?_⟩
    · -- The summary goes to another file, so it leaves the entry as it was appended.
      rw [hpath] at hentry
      have hother : after.read? path = between.read? path := by
        refine Tree.read?_of_writeAt_of_ne hsummary fun path' hpath' => ?_
        rw [Tree.location?_of_writeAt hentry, Tree.location?_of_writeAt hentry]
        exact hapart path path' hpath hpath'
      rw [hother]
      exact Tree.read?_of_whole hentry
    · rw [readEntries_append hbefore, hread]
  rows path hpath hpaths := by
    rw [hpath] at hsummary
    refine ⟨_, ?_, map_job_readRows hpaths⟩
    rw [Tree.read?_of_whole hsummary]
    exact congrArg some (ByteArray.empty_append)

/-- Without the echo lines the last line is left of what is printed with them. -/
theorem exists_announced_of_silent {s' : Settings} (hname : Settings.nameFault? s.name = none)
    (hf : s.format = .github) (hf' : s'.format = .github) (hsame : s.name = s'.name)
    (hsilent : s.echo = false) :
    ∃ front line, Ended front ∧ '\n' ∉ line.toList ∧ s.announced raw paths = line ++ "\n" ∧
      s'.announced raw paths = front ++ (line ++ "\n") := by
  have hshows : s.showsEcho = false := by
    rw [Settings.showsEcho, hsilent]
    rfl
  refine ⟨s'.echoed raw paths, setOutput s.name (Catalog.config.jobs paths),
    s'.ended_echoed raw paths,
    feed_not_mem_setOutput hname (Catalog.feed_not_mem_joined_jobs paths), ?_, ?_⟩
  · rw [Settings.announced_of_github hf, Settings.echoed_of_silent hshows, String.empty_append]
  · rw [Settings.announced_of_github hf', hsame]

variable {o' : Selecting} {t' after' : Tree} {stdin' : ByteArray} {interactive' : Bool}
  {printed' : String}

/-- Any two completed runs on one text carry the same list in all their channels, the
jobs that the catalog selects for that text.  If both publish it on a line and under one
name, the one without the echo lines prints the last line of what the other one prints. -/
theorem carries_of_completes (hraw : ChangeSet.read raw = .ok paths)
    (h : o.Completes t stdin interactive raw printed after)
    (h' : o'.Completes t' stdin' interactive' raw printed' after') :
    ∃ s s' : Settings,
      o.settings (t.settingsSource o.settingsPath) = .ok s ∧
      o'.settings (t'.settingsSource o'.settingsPath) = .ok s' ∧
      o.Carries t after s printed paths (Catalog.config.jobs paths) ∧
      o'.Carries t' after' s' printed' paths (Catalog.config.jobs paths) ∧
      (s.format = .github → s'.format = .github → s.name = s'.name → s.echo = false →
        ∃ front line, Ended front ∧ '\n' ∉ line.toList ∧ printed = line ++ "\n" ∧
          printed' = front ++ (line ++ "\n")) := by
  obtain ⟨s, between, hs, rfl, hentry, hsummary⟩ := exists_of_completes h hraw
  obtain ⟨s', between', hs', rfl, hentry', hsummary'⟩ := exists_of_completes h' hraw
  exact ⟨s, s', hs, hs', carries_announced hs hraw hentry hsummary h.apart,
    carries_announced hs' hraw hentry' hsummary' h'.apart, fun hf hf' hsame hsilent =>
      exists_announced_of_silent (nameFault?_of_settings hs) hf hf' hsame hsilent⟩

/-- In a blank tree: a run without the echo lines that writes both files, and one with the
echo lines that writes none. -/
theorem carries_of_completes_blank :
    let o : Selecting := { output := some "out", summary := some "sum", quiet := true }
    let t := Tree.blank "work"
    let raw := "[\"crates/cairo-lang-parser/src/a.rs\"]"
    let paths := ["crates/cairo-lang-parser/src/a.rs"]
    ∃ printed printed' after,
      o.Completes t raw.toUTF8 false raw printed after ∧
      Completes {} t raw.toUTF8 false raw printed' t ∧
      o.Carries t after ⟨"jobs", false, .github⟩ printed paths [⟨"-parser-"⟩, ⟨"-rust-"⟩] ∧
      Carries {} t t {} printed' paths [⟨"-parser-"⟩, ⟨"-rust-"⟩] ∧
      ∃ front line, Ended front ∧ '\n' ∉ line.toList ∧ printed = line ++ "\n" ∧
        printed' = front ++ (line ++ "\n") := by
  intro o t raw paths
  have hinput : Input.read raw.toUTF8 false Input.maxBytes = .ok raw := by
    decide +kernel
  have hraw : ChangeSet.read raw = .ok paths := by
    decide +kernel
  have hjobs : Catalog.config.jobs paths = [⟨"-parser-"⟩, ⟨"-rust-"⟩] := by
    decide +kernel
  have hsettings := settings_blank (o := o) (by decide +kernel) "work" .ample
  have hsettings' := settings_blank (o := {}) (by decide +kernel) "work" .ample
  have hout : t.place? true "out" = some (.free ["work", "out"]) :=
    Tree.place?_blank (by decide +kernel) "work" .ample true
  have hsum : t.place? true "sum" = some (.free ["work", "sum"]) :=
    Tree.place?_blank (by decide +kernel) "work" .ample true
  let entry := entryDraft ⟨"jobs", false, .github⟩ paths
  have hentry := Tree.write_of_free hout (Medium.takesAllAt_ample _) entry
  have hsummary := Tree.write_of_free
    (Tree.place?_put_of_free hout hsum (by decide) (entry.kept .empty ++ entry.bytes))
    (Medium.takesAllAt_ample _) (summaryDraft paths)
  have happart : ∀ path path', o.output = some path → o.summary = some path' →
      t.location? path ≠ t.location? path' := by
    rintro _ _ ⟨⟩ ⟨⟩
    rw [Tree.location?, hout, Tree.location?, hsum]
    decide
  have hcompletes : o.Completes t raw.toUTF8 false raw _ _ :=
    ⟨hinput, perform_of_course (.complete ⟨hsettings, hinput, hraw⟩ hentry hsummary), happart⟩
  have hcompletes' : Completes {} t raw.toUTF8 false raw _ t :=
    ⟨hinput, perform_of_course (.complete ⟨hsettings', hinput, hraw⟩ rfl rfl),
      fun _ _ h => nomatch h⟩
  obtain ⟨s, s', hs, hs', hcarries, hcarries', hecho⟩ :=
    carries_of_completes hraw hcompletes hcompletes'
  rw [hjobs] at hcarries hcarries'
  obtain rfl := Except.ok.inj (hsettings.symm.trans hs)
  obtain rfl := Except.ok.inj (hsettings'.symm.trans hs')
  exact ⟨_, _, _, hcompletes, hcompletes', hcarries, hcarries', hecho rfl rfl rfl rfl⟩

end Selecting
end Command
end ChangeImpact
