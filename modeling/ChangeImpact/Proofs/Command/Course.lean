/-
The courses that a selection can take.

A selection loads its settings, checks the name, reads its input, shows it, reads the change
set and prints what follows from it; then it appends the entry and writes the summary, and
each of these two opens its file before it writes.  Each step can fail, and the first that
does ends the run.  `Course` has one rule for each step that can end a run and one for the
run that completes, and says for each what was printed and what became of the files.
`perform_eq_iff_course` is the law that there are no others.
-/
import ChangeImpact.Command.Run
import ChangeImpact.Proofs.Files.Writing

namespace ChangeImpact

namespace Tree

/-- Writes a text to the file at a path, if there is a path at all. -/
def writeAt (t : Tree) (d : Draft) : Option String → Written
  | none => .whole t
  | some path => t.write path d

variable {t after : Tree} {path? : Option String} {d : Draft}

theorem location?_of_writeAt (h : t.writeAt d path? = .whole after) (other : String) :
    after.location? other = t.location? other := by
  cases path? with
  | none =>
    obtain rfl := Written.whole.inj h
    rfl
  | some path => exact location?_of_write (congrArg Written.tree? h) other

/-- A path that names another file is read as before. -/
theorem read?_of_writeAt_of_ne (h : t.writeAt d path? = .whole after) {other : String}
    (hne : ∀ path, path? = some path → t.location? other ≠ t.location? path) :
    after.read? other = t.read? other := by
  cases path? with
  | none =>
    obtain rfl := Written.whole.inj h
    rfl
  | some path => exact read?_of_write_of_ne (congrArg Written.tree? h) (hne path rfl)

/-- Only a writing to some path can fail. -/
theorem exists_path_of_writeAt {w : Written} (h : t.writeAt d path? = w)
    (hw : w ≠ .whole t) : ∃ path, path? = some path ∧ t.write path d = w := by
  cases path? with
  | none => exact absurd h.symm hw
  | some path => exact ⟨path, rfl, h⟩

end Tree

namespace Settings

/-- All that a run prints that accepts its input. -/
def announced (s : Settings) (raw : String) (paths : ChangeSet) : String :=
  s.echoLine (Announcement.echoInput raw) ++ s.echoLine (Announcement.echoChanges paths) ++
    s.publish (Command.Selecting.report paths)

end Settings

namespace Command
namespace Selecting

/-- A selection on a tree of files. -/
def perform (o : Selecting) (t : Tree) (stdin : ByteArray) (interactive : Bool) :
    Outcome × Tree :=
  (o.answer (t.settingsSource o.settingsPath) stdin interactive).carryOut t

/-- What a selection finds where its settings are looked for. -/
def loaded (o : Selecting) (t : Tree) : Except Settings.LoadFault Settings :=
  Settings.loadOrDefault o.settingsPath (t.settingsSource o.settingsPath)

/-- The settings of a run are those of the file under the options, once the name in the
file has passed its check. -/
theorem settings_eq_ok_iff {o : Selecting} {t : Tree} {s : Settings} :
    o.settings (t.settingsSource o.settingsPath) = .ok s ↔
      ∃ file, o.loaded t = .ok file ∧ Settings.nameFault? file.name = none ∧
        s = ⟨file.name, file.echo && !o.quiet, o.format.getD file.format⟩ := by
  unfold settings loaded
  cases Settings.loadOrDefault o.settingsPath (t.settingsSource o.settingsPath) with
  | error fault => simp
  | ok file =>
    simp only [Except.ok.injEq, exists_eq_left', ← Settings.merge_eq_ok_iff]
    cases file.merge o.format o.quiet with
    | error fault =>
      constructor
      · intro h
        cases h
      · intro h
        cases h
    | ok merged =>
      show Except.ok merged = Except.ok s ↔ _
      rw [Except.ok.injEq, Except.ok.injEq]

theorem settings_of_unloaded {o : Selecting} {t : Tree} {fault : Settings.LoadFault}
    (h : o.loaded t = .error fault) :
    o.settings (t.settingsSource o.settingsPath) = .error (.settings fault) := by
  rw [settings, show Settings.loadOrDefault _ _ = _ from h]

theorem settings_of_misnamed {o : Selecting} {t : Tree} {file : Settings}
    {fault : Settings.NameFault} (h : o.loaded t = .ok file)
    (hname : Settings.nameFault? file.name = some fault) :
    o.settings (t.settingsSource o.settingsPath) = .error (.outputName fault) := by
  rw [settings, show Settings.loadOrDefault _ _ = _ from h]
  dsimp only
  rw [Settings.merge_eq_error_iff.mpr hname]
  rfl

/-- In a blank tree there is no settings file. -/
theorem loaded_blank {o : Selecting}
    (h : Path.isEntry o.settingsPath Settings.fileName = true) (base : String)
    (medium : Medium) : o.loaded (Tree.blank base medium) = .ok {} := by
  rw [loaded, Tree.settingsSource, Tree.isPresent_blank h]
  rfl

theorem settings_blank {o : Selecting}
    (h : Path.isEntry o.settingsPath Settings.fileName = true) (base : String)
    (medium : Medium) :
    o.settings ((Tree.blank base medium).settingsSource o.settingsPath) =
      .ok ⟨"jobs", !o.quiet, o.format.getD .github⟩ :=
  settings_eq_ok_iff.mpr ⟨_, loaded_blank h base medium, by decide +kernel, rfl⟩

/-- The changes of files that end a selection. -/
def changes (o : Selecting) (s : Settings) (paths : ChangeSet) : List Action :=
  ((o.entry? s (report paths)).map Action.change).toList ++
    ((o.summary? (report paths)).map Action.change).toList

section Answer

variable {o : Selecting} {source : Settings.Source} {stdin : ByteArray} {interactive : Bool}
  {s : Settings} {raw : String} {paths : ChangeSet}

theorem answer_of_read (hs : o.settings source = .ok s)
    (hstdin : Input.read stdin interactive Input.maxBytes = .ok raw)
    (hraw : ChangeSet.read raw = .ok paths) :
    o.answer source stdin interactive =
      ⟨.print (s.echoLine (Announcement.echoInput raw)) ::
        .print (s.echoLine (Announcement.echoChanges paths)) ::
        .print (s.publish (report paths)) :: o.changes s paths, .ok ()⟩ := by
  rw [answer, hs, hstdin]
  show o.respond s raw = _
  rw [respond, hraw]
  rfl

theorem answer_of_unset {f : Failure} (hs : o.settings source = .error f) :
    o.answer source stdin interactive = ⟨[], .error f⟩ := by
  rw [answer, hs]
  rfl

theorem answer_of_unread {fault : Input.Fault} (hs : o.settings source = .ok s)
    (hstdin : Input.read stdin interactive Input.maxBytes = .error fault) :
    o.answer source stdin interactive = ⟨[], .error (.input fault)⟩ := by
  rw [answer, hs, hstdin]
  rfl

theorem answer_of_refused {fault : Input.Fault} (hs : o.settings source = .ok s)
    (hstdin : Input.read stdin interactive Input.maxBytes = .ok raw)
    (hraw : ChangeSet.read raw = .error fault) :
    o.answer source stdin interactive =
      ⟨[.print (s.echoLine (Announcement.echoInput raw))], .error (.changes fault)⟩ := by
  rw [answer, hs, hstdin]
  show o.respond s raw = _
  rw [respond, hraw]
  rfl

theorem printed_change? (effect? : Option Effect) : (Script.change? effect?).printed = "" := by
  cases effect? <;> rfl

theorem printed_answer_of_read (hs : o.settings source = .ok s)
    (hstdin : Input.read stdin interactive Input.maxBytes = .ok raw)
    (hraw : ChangeSet.read raw = .ok paths) :
    (o.answer source stdin interactive).printed = s.announced raw paths := by
  have hentry := printed_change? (o.entry? s (report paths))
  have hsummary := printed_change? (o.summary? (report paths))
  rw [Script.printed, Script.change?] at hentry hsummary
  rw [answer_of_read hs hstdin hraw, Script.printed, changes]
  simp only [List.map_cons, List.map_append, String.join_cons, String.join_append, hentry,
    hsummary, String.append_empty, Action.printed]
  rw [Settings.announced, String.append_assoc]

theorem printed_answer_of_refused {fault : Input.Fault} (hs : o.settings source = .ok s)
    (hstdin : Input.read stdin interactive Input.maxBytes = .ok raw)
    (hraw : ChangeSet.read raw = .error fault) :
    (o.answer source stdin interactive).printed = s.echoLine (Announcement.echoInput raw) := by
  rw [answer_of_refused hs hstdin hraw, Script.printed, List.map_cons, List.map_nil,
    String.join_cons, String.join_nil, String.append_empty]
  rfl

end Answer

/-- The entry of a selection, behind what a file holds already. -/
def entryDraft (s : Settings) (paths : ChangeSet) : Tree.Draft :=
  ⟨true, (Announcement.outputEntry s.name (report paths).jobs).toUTF8⟩

/-- The summary of a selection, in place of what a file holds. -/
def summaryDraft (paths : ChangeSet) : Tree.Draft :=
  ⟨false, (report paths).summary.toUTF8⟩

/-- Every step up to the printing succeeds. -/
structure Accepts (o : Selecting) (t : Tree) (stdin : ByteArray) (interactive : Bool)
    (s : Settings) (raw : String) (paths : ChangeSet) : Prop where
  settings : o.settings (t.settingsSource o.settingsPath) = .ok s
  input : Input.read stdin interactive Input.maxBytes = .ok raw
  changes : ChangeSet.read raw = .ok paths

/-- The courses of a selection, by the step that ends it. -/
inductive Course (o : Selecting) (t : Tree) (stdin : ByteArray) (interactive : Bool) :
    Outcome → Tree → Prop
  | unloaded {fault : Settings.LoadFault} :
      o.loaded t = .error fault →
      Course o t stdin interactive ⟨"", .failed (.settings fault)⟩ t
  | misnamed {file : Settings} {fault : Settings.NameFault} :
      o.loaded t = .ok file → Settings.nameFault? file.name = some fault →
      Course o t stdin interactive ⟨"", .failed (.outputName fault)⟩ t
  | unread {s : Settings} {fault : Input.Fault} :
      o.settings (t.settingsSource o.settingsPath) = .ok s →
      Input.read stdin interactive Input.maxBytes = .error fault →
      Course o t stdin interactive ⟨"", .failed (.input fault)⟩ t
  | refused {s : Settings} {raw : String} {fault : Input.Fault} :
      o.settings (t.settingsSource o.settingsPath) = .ok s →
      Input.read stdin interactive Input.maxBytes = .ok raw →
      ChangeSet.read raw = .error fault →
      Course o t stdin interactive
        ⟨s.echoLine (Announcement.echoInput raw), .failed (.changes fault)⟩ t
  | entryUnopened {s : Settings} {raw : String} {paths : ChangeSet} {path : String} :
      o.Accepts t stdin interactive s raw paths → o.output = some path →
      t.write path (entryDraft s paths) = .unopened →
      Course o t stdin interactive ⟨s.announced raw paths, .failed (.append path .opening)⟩ t
  | entryCut {s : Settings} {raw : String} {paths : ChangeSet} {path : String} {after : Tree} :
      o.Accepts t stdin interactive s raw paths → o.output = some path →
      t.write path (entryDraft s paths) = .cut after →
      Course o t stdin interactive
        ⟨s.announced raw paths, .failed (.append path .writing)⟩ after
  | summaryUnopened {s : Settings} {raw : String} {paths : ChangeSet} {between : Tree}
      {path : String} :
      o.Accepts t stdin interactive s raw paths →
      t.writeAt (entryDraft s paths) o.output = .whole between → o.summary = some path →
      between.write path (summaryDraft paths) = .unopened →
      Course o t stdin interactive ⟨s.announced raw paths, .failed (.replace path)⟩ between
  | summaryCut {s : Settings} {raw : String} {paths : ChangeSet} {between after : Tree}
      {path : String} :
      o.Accepts t stdin interactive s raw paths →
      t.writeAt (entryDraft s paths) o.output = .whole between → o.summary = some path →
      between.write path (summaryDraft paths) = .cut after →
      Course o t stdin interactive ⟨s.announced raw paths, .failed (.replace path)⟩ after
  | complete {s : Settings} {raw : String} {paths : ChangeSet} {between after : Tree} :
      o.Accepts t stdin interactive s raw paths →
      t.writeAt (entryDraft s paths) o.output = .whole between →
      between.writeAt (summaryDraft paths) o.summary = .whole after →
      Course o t stdin interactive ⟨s.announced raw paths, .success⟩ after

variable {o : Selecting} {t : Tree} {stdin : ByteArray} {interactive : Bool} {s : Settings}
  {raw : String} {paths : ChangeSet}

/-! ## Carrying out the changes -/

section Changes

variable {e : Effect} {after : Tree}

theorem apply_of_whole (h : t.write e.path e.draft = .whole after) : e.apply t = .ok after := by
  rw [Effect.apply, h]

theorem apply_of_unopened (h : t.write e.path e.draft = .unopened) :
    e.apply t = .error ⟨e.failure .opening, t⟩ := by
  rw [Effect.apply, h]

theorem apply_of_cut (h : t.write e.path e.draft = .cut after) :
    e.apply t = .error ⟨e.failure .writing, after⟩ := by
  rw [Effect.apply, h]

/-- The changes of a selection whose entry is in the output file. -/
theorem performAll_changes (h : t.writeAt (entryDraft s paths) o.output = .whole after)
    (printed : String) :
    performAll ⟨printed, t⟩ (o.changes s paths) =
      performAll ⟨printed, after⟩ ((o.summary? (report paths)).map Action.change).toList := by
  unfold changes entry?
  cases hpath : o.output with
  | none =>
    rw [hpath] at h
    obtain rfl := Tree.Written.whole.inj h
    rfl
  | some path =>
    rw [hpath] at h
    have hstep : Effect.apply t (.append path (Announcement.outputEntry s.name
        (report paths).jobs)) = .ok after := apply_of_whole h
    exact performAll_of_ok hstep _

end Changes

/-- Once the input is accepted, everything is printed before the files are changed. -/
theorem perform_of_accepts (h : o.Accepts t stdin interactive s raw paths) :
    o.perform t stdin interactive =
      ended (performAll ⟨s.announced raw paths, t⟩ (o.changes s paths)) := by
  rw [perform, answer_of_read h.settings h.input h.changes, Transcript.carryOut]
  simp only [performAll_print, String.empty_append]
  exact congrArg ended (Prod.ext rfl Option.or_none)

theorem perform_of_course {outcome : Outcome} {after : Tree}
    (h : Course o t stdin interactive outcome after) :
    o.perform t stdin interactive = (outcome, after) := by
  cases h with
  | unloaded hload =>
    rw [perform, answer_of_unset (settings_of_unloaded hload)]
    rfl
  | misnamed hload hname =>
    rw [perform, answer_of_unset (settings_of_misnamed hload hname)]
    rfl
  | unread hsettings hinput =>
    rw [perform, answer_of_unread hsettings hinput]
    rfl
  | refused hsettings hinput hchanges =>
    rw [perform, answer_of_refused hsettings hinput hchanges, Transcript.carryOut]
    simp only [performAll_print, String.empty_append]
    rfl
  | @entryUnopened s raw paths path haccepts hpath hwrite =>
    have hstep : Effect.apply t (.append path (Announcement.outputEntry s.name
        (report paths).jobs)) = .error ⟨.append path .opening, t⟩ := apply_of_unopened hwrite
    rw [perform_of_accepts haccepts, changes, entry?, hpath]
    exact congrArg ended (performAll_of_error hstep _)
  | @entryCut s raw paths path _ haccepts hpath hwrite =>
    have hstep : Effect.apply t (.append path (Announcement.outputEntry s.name
        (report paths).jobs)) = .error ⟨.append path .writing, after⟩ := apply_of_cut hwrite
    rw [perform_of_accepts haccepts, changes, entry?, hpath]
    exact congrArg ended (performAll_of_error hstep _)
  | @summaryUnopened s raw paths _ path haccepts hentry hpath hwrite =>
    have hstep : Effect.apply after (.replace path (report paths).summary) =
        .error ⟨.replace path, after⟩ := apply_of_unopened hwrite
    rw [perform_of_accepts haccepts, performAll_changes hentry, summary?, hpath]
    exact congrArg ended (performAll_of_error hstep _)
  | @summaryCut s raw paths between _ path haccepts hentry hpath hwrite =>
    have hstep : Effect.apply between (.replace path (report paths).summary) =
        .error ⟨.replace path, after⟩ := apply_of_cut hwrite
    rw [perform_of_accepts haccepts, performAll_changes hentry, summary?, hpath]
    exact congrArg ended (performAll_of_error hstep _)
  | @complete s raw paths between _ haccepts hentry hsummary =>
    rw [perform_of_accepts haccepts, performAll_changes hentry, summary?]
    cases hpath : o.summary with
    | none =>
      rw [hpath] at hsummary
      obtain rfl := Tree.Written.whole.inj hsummary
      rfl
    | some path =>
      rw [hpath] at hsummary
      have hstep : Effect.apply between (.replace path (report paths).summary) = .ok after :=
        apply_of_whole hsummary
      exact congrArg ended (performAll_of_ok hstep _)

theorem exists_course_of_accepts (h : o.Accepts t stdin interactive s raw paths) :
    ∃ outcome after, Course o t stdin interactive outcome after := by
  cases hentry : t.writeAt (entryDraft s paths) o.output with
  | unopened =>
    obtain ⟨path, hpath, hwrite⟩ := Tree.exists_path_of_writeAt hentry nofun
    exact ⟨_, _, .entryUnopened h hpath hwrite⟩
  | cut after =>
    obtain ⟨path, hpath, hwrite⟩ := Tree.exists_path_of_writeAt hentry nofun
    exact ⟨_, _, .entryCut h hpath hwrite⟩
  | whole between =>
    cases hsummary : between.writeAt (summaryDraft paths) o.summary with
    | unopened =>
      obtain ⟨path, hpath, hwrite⟩ := Tree.exists_path_of_writeAt hsummary nofun
      exact ⟨_, _, .summaryUnopened h hentry hpath hwrite⟩
    | cut after =>
      obtain ⟨path, hpath, hwrite⟩ := Tree.exists_path_of_writeAt hsummary nofun
      exact ⟨_, _, .summaryCut h hentry hpath hwrite⟩
    | whole after => exact ⟨_, _, .complete h hentry hsummary⟩

/-- Whatever the steps do, some course describes the run. -/
theorem exists_course (o : Selecting) (t : Tree) (stdin : ByteArray) (interactive : Bool) :
    ∃ outcome after, Course o t stdin interactive outcome after := by
  cases hload : o.loaded t with
  | error fault => exact ⟨_, _, .unloaded hload⟩
  | ok file =>
    cases hname : Settings.nameFault? file.name with
    | some fault => exact ⟨_, _, .misnamed hload hname⟩
    | none =>
      have hsettings := settings_eq_ok_iff.mpr ⟨file, hload, hname, rfl⟩
      cases hinput : Input.read stdin interactive Input.maxBytes with
      | error fault => exact ⟨_, _, .unread hsettings hinput⟩
      | ok raw =>
        cases hchanges : ChangeSet.read raw with
        | error fault => exact ⟨_, _, .refused hsettings hinput hchanges⟩
        | ok paths => exact exists_course_of_accepts ⟨hsettings, hinput, hchanges⟩

/-- The courses are what a selection does, and there are no others. -/
theorem perform_eq_iff_course {outcome : Outcome} {after : Tree} :
    o.perform t stdin interactive = (outcome, after) ↔
      Course o t stdin interactive outcome after := by
  constructor
  · intro h
    obtain ⟨outcome', after', hcourse⟩ := exists_course o t stdin interactive
    rw [perform_of_course hcourse, Prod.mk.injEq] at h
    rw [← h.1, ← h.2]
    exact hcourse
  · intro h
    exact perform_of_course h

end Selecting

end Command
end ChangeImpact
