/-
What a run of the selection publishes on the standard output.

A run that accepts its input prints the echo lines, if it shows them, and then the
publishing line.  The echo lines are unmarked, so a consumer that looks through
all that was printed finds exactly the jobs that were selected.

A run that refuses its input prints at most the text that it read.  Nothing is
known about that text, and it is shown as it is: if one of its lines after the
first looks like a publishing line, a consumer takes it for one.
-/
import Mathlib.Control.Monad.Basic
import ChangeImpact.Proofs.Announcement.Echo
import ChangeImpact.Proofs.Command.Course
import ChangeImpact.Proofs.Job.Joined

namespace ChangeImpact
namespace Command
namespace Selecting

open Announcement

variable {o : Selecting} {source : Settings.Source} {stdin : ByteArray} {interactive : Bool}
  {s : Settings} {raw : String} {paths : ChangeSet}

/-- The name of a run has passed its check. -/
theorem nameFault?_of_settings (h : o.settings source = .ok s) :
    Settings.nameFault? s.name = none := by
  unfold settings at h
  split at h
  · cases h
  · next file _ =>
    unfold Settings.merge at h
    split at h
    · cases h
    · next hname =>
      obtain rfl := Except.ok.inj h
      exact hname

theorem report_jobs (paths : ChangeSet) : (report paths).jobs = Catalog.config.jobs paths :=
  rfl

/-! ## Accepted input -/

theorem readSetOutput_publish (hname : Settings.nameFault? s.name = none)
    (hf : s.format = .github) (paths : ChangeSet) :
    readSetOutput (s.publish (report paths)) =
      some (s.name, (Catalog.config.jobs paths).joined) := by
  have hplain : ∀ t ∈ Catalog.config.jobs paths, t.IsPlain :=
    fun _ => Catalog.isPlain_of_mem_jobs
  unfold Settings.publish
  rw [hf]
  show readSetOutput (s.echoLine (echoJobs (report paths).jobs) ++
    setOutput s.name (report paths).jobs ++ "\n") = _
  rw [String.append_assoc, readSetOutput_append (s.unmarked_echoLine (unmarked_echoJobs _))
    (s.ended_echoLine _), report_jobs]
  refine readSetOutput_setOutput hname (JobList.feed_not_mem_joined hplain)
    (Catalog.getLast?_joined_ne_return paths) (.inr ⟨"", ?_⟩)
  rw [String.append_empty]

/-- A run that accepts its input publishes the selected jobs and nothing else.  The
jobs are read off the whole text that was printed, and no echo line is taken for the
publishing line. -/
theorem readSetOutput_printed (hs : o.settings source = .ok s) (hf : s.format = .github)
    (hstdin : Input.read stdin interactive Input.maxBytes = .ok raw)
    (hraw : ChangeSet.read raw = .ok paths) :
    readSetOutput (o.answer source stdin interactive).printed =
        some (s.name, (Catalog.config.jobs paths).joined) ∧
      JobList.ofJoined (Catalog.config.jobs paths).joined = Catalog.config.jobs paths ∧
      ((Catalog.config.jobs paths).joined = "" ↔ Catalog.config.jobs paths = []) ∧
      Unmarked (echoInput raw ++ "\n") ∧
      Unmarked (echoChanges paths ++ "\n") ∧
      Unmarked (echoJobs (Catalog.config.jobs paths) ++ "\n") := by
  have hplain : ∀ t ∈ Catalog.config.jobs paths, t.IsPlain :=
    fun _ => Catalog.isPlain_of_mem_jobs
  have hinput := unmarked_echoInput hraw
  have hchanges := unmarked_echoChanges paths
  refine ⟨?_, JobList.ofJoined_joined hplain, JobList.joined_eq_empty_iff hplain, hinput,
    hchanges, unmarked_echoJobs _⟩
  rw [printed_answer_of_read hs hstdin hraw, Settings.announced, String.append_assoc,
    readSetOutput_append (s.unmarked_echoLine hinput) (s.ended_echoLine _),
    readSetOutput_append (s.unmarked_echoLine hchanges) (s.ended_echoLine _),
    readSetOutput_publish (nameFault?_of_settings hs) hf]

/-- An array over several lines, of a path that holds an escaped line feed and then a
publishing line. -/
theorem readSetOutput_printed_array :
    readSetOutput (({} : Selecting).answer (.content "[output]\nname = \"crates\"\n".toUTF8)
      "[\n\"crates/cairo-lang-parser/\\n::set-output name=x::y\"\n]".toUTF8
      false).printed = some ("crates", "-parser-") := by
  have hs : ({} : Selecting).settings (.content "[output]\nname = \"crates\"\n".toUTF8) =
      .ok { name := "crates" } := by
    decide +kernel
  have hstdin : Input.read
      "[\n\"crates/cairo-lang-parser/\\n::set-output name=x::y\"\n]".toUTF8 false
      Input.maxBytes =
      .ok "[\n\"crates/cairo-lang-parser/\\n::set-output name=x::y\"\n]" := by
    decide +kernel
  have hraw : ChangeSet.read "[\n\"crates/cairo-lang-parser/\\n::set-output name=x::y\"\n]" =
      .ok ["crates/cairo-lang-parser/\n::set-output name=x::y"] := by
    decide +kernel
  have hjobs : (Catalog.config.jobs
      ["crates/cairo-lang-parser/\n::set-output name=x::y"]).joined = "-parser-" := by
    decide +kernel
  rw [(readSetOutput_printed hs rfl hstdin hraw).1, hjobs]

/-! ## Refused input -/

theorem publishes_lines_echoInput_iff (raw : String) :
    Publishes (Text.lines (echoInput raw ++ "\n").toList) ↔
      Publishes (Text.lines (raw.toList ++ ['\n'])).tail := by
  obtain ⟨l, hl⟩ := Text.exists_lines_append (a := "stdin: ".toList)
    (s := raw.toList ++ ['\n']) (by decide) (by simp)
  have hlines : Text.lines (echoInput raw ++ "\n").toList =
      Text.dropReturn ("stdin: ".toList ++ l) :: (Text.lines (raw.toList ++ ['\n'])).tail := by
    rw [← hl, echoInput, String.toList_append, String.toList_append, List.append_assoc]
    rfl
  rw [hlines]
  refine publishes_cons_iff fun hmark => ?_
  obtain ⟨r, hr⟩ := hmark.trans (Text.dropReturn_prefix_self _)
  have hhead : some ':' = some 's' := congrArg List.head? hr
  exact absurd hhead (by decide)

/-- A run that refuses its input publishes no jobs, unless it shows the text that it
read and that text publishes some on a line after its first. -/
theorem readSetOutput_printed_eq_none_iff {fault : Input.Fault} (hs : o.settings source = .ok s)
    (hstdin : Input.read stdin interactive Input.maxBytes = .ok raw)
    (hraw : ChangeSet.read raw = .error fault) :
    readSetOutput (o.answer source stdin interactive).printed = none ↔
      (s.echo = true → s.format = .github →
        ¬ Publishes (Text.lines (raw.toList ++ ['\n'])).tail) := by
  rw [printed_answer_of_refused hs hstdin hraw]
  unfold Settings.echoLine Settings.showsEcho
  by_cases hshow : s.echo = true ∧ s.format = .github
  · rw [if_pos (by simpa using hshow), readSetOutput_eq_none_iff, publishes_lines_echoInput_iff]
    exact ⟨fun h _ _ => h, fun h => h hshow.1 hshow.2⟩
  · rw [if_neg (by simpa using hshow)]
    exact ⟨fun _ he hf => absurd ⟨he, hf⟩ hshow, fun _ => rfl⟩

theorem readSetOutput_printed_not_json :
    readSetOutput (({} : Selecting).answer .missing "not json".toUTF8 false).printed = none := by
  have hstdin : Input.read "not json".toUTF8 false Input.maxBytes = .ok "not json" := by
    decide +kernel
  obtain ⟨fault, hraw⟩ : ∃ fault, ChangeSet.read "not json" = .error fault :=
    ⟨_, by rfl⟩
  rw [readSetOutput_printed_eq_none_iff rfl hstdin hraw]
  intro _ _ h
  obtain ⟨skipped, rest, later, hl, -⟩ := h
  have htail : (Text.lines ("not json".toList ++ ['\n'])).tail = [] := by decide
  rw [htail] at hl
  cases skipped <;> cases hl

/-- A refused text with a publishing line of its own publishes a list. -/
theorem readSetOutput_printed_forged :
    (∃ s, ({} : Selecting).settings .missing = .ok s) ∧
      Input.read "x\n::set-output name=jobs::-parser-".toUTF8 false Input.maxBytes =
        .ok "x\n::set-output name=jobs::-parser-" ∧
      (∃ fault, ChangeSet.read "x\n::set-output name=jobs::-parser-" = .error fault) ∧
      readSetOutput (({} : Selecting).answer .missing
        "x\n::set-output name=jobs::-parser-".toUTF8 false).printed =
        some ("jobs", "-parser-") :=
  ⟨⟨{}, rfl⟩, by decide +kernel, ⟨_, by rfl⟩, by decide +kernel⟩

end Selecting
end Command
end ChangeImpact
