/-
The echo lines never publish a list.

The text that was read is shown as it is, so for that line everything depends on
what was accepted: an array breaks its lines between its items only, and then no
line of it opens with a colon.  The paths and the jobs are shown as JSON, where a
line feed is escaped, so each of them takes one line.
-/
import ChangeImpact.Command.Answer
import ChangeImpact.Proofs.Announcement.Reading
import ChangeImpact.Proofs.Json.Soundness

namespace ChangeImpact

/-! ## Values on one line -/

theorem JobList.toJson_eq (l : JobList) : l.toJson = ChangeSet.toJson (l.map Token.text) := by
  rw [JobList.toJson, ChangeSet.toJson, List.map_map]
  rfl

theorem ChangeSet.not_control_of_mem_compact {paths : ChangeSet} {c : Char}
    (h : c ∈ paths.toJson.compact.toList) : Json.isControl c = false := by
  rw [ChangeSet.compact_toJson, ChangeSet.write, String.toList_append, String.toList_append,
    String.toList_intercalate, List.mem_append, List.mem_append] at h
  rcases h with (h | h) | h
  · rw [List.mem_singleton.mp h]
    decide
  · rcases Text.mem_of_mem_intercalate h with h | ⟨p, hp, hc⟩
    · rw [h]
      decide
    · rw [List.map_map] at hp
      obtain ⟨path, -, rfl⟩ := List.mem_map.mp hp
      refine Json.not_control_of_mem_literal (s := path.toList) ?_
      simpa [Json.quote] using hc
  · rw [List.mem_singleton.mp h]
    decide

theorem ChangeSet.feed_not_mem_compact (paths : ChangeSet) :
    '\n' ∉ paths.toJson.compact.toList := by
  intro h
  exact absurd (ChangeSet.not_control_of_mem_compact h) (by decide)

/-- No line of an accepted text opens with a colon. -/
theorem ChangeSet.noLineOpens_colon_of_read {raw : String} {paths : ChangeSet}
    (h : ChangeSet.read raw = .ok paths) : Text.NoLineOpens ':' raw.toList := by
  rcases Json.changeSet_read_sound h with ⟨hblank, -⟩ | hdoc
  · refine .of_not_mem fun hm => ?_
    exact absurd (hblank ':' hm) (by decide)
  · refine hdoc.noLineOpens_colon fun t as hseq => ?_
    exact hseq.noLineOpens_colon fun u s hlit => hlit.noLineOpens_colon

namespace Announcement

/-! ## The echo lines -/

theorem unmarked_of_noLineOpens {s : String} (h : Text.NoLineOpens ':' s.toList) :
    Unmarked s := by
  intro l hl hmark
  refine h.head?_ne_of_mem_lines hl ?_
  obtain ⟨rest, hrest⟩ := hmark
  have hhead : mark.toList.head? = some ':' := by decide
  rw [← hrest, List.head?_append, hhead, Option.some_or]

/-- A label on the first line, a text none of whose lines opens with a colon, and the
end of its last line. -/
theorem unmarked_labelled {label s : String} (hlabel : label.toList.head? ≠ some ':')
    (hfeed : '\n' ∉ label.toList) (hs : Text.NoLineOpens ':' s.toList) :
    Unmarked (label ++ s ++ "\n") := by
  have hend : Text.NoLineOpens ':' ['\n'] := .of_not_mem (by decide)
  refine unmarked_of_noLineOpens ?_
  rw [String.toList_append, String.toList_append]
  exact ((Text.NoLineOpens.of_line hfeed hlabel).append hs).append hend

theorem unmarked_echoInput {raw : String} {paths : ChangeSet}
    (h : ChangeSet.read raw = .ok paths) : Unmarked (echoInput raw ++ "\n") :=
  unmarked_labelled (by decide) (by decide) (ChangeSet.noLineOpens_colon_of_read h)

theorem noLineOpens_colon_compact (paths : ChangeSet) :
    Text.NoLineOpens ':' paths.toJson.compact.toList := by
  refine .of_line (ChangeSet.feed_not_mem_compact paths) ?_
  rw [ChangeSet.compact_toJson, ChangeSet.write, String.toList_append, String.toList_append,
    List.append_assoc, List.head?_append]
  show some '[' ≠ some ':'
  decide

theorem unmarked_echoChanges (paths : ChangeSet) : Unmarked (echoChanges paths ++ "\n") :=
  unmarked_labelled (by decide) (by decide) (noLineOpens_colon_compact paths)

theorem unmarked_echoJobs (jobs : JobList) : Unmarked (echoJobs jobs ++ "\n") := by
  unfold echoJobs
  rw [JobList.toJson_eq]
  exact unmarked_labelled (by decide) (by decide) (noLineOpens_colon_compact _)

end Announcement

namespace Settings

open Announcement (Unmarked Ended)

theorem ended_echoLine (s : Settings) (line : String) : Ended (s.echoLine line) := by
  unfold echoLine
  split
  · exact .inr ⟨line, rfl⟩
  · exact .inl rfl

theorem unmarked_echoLine (s : Settings) {line : String} (h : Unmarked (line ++ "\n")) :
    Unmarked (s.echoLine line) := by
  unfold echoLine
  split
  · exact h
  · intro l hl
    exact absurd hl List.not_mem_nil

end Settings
end ChangeImpact
