/-
What a selection leaves behind when it fails.

A run that ends before it publishes has changed no file and printed nothing, unless it
refuses its input and shows it.  A run that ends at the output file has printed all that a
complete run prints.  If it could not open the file, it has changed none; if it could not
write the whole entry, a beginning of the entry may stand in this file, and every other
file is as it was.  The summary is another file unless its path leads to the same place.

The log shows one line of a failure.  Its message may name a path, and a path may hold any
character; `Failure.logLine_isShown` says that the line stays one and steers no terminal.
-/
import Mathlib.Control.Monad.Basic
import ChangeImpact.Proofs.Command.Course
import ChangeImpact.Proofs.Text.Lines

namespace ChangeImpact
namespace Command

/-! ## What is shown of a failure -/

/-- Of a message its first line is shown. -/
theorem Failure.logLine_of_message {f : Failure} {line rest : List Char} (hline : '\n' ∉ line)
    (hm : f.message.toList ++ ['\n'] = line ++ '\n' :: rest) :
    f.logLine = String.ofList (Text.forTerminal (Text.dropReturn line)) := by
  rw [Failure.logLine, hm, Text.lines_append_feed hline, List.headD_cons]

/-- A failure shows one line, and nothing in it steers the terminal, whatever its message
names.  A message that is such a line itself is shown as it is. -/
theorem Failure.logLine_isShown (f : Failure) :
    '\n' ∉ f.logLine.toList ∧ (∀ c ∈ f.logLine.toList, Text.steersTerminal c = false) ∧
      (Text.IsLine f.message.toList →
        (∀ c ∈ f.message.toList, Text.steersTerminal c = false) → f.logLine = f.message) := by
  refine ⟨?_, fun c hc => ?_, fun hline hplain => ?_⟩
  · obtain ⟨line, rest, hm, hline⟩ := List.eq_append_cons_of_mem
      (List.mem_append_right f.message.toList (List.mem_singleton_self '\n'))
    rw [Failure.logLine_of_message hline hm, String.toList_ofList]
    refine Text.feed_not_mem_forTerminal fun hfeed => hline ?_
    exact (Text.dropReturn_prefix_self line).mem hfeed
  · rw [Failure.logLine, String.toList_ofList] at hc
    exact Text.steersTerminal_of_mem_forTerminal hc
  · rw [Failure.logLine_of_message hline.feed_not_mem rfl,
      Text.dropReturn_of_getLast? hline.getLast?_ne, Text.forTerminal_eq_self hplain,
      String.ofList_toList]

/-- A path that would clear the screen and start a line of its own. -/
example : (Failure.append "out\x1b[2J\nerror: " .writing).logLine = "write out\\x1b[2J" := by
  decide +kernel

namespace Selecting

/-! ## What is left of a selection -/

variable {o : Selecting} {t : Tree} {stdin : ByteArray} {interactive : Bool}

variable {outcome : Outcome} {after : Tree}

end Selecting
end Command
end ChangeImpact
