/-
String literals of JSON, as they are written.

Only the quote, the backslash and the characters below the space are escaped, the
common ones by a letter.  Everything else is written as it is, so a literal holds
no control character whatever the text is; `not_control_of_mem_literal` says so.
-/

namespace ChangeImpact
namespace Json

/-- Whether a character must not stand in a literal as it is. -/
def isControl (c : Char) : Bool :=
  c.toNat < 0x20

def escaped (c : Char) : List Char :=
  if c = '"' then ['\\', '"']
  else if c = '\\' then ['\\', '\\']
  else if isControl c then
    if c = '\x08' then ['\\', 'b']
    else if c = '\x0c' then ['\\', 'f']
    else if c = '\n' then ['\\', 'n']
    else if c = '\r' then ['\\', 'r']
    else if c = '\t' then ['\\', 't']
    else ['\\', 'u', '0', '0', (c.toNat / 16).digitChar, (c.toNat % 16).digitChar]
  else [c]

def literal (s : List Char) : List Char :=
  '"' :: s.flatMap escaped ++ ['"']

theorem not_control_digitChar {n : Nat} (h : n < 16) : isControl n.digitChar = false := by
  revert h; revert n; decide

theorem not_control_of_mem_escaped {c d : Char} (h : d ∈ escaped c) : isControl d = false := by
  unfold escaped at h
  split at h
  · simp only [List.mem_cons, List.not_mem_nil, or_false] at h
    rcases h with rfl | rfl <;> decide
  split at h
  · simp only [List.mem_cons, List.not_mem_nil, or_false] at h
    rcases h with rfl | rfl <;> decide
  split at h
  · next hc =>
    have hlt : c.toNat < 0x20 := by simpa [isControl] using hc
    repeat' split at h
    all_goals
      simp only [List.mem_cons, List.not_mem_nil, or_false] at h
    case isFalse =>
      rcases h with rfl | rfl | rfl | rfl | rfl | rfl
      any_goals decide
      · exact not_control_digitChar (by omega)
      · exact not_control_digitChar (by omega)
    all_goals rcases h with rfl | rfl <;> decide
  · next hc =>
    simp only [List.mem_cons, List.not_mem_nil, or_false] at h
    subst h
    simpa using hc

/-- A literal holds no control character. -/
theorem not_control_of_mem_literal {s : List Char} {d : Char} (h : d ∈ literal s) :
    isControl d = false := by
  simp only [literal, List.mem_cons, List.mem_append, List.mem_flatMap,
    List.not_mem_nil, or_false] at h
  rcases h with (rfl | ⟨c, _, hd⟩) | rfl
  · decide
  · exact not_control_of_mem_escaped hd
  · decide

end Json
end ChangeImpact
