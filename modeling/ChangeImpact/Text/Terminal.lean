/-
Text for a terminal.

A terminal acts on some control characters where it would show others: it rings,
goes back, clears the page or starts a command.  In a text for a terminal these
stand by their code points, so that reading a log cannot change the screen, and
all other characters are left as they are.
-/
import ChangeImpact.Text.Quoted

namespace ChangeImpact
namespace Text

/-- Whether a terminal may act on the character: bell, backspace, form feed, escape, delete
and the controls from U+0080 to U+009F. -/
def steersTerminal (c : Char) : Bool :=
  c = '\x07' || c = '\x08' || c = '\x0c' || c = '\x1b' || (0x7f ≤ c.toNat && c.toNat ≤ 0x9f)

/-- The code point of a control, with two digits up to delete and between braces beyond. -/
def controlCode (n : Nat) : List Char :=
  if n ≤ 0x7f then ['\\', 'x', (n / 16).digitChar, (n % 16).digitChar]
  else ['\\', 'u', '\x7b'] ++ hex n ++ ['\x7d']

def terminalChar (c : Char) : List Char :=
  if steersTerminal c then controlCode c.toNat else [c]

/-- A text without the characters that a terminal may act on. -/
def forTerminal (s : List Char) : List Char :=
  s.flatMap terminalChar

theorem toNat_le_of_steersTerminal {c : Char} (h : steersTerminal c = true) :
    c.toNat < 0xa0 := by
  simp only [steersTerminal, Bool.or_eq_true, Bool.and_eq_true, decide_eq_true_eq] at h
  rcases h with (((rfl | rfl) | rfl) | rfl) | h
  · decide
  · decide
  · decide
  · decide
  · omega

theorem all_controlCode {n : Nat} (h : n < 0xa0) :
    (controlCode n).all (fun c => !steersTerminal c && c != '\n') = true := by
  revert h; revert n; decide +kernel

theorem steersTerminal_of_mem_terminalChar {c d : Char} (h : c ∈ terminalChar d) :
    steersTerminal c = false ∧ (c = '\n' → d = '\n') := by
  unfold terminalChar at h
  split at h
  · next hs =>
    have hc := List.all_eq_true.1 (all_controlCode (toNat_le_of_steersTerminal hs)) c h
    rw [Bool.and_eq_true, Bool.not_eq_true', bne_iff_ne] at hc
    exact ⟨hc.1, fun he => absurd he hc.2⟩
  · next hs =>
    obtain rfl := List.mem_singleton.mp h
    exact ⟨Bool.eq_false_iff.mpr hs, id⟩

/-- Nothing in a text for a terminal steers it. -/
theorem steersTerminal_of_mem_forTerminal {s : List Char} {c : Char} (h : c ∈ forTerminal s) :
    steersTerminal c = false := by
  obtain ⟨d, -, hd⟩ := List.mem_flatMap.1 h
  exact (steersTerminal_of_mem_terminalChar hd).1

theorem feed_not_mem_forTerminal {s : List Char} (h : '\n' ∉ s) : '\n' ∉ forTerminal s := by
  intro hm
  obtain ⟨d, hd, hc⟩ := List.mem_flatMap.1 hm
  rw [(steersTerminal_of_mem_terminalChar hc).2 rfl] at hd
  exact h hd

/-- A text without such characters stays as it is. -/
theorem forTerminal_eq_self {s : List Char} (h : ∀ c ∈ s, steersTerminal c = false) :
    forTerminal s = s := by
  induction s with
  | nil => rfl
  | cons c s ih =>
    rw [forTerminal, List.flatMap_cons, terminalChar, h c (by simp)]
    simpa [forTerminal] using ih fun d hd => h d (by simp [hd])

end Text
end ChangeImpact
