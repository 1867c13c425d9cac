/-
Words, and lines that show them in columns.

`words` cuts a line at its runs of spaces.  A column is filled up with spaces to its width,
and another space follows it, so a word is found again however the width of its column
compares with its length: `words_column` holds of narrow columns too.  What a narrow column
changes is the place of the next word, which `secondAt_column` gives.
-/
import ChangeImpact.Text.Blank
import ChangeImpact.Text.Padded
import ChangeImpact.Text.Split
import ChangeImpact.Proofs.Text.Lines

namespace ChangeImpact
namespace Text

/-- A text without white space. -/
def IsSolid (s : List Char) : Prop :=
  ∀ c ∈ s, isWhite c = false

instance (s : List Char) : Decidable (IsSolid s) :=
  List.decidableBAll (fun c => isWhite c = false) s

namespace IsSolid

variable {s t : List Char}

theorem not_mem (h : IsSolid s) {c : Char} (hc : isWhite c = true) : c ∉ s := by
  intro hm
  rw [h c hm] at hc
  cases hc

theorem space_not_mem (h : IsSolid s) : ' ' ∉ s :=
  h.not_mem (by decide)

theorem append (hs : IsSolid s) (ht : IsSolid t) : IsSolid (s ++ t) := by
  intro c hc
  rcases List.mem_append.mp hc with hc | hc
  · exact hs c hc
  · exact ht c hc

theorem isLine (h : IsSolid s) : IsLine s where
  feed_not_mem := h.not_mem (by decide)
  getLast?_ne := fun hlast => h.not_mem (by decide) (List.mem_of_getLast? hlast)

end IsSolid

/-- A text that is one word. -/
structure IsWord (s : List Char) : Prop where
  ne_nil : s ≠ []
  isSolid : IsSolid s

instance (s : List Char) : Decidable (IsWord s) :=
  decidable_of_iff (s ≠ [] ∧ IsSolid s) ⟨fun h => ⟨h.1, h.2⟩, fun h => ⟨h.1, h.2⟩⟩

theorem IsWord.append_left {s t : List Char} (hs : IsWord s) (ht : IsSolid t) :
    IsWord (s ++ t) where
  ne_nil := List.append_ne_nil_of_left_ne_nil hs.ne_nil t
  isSolid := hs.isSolid.append ht

/-! ## Cutting at spaces -/

/-- The pieces of a line between its runs of spaces. -/
def words (s : List Char) : List (List Char) :=
  (split ' ' s).filter fun p => !p.isEmpty

variable {w : List Char}

theorem words_space (s : List Char) : words (' ' :: s) = words s := by
  have hcut : split ' ' (' ' :: s) = [] :: split ' ' s := split_append List.not_mem_nil s
  rw [words, hcut, List.filter_cons_of_neg (by decide), words]

theorem words_spaces (n : Nat) (s : List Char) :
    words (List.replicate n ' ' ++ s) = words s := by
  induction n with
  | zero => rfl
  | succ n ih => rw [List.replicate_succ, List.cons_append, words_space, ih]

theorem IsWord.not_isEmpty (h : IsWord w) : (!w.isEmpty) = true := by
  rw [Bool.not_eq_true', List.isEmpty_eq_false_iff]
  exact h.ne_nil

theorem IsWord.words_append (h : IsWord w) (s : List Char) :
    words (w ++ ' ' :: s) = w :: words s := by
  rw [words, split_append h.isSolid.space_not_mem, List.filter_cons, if_pos h.not_isEmpty, words]

theorem IsWord.words_eq (h : IsWord w) : words w = [w] := by
  rw [words, split_of_not_mem h.isSolid.space_not_mem, List.filter_cons, if_pos h.not_isEmpty,
    List.filter_nil]

/-! ## Columns -/

/-- The spaces after a column's text are as many as its width asks for, and one. -/
theorem column_append_space (n : Nat) (w : String) (s : List Char) :
    (column n w).toList ++ ' ' :: s =
      w.toList ++ ' ' :: (List.replicate (n - w.toList.length) ' ' ++ s) := by
  rw [toList_column, List.append_assoc, List.append_cons, ← List.replicate_succ',
    List.replicate_succ, List.cons_append]

theorem words_column {w : String} (h : IsWord w.toList) (n : Nat) (s : List Char) :
    words ((column n w).toList ++ ' ' :: s) = w.toList :: words s := by
  rw [column_append_space, h.words_append, words_spaces]

/-- How many characters of a line stand in front of its second word. -/
def secondAt (s : List Char) : Nat :=
  let behindFirst := (s.dropWhile (· = ' ')).dropWhile (· ≠ ' ')
  s.length - (behindFirst.dropWhile (· = ' ')).length

theorem dropWhile_spaces (n : Nat) {s : List Char} (h : s.head? ≠ some ' ') :
    (List.replicate n ' ' ++ s).dropWhile (· = ' ') = s := by
  rw [List.dropWhile_append_of_pos fun c hc => decide_eq_true (List.eq_of_mem_replicate hc)]
  cases s with
  | nil => rfl
  | cons c s =>
    rw [List.dropWhile_cons, if_neg]
    exact fun he => h (congrArg some (of_decide_eq_true he))

/-- The second word stands right behind the first column, which has its width or that of its
text, and behind one more space. -/
theorem secondAt_column {w : String} (h : IsWord w.toList) (m n : Nat) {s : List Char}
    (hs : s.head? ≠ some ' ') :
    secondAt (List.replicate m ' ' ++ ((column n w).toList ++ ' ' :: s)) =
      m + max n w.toList.length + 1 := by
  have hspace : ' ' ∉ w.toList := h.isSolid.space_not_mem
  have hhead : (w.toList ++ ' ' :: (List.replicate (n - w.toList.length) ' ' ++ s)).head? ≠
      some ' ' := by
    rw [List.head?_append_of_ne_nil _ h.ne_nil]
    exact fun he => hspace (List.mem_of_mem_head? he)
  have hfirst : ∀ c ∈ w.toList, decide (c ≠ ' ') = true :=
    fun c hc => decide_eq_true fun he => hspace (he ▸ hc)
  have hrest : (' ' :: (List.replicate (n - w.toList.length) ' ' ++ s)).dropWhile (· = ' ') = s :=
    dropWhile_spaces (n - w.toList.length + 1) hs
  rw [column_append_space, secondAt, dropWhile_spaces m hhead,
    List.dropWhile_append_of_pos hfirst, List.dropWhile_cons_of_neg (by decide), hrest]
  simp only [List.length_append, List.length_replicate, List.length_cons]
  omega

end Text
end ChangeImpact
