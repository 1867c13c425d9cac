/-
Job tokens and job lists.

A token names one CI job.  Crate jobs are named after their crate, `-name-` for
the full job and `-name-test-only-` for the lighter one; a language trigger has
a fixed token of its own.  A job list is ordered and is published as its tokens
joined by commas.
-/
import ChangeImpact.Text.Padded

namespace ChangeImpact

/-- The name of one CI job. -/
structure Token where
  text : String
deriving DecidableEq, Repr

namespace Token

def full (name : String) : Token :=
  ⟨"-" ++ name ++ "-"⟩

/-- The job of a crate whose changes all concern tests. -/
def testOnly (name : String) : Token :=
  ⟨"-" ++ name ++ "-test-only-"⟩

theorem full_injective {m n : String} (h : full m = full n) : m = n := by
  simpa [full, String.ext_iff] using h

theorem testOnly_injective {m n : String} (h : testOnly m = testOnly n) : m = n := by
  simpa [testOnly, String.ext_iff] using h

def fit (f : Text.Field) (t : Token) : String :=
  String.ofList (f.fit t.text.toList)

end Token

inductive Kind where
  /-- A file of the crate changed that is no test. -/
  | crate
  /-- Only tests of the crate changed. -/
  | testOnly
  /-- A file of a language changed. -/
  | trigger
deriving DecidableEq, Repr

namespace Kind

/-- The kinds in their order of listing. -/
def all : List Kind :=
  [.crate, .testOnly, .trigger]

theorem mem_all (k : Kind) : k ∈ all := by
  cases k <;> decide

def word : Kind → String
  | .crate => "crate"
  | .testOnly => "test_only"
  | .trigger => "trigger"

def ofWord? (w : String) : Option Kind :=
  all.find? fun k => k.word == w

theorem ofWord?_word (k : Kind) : ofWord? k.word = some k := by
  cases k <;> decide

/-- The words for a kind in a table for readers. -/
def label : Kind → String
  | .crate => "crate"
  | .testOnly => "test only"
  | .trigger => "language"

theorem label_injective {j k : Kind} (h : j.label = k.label) : j = k := by
  revert h; cases j <;> cases k <;> decide

end Kind

/-- Jobs in the order in which they are published. -/
abbrev JobList := List Token

namespace JobList

/-- The tokens joined by commas, without spaces. -/
def joined (l : JobList) : String :=
  ",".intercalate (l.map Token.text)

theorem toList_joined (l : JobList) :
    l.joined.toList = [','].intercalate (l.map fun t => t.text.toList) := by
  simp [joined, String.toList_intercalate, Function.comp_def]

/-- The place of the first job with this token. -/
def position? (l : JobList) (w : String) : Option Nat :=
  l.findIdx? fun t => t.text == w

/-- Whether a job with this token is on the list. -/
def holds (l : JobList) (w : String) : Bool :=
  l.any fun t => t.text == w

theorem holds_iff {l : JobList} {w : String} : l.holds w = true ↔ ⟨w⟩ ∈ l := by
  simp only [holds, List.any_eq_true, beq_iff_eq]
  constructor
  · rintro ⟨t, ht, rfl⟩; exact ht
  · intro h; exact ⟨⟨w⟩, h, rfl⟩

def sorted (l : JobList) : JobList :=
  l.mergeSort fun a b => decide (a.text ≤ b.text)

end JobList

end ChangeImpact
