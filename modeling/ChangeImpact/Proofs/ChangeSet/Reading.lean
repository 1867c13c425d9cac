/-
Which texts are change sets.

`IsText text paths` is the grammar: a blank text is the empty change set, and any
other text is an array of string literals with JSON blanks around its parts.  The
two cases exclude each other, since a bracket is not white space.  The main theorem
says that exactly these texts are read, each as the paths that it stands for, and
that every other text is refused as malformed.
-/
import ChangeImpact.Proofs.Json.Completeness
import ChangeImpact.Proofs.Json.Soundness

namespace ChangeImpact
namespace ChangeSet

open Json (Document Sequence IsLiteral)

/-- The text is blank and there are no paths, or it is an array of literals that stand
for the paths. -/
def IsText (text : String) (paths : ChangeSet) : Prop :=
  (Text.IsBlank text.toList ∧ paths = []) ∨ Document (Sequence IsLiteral) text.toList paths

theorem bracket_mem_of_document {s : List Char} {paths : ChangeSet}
    (h : Document (Sequence IsLiteral) s paths) : '[' ∈ s := by
  obtain ⟨v, t, w, -, ht, -, rfl⟩ := h
  obtain ⟨u, rfl⟩ := ht.exists_cons
  exact List.mem_append_right v (List.mem_append_left w List.mem_cons_self)

theorem not_isBlank_of_document {s : List Char} {paths : ChangeSet}
    (h : Document (Sequence IsLiteral) s paths) : ¬ Text.IsBlank s := by
  intro hblank
  exact absurd (hblank '[' (bracket_mem_of_document h)) (by decide)

theorem read_of_isText {text : String} {paths : ChangeSet} (h : IsText text paths) :
    read text = .ok paths := by
  unfold read
  rcases h with ⟨hblank, rfl⟩ | hdoc
  · rw [if_pos hblank]
  · have hdecode : decoder.decode text = .ok paths :=
      Json.decode_complete
        (Json.complete_list Json.complete_string fun _ _ hl => hl.opening) hdoc
    rw [if_neg (not_isBlank_of_document hdoc), hdecode]

theorem isText_of_read {text : String} {paths : ChangeSet} (h : read text = .ok paths) :
    IsText text paths :=
  Json.changeSet_read_sound h

/-- A text is refused for no other reason than that it is malformed. -/
theorem eq_malformed_of_read {text : String} {fault : Input.Fault}
    (h : read text = .error fault) : ∃ refusal, fault = .malformed refusal := by
  unfold read at h
  split at h
  · cases h
  · split at h
    · cases h
    · next refusal _ =>
      obtain rfl := Except.error.inj h
      exact ⟨refusal, rfl⟩

/-- The texts of change sets are read as the paths that they stand for, every other
text is malformed, and no text is blank and an array at once. -/
theorem read_eq_ok_iff_isText (text : String) :
    (∀ paths, read text = .ok paths ↔ IsText text paths) ∧
    ((∃ refusal, read text = .error (.malformed refusal)) ↔ ¬ ∃ paths, IsText text paths) ∧
    ¬ (Text.IsBlank text.toList ∧ ∃ paths, Document (Sequence IsLiteral) text.toList paths) := by
  refine ⟨fun paths => ⟨isText_of_read, read_of_isText⟩, ⟨?_, fun hnone => ?_⟩, ?_⟩
  · rintro ⟨refusal, hrefused⟩ ⟨paths, htext⟩
    rw [read_of_isText htext] at hrefused
    cases hrefused
  · cases hread : read text with
    | ok paths => exact absurd ⟨paths, isText_of_read hread⟩ hnone
    | error fault =>
      obtain ⟨refusal, rfl⟩ := eq_malformed_of_read hread
      exact ⟨refusal, rfl⟩
  · rintro ⟨hblank, paths, hdoc⟩
    exact not_isBlank_of_document hdoc hblank

end ChangeSet
end ChangeImpact
