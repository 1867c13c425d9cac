/-
Writing a change set and reading it again.

`tokens` are the parts of a written change set: its brackets, its commas and one
literal per path.  `Spaced` puts JSON blanks around such parts.  Every text that is
obtained so from a written change set is an array of literals that stand for the
same paths, so it is read as the change set that was written.
-/
import ChangeImpact.Proofs.Announcement.Echo
import ChangeImpact.Proofs.ChangeSet.Reading
import ChangeImpact.Proofs.Json.Printed

namespace ChangeImpact
namespace Json

/-- The parts one after the other, with blanks before, between and after them. -/
inductive Spaced : List (List Char) → List Char → Prop
  | nil {w : List Char} : Blanks w → Spaced [] w
  | cons {w t s : List Char} {ts : List (List Char)} :
      Blanks w → Spaced ts s → Spaced (t :: ts) (w ++ (t ++ s))

theorem spaced_flatten (ts : List (List Char)) : Spaced ts ts.flatten := by
  induction ts with
  | nil => exact .nil .nil
  | cons t ts ih =>
    rw [List.flatten_cons]
    exact .cons .nil ih

end Json

namespace ChangeSet

open Json (Blanks Spaced Rest Document Sequence IsLiteral literal)

/-- The brackets, commas and literals of a written change set. -/
def tokens (paths : ChangeSet) : List (List Char) :=
  ['['] :: ((paths.map fun p => literal p.toList).intersperse [','] ++ [[']']])

theorem toList_write (paths : ChangeSet) : (write paths).toList = (tokens paths).flatten := by
  have hquote : (paths.map Json.quote).map String.toList =
      paths.map fun p => literal p.toList := by
    rw [List.map_map]
    exact List.map_congr_left fun p _ => String.toList_ofList
  rw [write, String.toList_append, String.toList_append, String.toList_intercalate, hquote,
    tokens, List.flatten_cons, List.flatten_append, List.append_assoc]
  rfl

/-- What stands behind the opening bracket if there is a first path: its literal, the
rest of the array and blanks. -/
theorem exists_rest_of_spaced {p : String} {ps : ChangeSet} {s : List Char}
    (h : Spaced (((p :: ps).map fun q => literal q.toList).intersperse [','] ++ [[']']]) s) :
    ∃ w u v, Blanks w ∧ Rest ']' IsLiteral u ps ∧ Blanks v ∧
      s = w ++ (literal p.toList ++ (u ++ v)) := by
  induction ps generalizing p s with
  | nil =>
    cases h with
    | cons hw h =>
      cases h with
      | @cons w' _ v _ hw' h =>
        cases h with
        | nil hv =>
          refine ⟨_, w' ++ [']'], v, hw, .close hw', hv, ?_⟩
          rw [List.append_assoc w']
  | cons q qs ih =>
    cases h with
    | @cons w _ _ _ hw h =>
      cases h with
      | @cons w' _ s' _ hw' h =>
        obtain ⟨w'', u, v, hw'', hu, hv, rfl⟩ := ih h
        refine ⟨w, w' ++ ',' :: (w'' ++ (literal q.toList ++ u)), v, hw,
          .next hw' hw'' (Json.isLiteral_literal q) hu, hv, ?_⟩
        simp only [List.append_assoc, List.cons_append, List.nil_append]

theorem document_of_spaced {paths : ChangeSet} {s : List Char} (h : Spaced (tokens paths) s) :
    Document (Sequence IsLiteral) s paths := by
  cases h with
  | @cons x _ s _ hx h =>
    cases paths with
    | nil =>
      cases h with
      | @cons w _ v _ hw h =>
        cases h with
        | nil hv =>
          refine ⟨x, '[' :: (w ++ [']']), v, hx, .empty hw, hv, ?_⟩
          simp only [List.append_assoc, List.cons_append, List.nil_append]
    | cons p ps =>
      obtain ⟨w, u, v, hw, hu, hv, rfl⟩ := exists_rest_of_spaced h
      refine ⟨x, '[' :: (w ++ (literal p.toList ++ u)), v, hx,
        .items hw (Json.isLiteral_literal p) hu, hv, ?_⟩
      simp only [List.append_assoc, List.cons_append, List.nil_append]

theorem read_of_spaced {paths : ChangeSet} {text : String}
    (h : Spaced (tokens paths) text.toList) : read text = .ok paths :=
  read_of_isText (.inr (document_of_spaced h))

theorem read_write_self (paths : ChangeSet) : read (write paths) = .ok paths := by
  refine read_of_spaced ?_
  rw [toList_write]
  exact Json.spaced_flatten _

/-- A written change set is read as itself, also with blanks around its parts, and so
is what is written again after reading any text.  It holds no control character, and
the echo line shows it as it is. -/
theorem read_write (paths : ChangeSet) :
    read (write paths) = .ok paths ∧
    (∀ c ∈ (write paths).toList, 0x20 ≤ c.toNat) ∧
    Announcement.echoChanges paths = "files changed: " ++ write paths ∧
    (write paths).toList = (tokens paths).flatten ∧
    (∀ text, Spaced (tokens paths) text.toList → read text = .ok paths) ∧
    ∀ text, read text = .ok paths → read (write paths) = read text := by
  refine ⟨read_write_self paths, fun c hc => ?_, ?_, toList_write paths,
    fun text => read_of_spaced, fun text hread => ?_⟩
  · rw [← compact_toJson] at hc
    have hcontrol := not_control_of_mem_compact hc
    exact Nat.not_lt.mp (of_decide_eq_false hcontrol)
  · rw [Announcement.echoChanges, compact_toJson]
  · rw [read_write_self, hread]

end ChangeSet
end ChangeImpact
