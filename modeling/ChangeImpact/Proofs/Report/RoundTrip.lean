/-
Writing a report and reading it again.

In every layout the text of a report is one of the texts of that report: the members
stand in their order, what is missing is left out, and an empty list of matches is
written as such.  Reading such a text gives the report back, so different reports never
share a text.
-/
import ChangeImpact.Command.Answer
import ChangeImpact.Proofs.Json.Layouts
import ChangeImpact.Proofs.Report.Texts

namespace ChangeImpact

open Json (Covers Document FieldText IsLayout IsRecord Object Sequence)

section
variable {f : Nat → Json → List Char}

theorem Token.isText_layout (hf : IsLayout f) (n : Nat) (t : Token) :
    Token.IsText (f n t.toJson) t :=
  hf.string n t.text

theorem Kind.isText_layout (hf : IsLayout f) (n : Nat) (k : Kind) :
    Kind.IsText (f n k.toJson) k :=
  hf.string n k.word

theorem JobList.isText_layout (hf : IsLayout f) (n : Nat) (l : JobList) :
    JobList.IsText (f n l.toJson) l := by
  refine (hf.array n (l.map Token.toJson)).of_map ?_
  rintro _ t rfl
  exact t.isText_layout hf (n + 1)

/-- The members that are written may be all the members of a text. -/
theorem isRecord_of_covers {fields : List FieldText} {t : List Char}
    {ms : List (String × List Char)} (h : Object t ms) (hcovers : Covers fields ms) :
    IsRecord fields t := by
  refine ⟨ms, ms, [], h, ?_, hcovers, fun m hm => absurd hm List.not_mem_nil⟩
  rw [List.append_nil]

theorem Tool.isText_layout (hf : IsLayout f) (n : Nat) (t : Tool) :
    Tool.IsText (f n t.toJson) t := by
  obtain ⟨name, version⟩ := t
  refine isRecord_of_covers (hf.object n _) (.write (hf.string (n + 1) name) ?_)
  cases version with
  | none => exact .leave rfl .nil
  | some v => exact .write (.value (hf.string (n + 1) v)) .nil

theorem Match.isText_layout (hf : IsLayout f) (n : Nat) (m : Match) :
    Match.IsText (f n m.toJson) m := by
  obtain ⟨job, kind, crateName, path⟩ := m
  refine isRecord_of_covers (hf.object n _) (.write (job.isText_layout hf (n + 1))
    (.write (kind.isText_layout hf (n + 1)) ?_))
  have hpath := hf.string (n + 1) path
  cases crateName with
  | none => exact .leave rfl (.write hpath .nil)
  | some c => exact .write (.value (hf.string (n + 1) c)) (.write hpath .nil)

theorem Report.isText_layout (hf : IsLayout f) (n : Nat) (r : Report) :
    Report.IsText (f n r.toJson) r := by
  have hmatches : Sequence Match.IsText (f (n + 1) (.array (r.found.map Match.toJson))) r.found := by
    refine (hf.array (n + 1) _).of_map ?_
    rintro _ m rfl
    exact m.isText_layout hf (n + 2)
  exact isRecord_of_covers (hf.object n _) (.write (hf.string (n + 1) r.schema)
    (.write (r.tool.isText_layout hf (n + 1)) (.write (r.jobs.isText_layout hf (n + 1))
      (.write hmatches .nil))))

end

namespace Report

theorem decode_of_document {text : String} {r : Report} (h : Document IsText text.toList r) :
    decoder.decode text = .ok r :=
  Json.decode_complete complete_decoder h

theorem document_compact (r : Report) : Document IsText r.toJson.compact.toList r :=
  ⟨[], _, [], .nil, r.isText_layout Json.isLayout_compact 0, .nil, by simp⟩

theorem document_pretty (r : Report) : Document IsText r.toJson.pretty.toList r :=
  ⟨[], _, [], .nil, r.isText_layout Json.isLayout_prettyAt 0, .nil, by simp [Json.pretty]⟩

theorem document_publish {s : Settings} (hs : s.format = .json) (r : Report) :
    Document IsText (s.publish r).toList r := by
  have hprinted : s.publish r = r.toJson.pretty ++ "\n" := by rw [Settings.publish, hs]
  rw [hprinted]
  exact ⟨[], _, ['\n'], .nil, r.isText_layout Json.isLayout_prettyAt 0,
    fun c hc => .inr (.inr (.inl (List.mem_singleton.mp hc))), by simp [Json.pretty]⟩

/-- A text that is read as one report is not a text of another one. -/
theorem ne_of_decode {r other : Report} (hne : other ≠ r) {text text' : String}
    (h : decoder.decode text = .ok r) (h' : decoder.decode text' = .ok other) :
    text' ≠ text := by
  rintro rfl
  exact hne (Except.ok.inj (h'.symm.trans h))

/-- Reading either layout of a report, or what is printed of it in the JSON format,
gives the report back, and no other report has one of its layouts. -/
theorem decode_printed (r : Report) :
    decoder.decode r.toJson.pretty = .ok r ∧
    decoder.decode r.toJson.compact = .ok r ∧
    (∀ s : Settings, s.format = .json → decoder.decode (s.publish r) = .ok r) ∧
    ∀ other : Report, other ≠ r →
      other.toJson.pretty ≠ r.toJson.pretty ∧ other.toJson.compact ≠ r.toJson.compact ∧
        other.toJson.pretty ≠ r.toJson.compact ∧ other.toJson.compact ≠ r.toJson.pretty := by
  have hpretty (q : Report) := decode_of_document q.document_pretty
  have hcompact (q : Report) := decode_of_document q.document_compact
  refine ⟨hpretty r, hcompact r, fun s hs => decode_of_document (document_publish hs r),
    fun other hne => ?_⟩
  exact ⟨ne_of_decode hne (hpretty r) (hpretty other),
    ne_of_decode hne (hcompact r) (hcompact other),
    ne_of_decode hne (hcompact r) (hpretty other),
    ne_of_decode hne (hpretty r) (hcompact other)⟩

end Report
end ChangeImpact
