/-
Reports that were written by other versions.

A reader accepts a report whose objects have their members in another order and further
members with any values, at each of its three levels, and it accepts every spelling of
what is missing.  It refuses a report in which, at some level, a required member is
missing or a known key is repeated.
-/
import ChangeImpact.Proofs.Report.RoundTrip

namespace ChangeImpact

open Json (Decoder Document Faulty ValidArray ValidObject)

/-- A tool without a name or with a repeated key. -/
def Tool.Faulty (ms : List (String × List Char)) : Prop :=
  Json.Faulty ["name"] ["name", "version"] ms

/-- A match without a job, kind or path, or with a repeated key. -/
def Match.Faulty (ms : List (String × List Char)) : Prop :=
  Json.Faulty ["job", "kind", "path"] ["job", "kind", "crate_name", "path"] ms

/-- A report without a schema, tool or jobs, or with a repeated key, in itself or in its
tool or one of its matches. -/
inductive Report.Faulty (ms : List (String × List Char)) : Prop
  | report : Json.Faulty ["schema", "tool", "jobs"] ["schema", "tool", "jobs", "matches"] ms →
      Faulty ms
  | tool {v : List Char} {ts : List (String × List Char)} :
      ("tool", v) ∈ ms → ValidObject v ts → Tool.Faulty ts → Faulty ms
  | found {v u : List Char} {us : List (List Char)} {ts : List (String × List Char)} :
      ("matches", v) ∈ ms → ValidArray v us → u ∈ us → ValidObject u ts → Match.Faulty ts →
      Faulty ms

/-! ## Faults of one object -/

section
variable {s : List Char} {ms : List (String × List Char)}

theorem Tool.isSet_of_finish {d : Tool.Draft} {t : Tool} (h : Tool.shape.finish d = .ok t) :
    d.name.isSome = true := by
  obtain ⟨_ | name, version⟩ := d
  · cases h
  · rfl

theorem Tool.not_hasRead_of_faulty (hs : ValidObject s ms) (hfault : Tool.Faulty ms) (t : Tool) :
    ¬ Tool.decoder.HasRead s t := by
  refine Tool.lawful_shape.not_hasRead_of_faulty ?_ ?_ hs hfault t
  · simp only [List.forall_mem_cons]
    exact ⟨⟨_, rfl, fun _ _ => Tool.isSet_of_finish⟩, by simp⟩
  · decide

theorem Match.isSet_of_finish {d : Match.Draft} {m : Match} (h : Match.shape.finish d = .ok m) :
    d.job.isSome = true ∧ d.kind.isSome = true ∧ d.path.isSome = true := by
  obtain ⟨_ | job, _ | kind, crateName, _ | path⟩ := d
  all_goals cases h
  exact ⟨rfl, rfl, rfl⟩

theorem Match.not_hasRead_of_faulty (hs : ValidObject s ms) (hfault : Match.Faulty ms)
    (m : Match) : ¬ Match.decoder.HasRead s m := by
  refine Match.lawful_shape.not_hasRead_of_faulty ?_ ?_ hs hfault m
  · simp only [List.forall_mem_cons]
    exact ⟨⟨_, rfl, fun _ _ h => (Match.isSet_of_finish h).1⟩,
      ⟨_, rfl, fun _ _ h => (Match.isSet_of_finish h).2.1⟩,
      ⟨_, rfl, fun _ _ h => (Match.isSet_of_finish h).2.2⟩, by simp⟩
  · decide

theorem Report.isSet_of_finish {d : Report.Draft} {r : Report}
    (h : Report.shape.finish d = .ok r) :
    d.schema.isSome = true ∧ d.tool.isSome = true ∧ d.jobs.isSome = true := by
  obtain ⟨_ | schema, _ | tool, _ | jobs, found⟩ := d
  all_goals cases h
  exact ⟨rfl, rfl, rfl⟩

/-- A fault at any level keeps the report from being read. -/
theorem Report.not_hasRead_of_faulty (hs : ValidObject s ms) (hfault : Report.Faulty ms)
    (r : Report) : ¬ Report.decoder.HasRead s r := by
  cases hfault with
  | report hfault =>
    refine Report.lawful_shape.not_hasRead_of_faulty ?_ ?_ hs hfault r
    · simp only [List.forall_mem_cons]
      exact ⟨⟨_, rfl, fun _ _ h => (Report.isSet_of_finish h).1⟩,
        ⟨_, rfl, fun _ _ h => (Report.isSet_of_finish h).2.1⟩,
        ⟨_, rfl, fun _ _ h => (Report.isSet_of_finish h).2.2⟩, by simp⟩
    · decide
  -- a report is read only together with its tool and with each of its matches
  | tool hmem ht hfault =>
    intro hread
    obtain ⟨g, hg⟩ := Report.lawful_shape.hasRead_field hs hread hmem rfl
    obtain ⟨t, hreadTool⟩ := hg.of_map
    exact Tool.not_hasRead_of_faulty ht hfault t hreadTool
  | found hmem hv hu ht hfault =>
    intro hread
    obtain ⟨g, hg⟩ := Report.lawful_shape.hasRead_field hs hread hmem rfl
    obtain ⟨l, hreadList⟩ := hg.of_map
    have hpasses := Json.Shape.passes Match.lawful_shape.passes
    obtain ⟨m, hreadMatch⟩ := hreadList.of_list hpasses hv _ hu
    exact Match.not_hasRead_of_faulty ht hfault m hreadMatch

end

/-- A report is read from each of its texts, of which its two layouts are some, and
nothing is read from an object that is faulty at some level. -/
theorem Report.decode_compatible :
    (∀ (r : Report) (text : String), Document Report.IsText text.toList r →
      Report.decoder.decode text = .ok r) ∧
    (∀ r : Report, Document Report.IsText r.toJson.compact.toList r ∧
      Document Report.IsText r.toJson.pretty.toList r) ∧
    ∀ (text : String) (ms : List (String × List Char)), Document ValidObject text.toList ms →
      Report.Faulty ms → ∃ refusal, Report.decoder.decode text = .error refusal := by
  refine ⟨fun r text h => decode_of_document h,
    fun r => ⟨r.document_compact, r.document_pretty⟩, fun text ms htext hfault => ?_⟩
  cases h : Report.decoder.decode text with
  | error refusal => exact ⟨refusal, rfl⟩
  | ok r =>
    obtain ⟨s, hs, hread⟩ := Decoder.hasRead_of_decode htext h
    exact absurd hread (Report.not_hasRead_of_faulty hs hfault r)

end ChangeImpact
