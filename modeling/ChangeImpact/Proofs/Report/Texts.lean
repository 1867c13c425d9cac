/-
The texts of reports and of their parts.

`Tool.IsText`, `Match.IsText` and `Report.IsText` are the wire shape as a grammar: an
object whose own members may stand in any order, with an absent version, crate or
list of matches left out or written as such, among members with other keys and any
values.  The decoders read each of these texts as what it stands for.
-/
import ChangeImpact.Proofs.Json.Records
import ChangeImpact.Report.Decoder

namespace ChangeImpact

open Json (FieldText IsLiteral IsRecord OrNull Sequence Decoder Field Shape Value)

def Token.IsText (s : List Char) (t : Token) : Prop :=
  IsLiteral s t.text

def JobList.IsText (s : List Char) (l : JobList) : Prop :=
  Sequence Token.IsText s l

def Kind.IsText (s : List Char) (k : Kind) : Prop :=
  IsLiteral s k.word

/-- A missing version is left out or null. -/
def Tool.texts (t : Tool) : List FieldText := [
  ⟨"name", false, (IsLiteral · t.name)⟩,
  ⟨"version", t.version.isNone, (OrNull IsLiteral · t.version)⟩]

def Tool.IsText (s : List Char) (t : Tool) : Prop :=
  IsRecord t.texts s

/-- A missing crate is left out or null. -/
def Match.texts (m : Match) : List FieldText := [
  ⟨"job", false, (Token.IsText · m.job)⟩,
  ⟨"kind", false, (Kind.IsText · m.kind)⟩,
  ⟨"crate_name", m.crateName.isNone, (OrNull IsLiteral · m.crateName)⟩,
  ⟨"path", false, (IsLiteral · m.path)⟩]

def Match.IsText (s : List Char) (m : Match) : Prop :=
  IsRecord m.texts s

/-- An empty list of matches is left out or written as such. -/
def Report.texts (r : Report) : List FieldText := [
  ⟨"schema", false, (IsLiteral · r.schema)⟩,
  ⟨"tool", false, (Tool.IsText · r.tool)⟩,
  ⟨"jobs", false, (JobList.IsText · r.jobs)⟩,
  ⟨"matches", r.found.isEmpty, (Sequence Match.IsText · r.found)⟩]

def Report.IsText (s : List Char) (r : Report) : Prop :=
  IsRecord r.texts s

/-! ## Single values -/

theorem Token.complete_decoder : Token.decoder.Complete Token.IsText :=
  fun s t h => (Json.complete_string s t.text h).map Token.mk

theorem JobList.complete_decoder : JobList.decoder.Complete JobList.IsText :=
  Json.complete_list Token.complete_decoder fun _ _ h => Json.IsLiteral.opening h

theorem Kind.complete_decoder : Kind.decoder.Complete Kind.IsText :=
  fun _ k h => Json.Choice.reads_of_isLiteral h (Kind.ofWord?_word k)

theorem Token.passes_decoder : Token.decoder.Passes :=
  Json.passes_string.map Token.mk

/-! ## Tools -/

theorem Tool.lawful_shape : Tool.shape.Lawful where
  passes := by
    simp only [shape, List.forall_mem_cons]
    exact ⟨Json.passes_string.map _, Json.passes_string.orNull.map _, by simp⟩
  isSet_blank := by simp [shape]
  isSet_self := by
    simp only [shape, List.forall_mem_cons]
    refine ⟨?_, ?_, by simp⟩
    all_goals exact Field.isSet_of_stores_map fun _ _ => rfl
  apart := by
    simp only [shape, List.pairwise_cons, List.forall_mem_cons]
    refine ⟨⟨?_, by simp⟩, by simp, .nil⟩
    exact Field.apart_map (fun _ _ => rfl) (fun _ _ => rfl) (fun _ _ _ => rfl)

theorem Tool.exists_fills (t : Tool) {own : List (String × List Char)}
    (hown : Json.Covers t.texts own) :
    ∃ d, Tool.shape.Fills Decoder.Reads Tool.shape.blank own d ∧ Tool.shape.finish d = .ok t := by
  obtain ⟨name, version⟩ := t
  obtain ⟨_, _, rfl, hname, hfromVersion⟩ := hown.exists_of_required
  have hreadName := Json.complete_string _ _ hname
  cases hfromVersion with
  | leave habsent hend =>
    cases hend
    obtain rfl := Option.isNone_iff_eq_none.mp habsent
    exact ⟨_, .cons (.store rfl rfl (hreadName.map _)) .nil, rfl⟩
  | write hwritten hend =>
    cases hend
    have hreadVersion := Json.complete_string_orNull _ _ hwritten
    exact ⟨_, .cons (.store rfl rfl (hreadName.map _))
      (.cons (.store rfl rfl (hreadVersion.map _)) .nil), rfl⟩

theorem Tool.complete_decoder : Tool.decoder.Complete Tool.IsText :=
  fun _ t h => Tool.lawful_shape.reads_of_isRecord rfl (fun _ => t.exists_fills) h

/-! ## Matches -/

theorem Match.lawful_shape : Match.shape.Lawful where
  passes := by
    simp only [shape, List.forall_mem_cons]
    exact ⟨Token.passes_decoder.map _, (Json.Choice.passes _).map _,
      Json.passes_string.orNull.map _, Json.passes_string.map _, by simp⟩
  isSet_blank := by simp [shape]
  isSet_self := by
    simp only [shape, List.forall_mem_cons]
    refine ⟨?_, ?_, ?_, ?_, by simp⟩
    all_goals exact Field.isSet_of_stores_map fun _ _ => rfl
  apart := by
    simp only [shape, List.pairwise_cons, List.forall_mem_cons]
    refine ⟨⟨?_, ?_, ?_, by simp⟩, ⟨?_, ?_, by simp⟩, ⟨?_, by simp⟩, by simp, .nil⟩
    all_goals exact Field.apart_map (fun _ _ => rfl) (fun _ _ => rfl) (fun _ _ _ => rfl)

theorem Match.exists_fills (m : Match) {own : List (String × List Char)}
    (hown : Json.Covers m.texts own) :
    ∃ d, Match.shape.Fills Decoder.Reads Match.shape.blank own d ∧
      Match.shape.finish d = .ok m := by
  obtain ⟨job, kind, crateName, path⟩ := m
  obtain ⟨_, _, rfl, hjob, hfromKind⟩ := hown.exists_of_required
  obtain ⟨_, _, rfl, hkind, hfromCrate⟩ := hfromKind.exists_of_required
  have hreadJob := Token.complete_decoder _ _ hjob
  have hreadKind := Kind.complete_decoder _ _ hkind
  cases hfromCrate with
  | leave habsent hfromPath =>
    obtain rfl := Option.isNone_iff_eq_none.mp habsent
    obtain ⟨_, _, rfl, hpath, hend⟩ := hfromPath.exists_of_required
    cases hend
    have hreadPath := Json.complete_string _ _ hpath
    exact ⟨_, .cons (.store rfl rfl (hreadJob.map _)) (.cons (.store rfl rfl (hreadKind.map _))
      (.cons (.store rfl rfl (hreadPath.map _)) .nil)), rfl⟩
  | write hwritten hfromPath =>
    obtain ⟨_, _, rfl, hpath, hend⟩ := hfromPath.exists_of_required
    cases hend
    have hreadCrate := Json.complete_string_orNull _ _ hwritten
    have hreadPath := Json.complete_string _ _ hpath
    exact ⟨_, .cons (.store rfl rfl (hreadJob.map _)) (.cons (.store rfl rfl (hreadKind.map _))
      (.cons (.store rfl rfl (hreadCrate.map _)) (.cons (.store rfl rfl (hreadPath.map _)) .nil))),
      rfl⟩

theorem Match.complete_decoder : Match.decoder.Complete Match.IsText :=
  fun _ m h => Match.lawful_shape.reads_of_isRecord rfl (fun _ => m.exists_fills) h

/-! ## Reports -/

theorem Match.complete_list : (Decoder.list Match.decoder).Complete (Sequence Match.IsText) :=
  Json.complete_list Match.complete_decoder fun _ _ h => h.opening

theorem Report.lawful_shape : Report.shape.Lawful where
  passes := by
    simp only [shape, List.forall_mem_cons]
    exact ⟨Json.passes_string.map _, (Shape.passes Tool.lawful_shape.passes).map _,
      Token.passes_decoder.list.map _, (Shape.passes Match.lawful_shape.passes).list.map _,
      by simp⟩
  isSet_blank := by simp [shape]
  isSet_self := by
    simp only [shape, List.forall_mem_cons]
    refine ⟨?_, ?_, ?_, ?_, by simp⟩
    all_goals exact Field.isSet_of_stores_map fun _ _ => rfl
  apart := by
    simp only [shape, List.pairwise_cons, List.forall_mem_cons]
    refine ⟨⟨?_, ?_, ?_, by simp⟩, ⟨?_, ?_, by simp⟩, ⟨?_, by simp⟩, by simp, .nil⟩
    all_goals exact Field.apart_map (fun _ _ => rfl) (fun _ _ => rfl) (fun _ _ _ => rfl)

theorem Report.exists_fills (r : Report) {own : List (String × List Char)}
    (hown : Json.Covers r.texts own) :
    ∃ d, Report.shape.Fills Decoder.Reads Report.shape.blank own d ∧
      Report.shape.finish d = .ok r := by
  obtain ⟨schema, tool, jobs, found⟩ := r
  obtain ⟨_, _, rfl, hschema, hfromTool⟩ := hown.exists_of_required
  obtain ⟨_, _, rfl, htool, hfromJobs⟩ := hfromTool.exists_of_required
  obtain ⟨_, _, rfl, hjobs, hfromFound⟩ := hfromJobs.exists_of_required
  have hreadSchema := Json.complete_string _ _ hschema
  have hreadTool := Tool.complete_decoder _ _ htool
  have hreadJobs := JobList.complete_decoder _ _ hjobs
  cases hfromFound with
  | leave habsent hend =>
    cases hend
    obtain rfl := List.isEmpty_iff.mp habsent
    exact ⟨_, .cons (.store rfl rfl (hreadSchema.map _)) (.cons (.store rfl rfl (hreadTool.map _))
      (.cons (.store rfl rfl (hreadJobs.map _)) .nil)), rfl⟩
  | write hwritten hend =>
    cases hend
    have hreadFound := Match.complete_list _ _ hwritten
    exact ⟨_, .cons (.store rfl rfl (hreadSchema.map _)) (.cons (.store rfl rfl (hreadTool.map _))
      (.cons (.store rfl rfl (hreadJobs.map _)) (.cons (.store rfl rfl (hreadFound.map _)) .nil))),
      rfl⟩

theorem Report.complete_decoder : Report.decoder.Complete Report.IsText :=
  fun _ r h => Report.lawful_shape.reads_of_isRecord rfl (fun _ => r.exists_fills) h

end ChangeImpact
