/-
Reading reports and their parts from JSON.

The fields that are left out when they are empty have a default: a missing
version or crate and an absent list of matches.  A version or crate may also be
`null`.
-/
import ChangeImpact.Json.Choice
import ChangeImpact.Json.Record
import ChangeImpact.Report.Basic

namespace ChangeImpact

open Json

def Token.decoder : Decoder Token :=
  Decoder.string.map Token.mk

def JobList.decoder : Decoder JobList :=
  Decoder.list Token.decoder

def Kind.choice : Choice Kind where
  words := Kind.all.map Kind.word
  ofWord? := Kind.ofWord?

def Kind.decoder : Decoder Kind :=
  Kind.choice.decoder

namespace Tool

/-- The fields of a tool that have been read. -/
structure Draft where
  name : Option String := none
  version : Option (Option String) := none

def shape : Shape Draft Tool where
  title := "ToolInfo"
  fields := [
    ⟨"name", Decoder.string.map fun v d => { d with name := some v }, fun d => d.name.isSome⟩,
    ⟨"version", Decoder.string.orNull.map fun v d => { d with version := some v },
      fun d => d.version.isSome⟩]
  blank := {}
  finish d :=
    match d.name with
    | none => .error "name"
    | some name => .ok ⟨name, d.version.getD none⟩

def decoder : Decoder Tool :=
  shape.decoder

end Tool

namespace Match

/-- The fields of a match that have been read. -/
structure Draft where
  job : Option Token := none
  kind : Option Kind := none
  crateName : Option (Option String) := none
  path : Option String := none

def shape : Shape Draft Match where
  title := "JobMatch"
  fields := [
    ⟨"job", Token.decoder.map fun v d => { d with job := some v }, fun d => d.job.isSome⟩,
    ⟨"kind", Kind.decoder.map fun v d => { d with kind := some v }, fun d => d.kind.isSome⟩,
    ⟨"crate_name", Decoder.string.orNull.map fun v d => { d with crateName := some v },
      fun d => d.crateName.isSome⟩,
    ⟨"path", Decoder.string.map fun v d => { d with path := some v }, fun d => d.path.isSome⟩]
  blank := {}
  finish d :=
    match d.job, d.kind, d.path with
    | none, _, _ => .error "job"
    | _, none, _ => .error "kind"
    | _, _, none => .error "path"
    | some job, some kind, some path => .ok ⟨job, kind, d.crateName.getD none, path⟩

def decoder : Decoder Match :=
  shape.decoder

end Match

namespace Report

/-- The fields of a report that have been read. -/
structure Draft where
  schema : Option String := none
  tool : Option Tool := none
  jobs : Option JobList := none
  found : Option (List Match) := none

def shape : Shape Draft Report where
  title := "SelectionReport"
  fields := [
    ⟨"schema", Decoder.string.map fun v d => { d with schema := some v },
      fun d => d.schema.isSome⟩,
    ⟨"tool", Tool.decoder.map fun v d => { d with tool := some v }, fun d => d.tool.isSome⟩,
    ⟨"jobs", JobList.decoder.map fun v d => { d with jobs := some v }, fun d => d.jobs.isSome⟩,
    ⟨"matches", (Decoder.list Match.decoder).map fun v d => { d with found := some v },
      fun d => d.found.isSome⟩]
  blank := {}
  finish d :=
    match d.schema, d.tool, d.jobs with
    | none, _, _ => .error "schema"
    | _, none, _ => .error "tool"
    | _, _, none => .error "jobs"
    | some schema, some tool, some jobs => .ok ⟨schema, tool, jobs, d.found.getD []⟩

def decoder : Decoder Report :=
  shape.decoder

end Report

namespace ChangeSet

def decoder : Decoder ChangeSet :=
  Decoder.list Decoder.string

end ChangeSet

end ChangeImpact
