/-
Publications that reach their reader.

Nothing is escaped where jobs are published, so a publication is plain if its name has
passed the check and its tokens hold no comma and no line feed.  A plain publication is read
back from the line that carries it, whatever stands before and after this line; and from an
output file every publication is read back that was appended to it, in the order in which they
were appended, behind what was in the file before.

A file is read by the byte that ends its lines.  In UTF-8 this byte stands for the line feed
alone, so nothing has to be known about the bytes that were in the file before, except that
they end their last line.  A carriage return before the line feed counts as part of the line
here.
-/
import ChangeImpact.Command.Transcript
import ChangeImpact.Proofs.Announcement.Reading
import ChangeImpact.Proofs.Files.Writing
import ChangeImpact.Proofs.Job.Joined

namespace ChangeImpact

namespace Announcement

/-! ## On a line among others -/

/-- A publication is read from its line, whatever text stands around it.  In front of it may
stand ended lines without the mark, and behind it any lines, publications among them. -/
theorem readSetOutput_surrounded {name : String} {jobs : JobList} {pre post : String}
    (hname : Settings.nameFault? name = none) (hjobs : ∀ t ∈ jobs, t.IsPlain)
    (hlast : ∀ t, jobs.getLast? = some t → t.text.toList.getLast? ≠ some '\r')
    (hended : Ended pre) (hunmarked : Unmarked pre) (hpost : post = "" ∨ ∃ r, post = "\n" ++ r) :
    readSetOutput (pre ++ setOutput name jobs ++ post) = some (name, jobs.joined) ∧
      JobList.ofJoined jobs.joined = jobs := by
  refine ⟨?_, JobList.ofJoined_joined hjobs⟩
  have hreturn := JobList.getLast?_joined_ne (fun t ht => (hjobs t ht).ne_empty) hlast
  rw [String.append_assoc, readSetOutput_append hunmarked hended]
  exact readSetOutput_setOutput hname (JobList.feed_not_mem_joined hjobs) hreturn hpost

/-- Tokens with colons between a line that resembles the mark and a second publication. -/
theorem readSetOutput_surrounded_colons :
    readSetOutput ("stdin: []\r\n::set-output\n" ++ setOutput "crates" [⟨"a::b"⟩, ⟨"\r:"⟩] ++
        "\n::set-output name=x::y\n") = some ("crates", "a::b,\r:") ∧
      JobList.ofJoined "a::b,\r:" = [⟨"a::b"⟩, ⟨"\r:"⟩] := by
  have hjobs : ∀ t ∈ ([⟨"a::b"⟩, ⟨"\r:"⟩] : JobList), t.IsPlain := by
    intro t ht
    rcases List.mem_pair.mp ht with rfl | rfl
    · exact ⟨by decide, by decide, by decide⟩
    · exact ⟨by decide, by decide, by decide⟩
  exact readSetOutput_surrounded (by decide) hjobs (by decide)
    (.inr ⟨"stdin: []\r\n::set-output", by decide⟩) (by unfold Unmarked; decide)
    (.inr ⟨"::set-output name=x::y\n", by decide⟩)

end Announcement

/-! ## Lines of bytes -/

namespace Bytes

/-- The byte of a line feed. -/
def feed : UInt8 := 10

/-- The lines of a file, without the bytes that end them.  What follows the last of these
bytes is no line. -/
def lines (content : ByteArray) : List (List UInt8) :=
  (content.data.toList.splitOn feed).dropLast

/-- The last line of the file is ended too. -/
def Ended (content : ByteArray) : Prop :=
  content = .empty ∨ ∃ r : ByteArray, content = r ++ "\n".toUTF8

theorem lines_append {a : ByteArray} (ha : Ended a) (b : ByteArray) :
    lines (a ++ b) = lines a ++ lines b := by
  rcases ha with rfl | ⟨r, rfl⟩
  · rw [ByteArray.empty_append]
    rfl
  · have hne := List.splitOn_ne_nil feed b.data.toList
    have hcut : (r ++ "\n".toUTF8 ++ b).data.toList =
        r.data.toList ++ feed :: b.data.toList := by
      rw [ByteArray.toList_data_append, ByteArray.toList_data_append, List.append_assoc]
      rfl
    have hend : (r ++ "\n".toUTF8).data.toList = r.data.toList ++ feed :: [] := by
      rw [ByteArray.toList_data_append]
      rfl
    rw [lines, lines, lines, hcut, hend, List.splitOn_append_cons_self,
      List.splitOn_append_cons_self, List.dropLast_append_of_ne_nil hne, List.splitOn_nil,
      List.dropLast_concat]

/-- In UTF-8 no other character has the byte of a line feed in it. -/
theorem eq_feed_of_mem_utf8EncodeChar {c : Char} (h : feed ∈ String.utf8EncodeChar c) :
    c = '\n' := by
  have hmod : ∀ n, feed = UInt8.ofNat n → n % 256 = 10 := by
    intro n hn
    exact (congrArg UInt8.toNat hn).symm
  unfold String.utf8EncodeChar at h
  dsimp only at h
  split at h
  · have hcode := hmod _ (List.mem_singleton.mp h)
    refine Char.ext (UInt32.toNat_inj.mp ?_)
    show c.val.toNat = 10
    omega
  -- The bytes of a longer form all lie above those of one byte.
  · exfalso
    split at h
    · rcases List.mem_pair.mp h with h | h
      · have := hmod _ h
        omega
      · have := hmod _ h
        omega
    · split at h
      · simp only [List.mem_cons, List.not_mem_nil, or_false] at h
        rcases h with h | h | h
        all_goals
          have := hmod _ h
          omega
      · simp only [List.mem_cons, List.not_mem_nil, or_false] at h
        rcases h with h | h | h | h
        all_goals
          have := hmod _ h
          omega

theorem feed_not_mem_toUTF8 {s : String} (h : '\n' ∉ s.toList) :
    feed ∉ s.toUTF8.data.toList := by
  intro hm
  rw [String.toUTF8_eq_toByteArray, ← String.utf8Encode_toList, List.utf8Encode,
    List.data_toByteArray, List.mem_flatMap] at hm
  obtain ⟨c, hc, hfeed⟩ := hm
  exact h (eq_feed_of_mem_utf8EncodeChar hfeed ▸ hc)

theorem lines_toUTF8 {s : String} (h : '\n' ∉ s.toList) :
    lines (s ++ "\n").toUTF8 = [s.toUTF8.data.toList] := by
  have hbytes : (s ++ "\n").toUTF8.data.toList = s.toUTF8.data.toList ++ feed :: [] := by
    rw [String.toUTF8_eq_toByteArray, String.toByteArray_append, ByteArray.toList_data_append]
    rfl
  rw [lines, hbytes, List.splitOn_append_cons_self_of_not_mem (feed_not_mem_toUTF8 h)]
  rfl

theorem ended_toUTF8 (s : String) : Ended (s ++ "\n").toUTF8 := by
  refine .inr ⟨s.toUTF8, ?_⟩
  exact String.toByteArray_append

theorem lines_join {ls : List String} (h : ∀ l ∈ ls, '\n' ∉ l.toList) :
    lines (String.join (ls.map fun l => l ++ "\n")).toUTF8 =
      ls.map fun l => l.toUTF8.data.toList := by
  induction ls with
  | nil => rfl
  | cons l ls ih =>
    have hjoin : (String.join ((l :: ls).map fun l => l ++ "\n")).toUTF8 =
        (l ++ "\n").toUTF8 ++ (String.join (ls.map fun l => l ++ "\n")).toUTF8 := by
      rw [List.map_cons, String.join_cons]
      exact String.toByteArray_append
    rw [hjoin, lines_append (ended_toUTF8 l), lines_toUTF8 (h l List.mem_cons_self),
      ih fun l' hl' => h l' (List.mem_cons_of_mem _ hl')]
    rfl

end Bytes

/-! ## In an output file -/

namespace Tree

variable {t after : Tree} {path : String} {before? : Option ByteArray}

theorem apply_append_eq_ok_iff {text : String} :
    Command.Effect.apply t (.append path text) = .ok after ↔
      t.write path ⟨true, text.toUTF8⟩ = .whole after := by
  unfold Command.Effect.apply Command.Effect.path Command.Effect.draft
  cases t.write path ⟨true, text.toUTF8⟩ <;> simp

/-- Texts that are appended to a file one after the other stand behind its content in this
order, and no other file changes. -/
theorem read?_applyAll_append {texts : List String}
    (h : Command.applyAll t (texts.map (.append path)) = (after, none)) :
    (after.read? path = none ↔ t.read? path = none ∧ texts = []) ∧
      (after.read? path).getD .empty =
        (t.read? path).getD .empty ++ (String.join texts).toUTF8 ∧
      ∀ other, t.location? other ≠ t.location? path → after.read? other = t.read? other := by
  induction texts generalizing t with
  | nil =>
    obtain rfl := (Prod.mk.inj h).1
    exact ⟨by simp, ByteArray.append_empty.symm, fun _ _ => rfl⟩
  | cons text texts ih =>
    rw [List.map_cons] at h
    obtain ⟨between, hstep, hrest⟩ := Command.exists_apply_of_applyAll_cons h
    have hwrite := apply_append_eq_ok_iff.mp hstep
    have htree : (t.write path ⟨true, text.toUTF8⟩).tree? = some between :=
      congrArg Written.tree? hwrite
    have hread := read?_of_whole hwrite
    obtain ⟨hnone, hcontent, hother⟩ := ih hrest
    refine ⟨?_, ?_, fun other hne => ?_⟩
    · rw [hnone, hread]
      simp
    · rw [hcontent, hread, String.join_cons, Option.getD_some, Draft.kept, if_pos rfl,
        ByteArray.append_assoc]
      exact congrArg _ String.toByteArray_append.symm
    · have hlocation := location?_of_write htree
      rw [hother other (by rwa [hlocation, hlocation]), read?_of_write_of_ne htree hne]

/-- Where a file can be written, any texts can be appended to it. -/
theorem Holds.applyAll_append (h : t.Holds path before?) (texts : List String) :
    ∃ after, Command.applyAll t (texts.map (.append path)) = (after, none) ∧
      after.Holds path (after.read? path) := by
  induction texts generalizing t before? with
  | nil =>
    have hread := h.read?
    exact ⟨t, rfl, by rwa [hread]⟩
  | cons text texts ih =>
    obtain ⟨between, hwrite, hbetween⟩ := h.exists_write ⟨true, text.toUTF8⟩
    obtain ⟨after, hrun, hafter⟩ := ih hbetween
    refine ⟨after, ?_, hafter⟩
    rw [List.map_cons, Command.applyAll_cons_of_ok (apply_append_eq_ok_iff.mpr hwrite)]
    exact hrun

end Tree

/-- Jobs and the name under which they are published. -/
structure Publication where
  name : String
  jobs : JobList
deriving DecidableEq, Repr

namespace Publication

/-- The name has passed its check, and the tokens stay whole. -/
structure IsPlain (p : Publication) : Prop where
  name : Settings.nameFault? p.name = none
  jobs : ∀ t ∈ p.jobs, t.IsPlain

/-- The line of an output file that carries the publication. -/
def line (p : Publication) : String :=
  p.name ++ "=" ++ p.jobs.joined

/-- The change by which the publication comes into an output file. -/
def append (path : String) (p : Publication) : Command.Effect :=
  .append path (Announcement.outputEntry p.name p.jobs)

variable {p : Publication}

theorem IsPlain.feed_not_mem_line (h : p.IsPlain) : '\n' ∉ p.line.toList := by
  rw [line, String.toList_append, String.toList_append, List.mem_append, List.mem_append]
  rintro ((hm | hm) | hm)
  · exact Announcement.not_disallowed_of_nameFault? h.name (by decide) hm
  · exact absurd hm (by decide)
  · exact JobList.feed_not_mem_joined h.jobs hm

theorem IsPlain.splitFirst?_line (h : p.IsPlain) :
    Text.splitFirst? ['='] p.line.toList = some (p.name.toList, p.jobs.joined.toList) := by
  rw [line, String.toList_append, String.toList_append]
  exact Text.splitFirst?_append
    (Announcement.not_disallowed_of_nameFault? h.name (by decide)) _

/-- An output file whose last line is ended, or that is not there yet, is a faithful log of
what is appended to it.  Where it can be written, every sequence of calls completes.  After any
sequence that does, each publication has taken one line behind those that were there, in the
order of the calls, and the name and the jobs are found on this line again. -/
theorem exists_applyAll_append {t : Tree} {path : String} {before? : Option ByteArray}
    {publications : List Publication} (hbefore : t.read? path = before?)
    (hended : Bytes.Ended (before?.getD .empty)) (hplain : ∀ p ∈ publications, p.IsPlain) :
    (t.Holds path before? → ∃ after,
      Command.applyAll t (publications.map (append path)) = (after, none) ∧
        after.Holds path (after.read? path)) ∧
    ∀ after, Command.applyAll t (publications.map (append path)) = (after, none) →
      ∃ after?, after.read? path = after? ∧
        (after? = none ↔ before? = none ∧ publications = []) ∧
        after?.getD .empty = before?.getD .empty ++
          (String.join (publications.map fun p => p.line ++ "\n")).toUTF8 ∧
        Bytes.lines (after?.getD .empty) = Bytes.lines (before?.getD .empty) ++
          publications.map (fun p => p.line.toUTF8.data.toList) ∧
        (∀ p ∈ publications,
          Text.splitFirst? ['='] p.line.toList = some (p.name.toList, p.jobs.joined.toList) ∧
            JobList.ofJoined p.jobs.joined = p.jobs) ∧
        ∀ other, t.location? other ≠ t.location? path → after.read? other = t.read? other := by
  have hmap : publications.map (append path) =
      (publications.map fun p => p.line ++ "\n").map (.append path) := by
    rw [List.map_map]
    rfl
  rw [hmap]
  refine ⟨fun hholds => hholds.applyAll_append _, fun after hrun => ?_⟩
  obtain ⟨hnone, hcontent, hother⟩ := Tree.read?_applyAll_append hrun
  rw [hbefore] at hnone hcontent
  rw [List.map_eq_nil_iff] at hnone
  refine ⟨_, rfl, hnone, hcontent, ?_,
    fun p hp => ⟨(hplain p hp).splitFirst?_line, JobList.ofJoined_joined (hplain p hp).jobs⟩,
    hother⟩
  have hfeed : ∀ l ∈ publications.map line, '\n' ∉ l.toList := by
    intro l hl
    obtain ⟨p, hp, rfl⟩ := List.mem_map.mp hl
    exact (hplain p hp).feed_not_mem_line
  have hlines := Bytes.lines_join hfeed
  rw [List.map_map, List.map_map] at hlines
  rw [hcontent, Bytes.lines_append hended]
  exact congrArg _ hlines

/-- Two publications behind a line of another kind.  The first ends in a carriage return and
has an equals sign in a token, and the second has no jobs. -/
theorem exists_applyAll_append_seeded :
    let t : Tree := (Tree.blank "w").put ["w", "out"] (.file "# seed\n".toUTF8)
    let publications : List Publication := [⟨"crates", [⟨"b=c"⟩, ⟨"-a-\r"⟩]⟩, ⟨"jobs", []⟩]
    t.Holds "out" (some "# seed\n".toUTF8) ∧ (∀ p ∈ publications, p.IsPlain) ∧
      ∃ after, Command.applyAll t (publications.map (append "out")) = (after, none) ∧
        after.read? "out" = some "# seed\ncrates=b=c,-a-\r\njobs=\n".toUTF8 ∧
        JobList.ofJoined "b=c,-a-\r" = [⟨"b=c"⟩, ⟨"-a-\r"⟩] := by
  intro t publications
  have hfree : (Tree.blank "w").place? true "out" = some (.free ["w", "out"]) :=
    Tree.place?_blank (by decide) "w" .ample true
  obtain ⟨htop, hnone⟩ := Tree.node?_of_place?_free hfree
  have hread : t.read? "out" = some "# seed\n".toUTF8 := by
    refine Tree.read?_put_self ⟨htop, .inl hnone⟩ _ ?_
    rw [Tree.location?, hfree]
    rfl
  obtain ⟨l, hfile⟩ := Tree.exists_file?_of_read? hread
  have hbefore : t.Holds "out" (some "# seed\n".toUTF8) :=
    ⟨hread, l, _, hfile, Medium.takesAllAt_ample l⟩
  have hplain : ∀ p ∈ publications, p.IsPlain := by
    intro p hp
    rcases List.mem_pair.mp hp with rfl | rfl
    · refine ⟨by decide, fun t ht => ?_⟩
      rcases List.mem_pair.mp ht with rfl | rfl
      · exact ⟨by decide, by decide, by decide⟩
      · exact ⟨by decide, by decide, by decide⟩
    · exact ⟨by decide, fun t ht => absurd ht List.not_mem_nil⟩
  have hended : Bytes.Ended "# seed\n".toUTF8 := Bytes.ended_toUTF8 "# seed"
  obtain ⟨hcompletes, hlogs⟩ := exists_applyAll_append hread hended hplain
  obtain ⟨after, hrun, -⟩ := hcompletes hbefore
  obtain ⟨after?, hafter, hsome, hcontent, -, hlines, -⟩ := hlogs after hrun
  refine ⟨hbefore, hplain, after, hrun, ?_, (hlines _ List.mem_cons_self).2⟩
  rw [hafter]
  cases after? with
  | none => exact absurd (hsome.mp rfl).1 nofun
  | some content => exact congrArg some (hcontent.trans (by decide +kernel))

end Publication

end ChangeImpact
