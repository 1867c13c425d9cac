/-
Published lists, and how a consumer reads them.

Tokens are joined by commas and nothing is escaped, so only plain tokens can be
told apart again: they are not empty and hold no comma and no line feed.  A list
of plain tokens is empty exactly if its joined form is, and it is read back from
that form as it was.  Every token of a selection by the catalog is plain.
-/
import ChangeImpact.Catalog
import ChangeImpact.Proofs.Selection.Distinct
import ChangeImpact.Proofs.Text.Pieces

namespace ChangeImpact

/-- A token that stays whole among others on one line. -/
structure Token.IsPlain (t : Token) : Prop where
  ne_empty : t.text ≠ ""
  comma_not_mem : ',' ∉ t.text.toList
  feed_not_mem : '\n' ∉ t.text.toList

namespace JobList

/-- The jobs that a consumer finds in a published list. -/
def ofJoined (payload : String) : JobList :=
  if payload = "" then []
  else (Text.split ',' payload.toList).map fun p => ⟨String.ofList p⟩

variable {l : JobList}

theorem exists_joined_append_singleton (l : JobList) (t : Token) :
    ∃ front, joined (l ++ [t]) = front ++ t.text := by
  cases l with
  | nil =>
    refine ⟨"", ?_⟩
    rw [List.nil_append, joined, List.map_singleton, String.intercalate_singleton,
      String.empty_append]
  | cons a l =>
    refine ⟨joined (a :: l) ++ ",", ?_⟩
    unfold joined
    rw [List.map_append, List.map_singleton,
      String.intercalate_append_of_ne_nil (by simp) (by simp), String.intercalate_singleton]

theorem getLast?_joined_append_singleton (l : JobList) {t : Token} (ht : t.text ≠ "") :
    (joined (l ++ [t])).toList.getLast? = t.text.toList.getLast? := by
  obtain ⟨front, hfront⟩ := exists_joined_append_singleton l t
  rw [hfront, String.toList_append, List.getLast?_append_of_ne_nil]
  exact fun h => ht (String.toList_eq_nil_iff.mp h)

/-- A list ends as its last token does, and the empty list with nothing. -/
theorem getLast?_joined_ne {c : Char} (hne : ∀ t ∈ l, t.text ≠ "")
    (hlast : ∀ t, l.getLast? = some t → t.text.toList.getLast? ≠ some c) :
    l.joined.toList.getLast? ≠ some c := by
  rcases List.eq_nil_or_concat l with hl | ⟨front, t, hl⟩
  · rw [hl]
    show none ≠ some c
    exact nofun
  · rw [List.concat_eq_append] at hl
    subst hl
    rw [getLast?_joined_append_singleton front (hne t (by simp))]
    exact hlast t List.getLast?_concat

theorem joined_eq_empty_iff (h : ∀ t ∈ l, t.IsPlain) : l.joined = "" ↔ l = [] := by
  constructor
  · intro he
    rcases List.eq_nil_or_concat l with hl | ⟨front, t, hl⟩
    · exact hl
    · rw [List.concat_eq_append] at hl
      subst hl
      obtain ⟨s, hs⟩ := exists_joined_append_singleton front t
      have ht := (h t (by simp)).ne_empty
      rw [hs, String.append_eq_empty_iff] at he
      exact absurd he.2 ht
  · intro hl
    rw [hl]
    rfl

theorem ofJoined_joined (h : ∀ t ∈ l, t.IsPlain) : ofJoined l.joined = l := by
  unfold ofJoined
  by_cases hl : l = []
  · rw [if_pos ((joined_eq_empty_iff h).mpr hl), hl]
  · rw [if_neg fun he => hl ((joined_eq_empty_iff h).mp he), toList_joined,
      Text.split_intercalate (by simpa using hl), List.map_map]
    · refine (List.map_congr_left fun t _ => ?_).trans (List.map_id l)
      show Token.mk (String.ofList t.text.toList) = t
      rw [String.ofList_toList]
    · intro p hp
      obtain ⟨t, ht, rfl⟩ := List.mem_map.mp hp
      exact (h t ht).comma_not_mem

theorem feed_not_mem_joined (h : ∀ t ∈ l, t.IsPlain) : '\n' ∉ l.joined.toList := by
  intro hm
  rw [toList_joined] at hm
  rcases Text.mem_of_mem_intercalate hm with hc | ⟨p, hp, hc⟩
  · exact absurd hc (by decide)
  · obtain ⟨t, ht, rfl⟩ := List.mem_map.mp hp
    exact (h t ht).feed_not_mem hc

end JobList

/-! ## Jobs of a selection -/

namespace Token

theorem toList_full (name : String) :
    (full name).text.toList = '-' :: name.toList ++ ['-'] := by
  simp [full]

theorem isPlain_full {name : String} (hc : ',' ∉ name.toList) (hf : '\n' ∉ name.toList) :
    (full name).IsPlain := by
  refine ⟨?_, ?_, ?_⟩
  · intro he
    rw [← String.toList_eq_nil_iff, toList_full] at he
    cases he
  · simpa [toList_full] using hc
  · simpa [toList_full] using hf

theorem isPlain_testOnly {name : String} (hc : ',' ∉ name.toList) (hf : '\n' ∉ name.toList) :
    (testOnly name).IsPlain := by
  rw [← full_eq_testOnly_iff.mpr rfl]
  refine isPlain_full ?_ ?_
  · simpa using hc
  · simpa using hf

theorem getLast?_full (name : String) : (full name).text.toList.getLast? = some '-' := by
  rw [toList_full, List.getLast?_append_of_ne_nil _ (List.cons_ne_nil _ _)]
  rfl

theorem getLast?_testOnly (name : String) : (testOnly name).text.toList.getLast? = some '-' := by
  rw [← full_eq_testOnly_iff.mpr rfl, getLast?_full]

end Token

namespace Catalog

theorem isPlain_of_mem_jobs {paths : List String} {t : Token} (h : t ∈ config.jobs paths) :
    t.IsPlain := by
  have hnames : ∀ n ∈ crates, ',' ∉ n.toList ∧ '\n' ∉ n.toList := by
    decide +kernel
  rcases Config.mem_jobs_cases h with ⟨n, hn, ht | ht⟩ | ht | ht
  · rw [ht]
    exact Token.isPlain_full (hnames n hn).1 (hnames n hn).2
  · rw [ht]
    exact Token.isPlain_testOnly (hnames n hn).1 (hnames n hn).2
  · rw [ht]
    exact ⟨by decide, by decide, by decide⟩
  · rw [ht]
    exact ⟨by decide, by decide, by decide⟩

/-- A list of jobs of the catalog is read back from its joined form. -/
theorem ofJoined_joined_jobs (paths : List String) :
    JobList.ofJoined (config.jobs paths).joined = config.jobs paths :=
  JobList.ofJoined_joined fun _ => isPlain_of_mem_jobs

theorem feed_not_mem_joined_jobs (paths : List String) :
    '\n' ∉ (config.jobs paths).joined.toList :=
  JobList.feed_not_mem_joined fun _ => isPlain_of_mem_jobs

theorem quote_not_mem_of_mem_jobs {paths : List String} {t : Token}
    (h : t ∈ config.jobs paths) : '`' ∉ t.text.toList := by
  have hnames : ∀ n ∈ crates, '`' ∉ n.toList := by
    decide +kernel
  rcases Config.mem_jobs_cases h with ⟨n, hn, ht | ht⟩ | ht | ht
  · rw [ht]
    simpa [Token.full] using hnames n hn
  · rw [ht]
    simpa [Token.testOnly] using hnames n hn
  · rw [ht]
    decide
  · rw [ht]
    decide

/-- A list of jobs of the catalog does not end in a carriage return. -/
theorem getLast?_joined_ne_return (paths : List String) :
    (config.jobs paths).joined.toList.getLast? ≠ some '\r' := by
  refine JobList.getLast?_joined_ne (fun t ht => (isPlain_of_mem_jobs ht).ne_empty) ?_
  intro t hlast
  rcases Config.mem_jobs_cases (List.mem_of_getLast? hlast) with ⟨n, -, ht | ht⟩ | ht | ht
  · rw [ht, Token.getLast?_full]
    decide
  · rw [ht, Token.getLast?_testOnly]
    decide
  · rw [ht]
    decide
  · rw [ht]
    decide

end Catalog

end ChangeImpact
