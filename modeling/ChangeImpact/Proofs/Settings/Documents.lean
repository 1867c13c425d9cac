/-
Settings files with one line for each key.

Such a file opens the table `output`, and below it each key has at most one line, in any
order.  It is read as it is written: a line sets its value, and a key without a line keeps
its default, whatever the other lines say.  What a run makes of the settings does not
depend on how they were written, so it is stated of all settings (`merges_merge`).
-/
import ChangeImpact.Proofs.Toml.Lines
import ChangeImpact.Settings

namespace ChangeImpact
namespace Settings

/-! ## Lines -/

/-- A line of a settings file. -/
inductive Item where
  | name (s : String)
  | echo (b : Bool)
  | format (f : OutputFormat)
deriving DecidableEq, Repr

namespace Item

def key : Item → String
  | .name _ => "name"
  | .echo _ => "echo"
  | .format _ => "format"

def text : Item → String
  | .name s => "\"" ++ s ++ "\""
  | .echo b => if b then "true" else "false"
  | .format f => "\"" ++ f.word ++ "\""

def value : Item → Toml.Value
  | .name s => .string s
  | .echo b => .boolean b
  | .format f => .string f.word

def line (i : Item) : Toml.Line :=
  ⟨i.key, i.text, i.value⟩

/-- Nothing in the line needs an escape or cannot be written at all. -/
def IsPlain : Item → Prop
  | .name s => ∀ c ∈ s.toList, c ≠ '"' ∧ c ≠ '\\' ∧ 0x20 ≤ c.toNat ∧ c.toNat ≠ 0x7f
  | .echo _ | .format _ => True

instance : (i : Item) → Decidable i.IsPlain
  | .name s => List.decidableBAll _ s.toList
  | .echo _ | .format _ => inferInstanceAs (Decidable True)

theorem isBare_key (i : Item) : Toml.IsBare i.key := by
  cases i with
  | name => exact (by decide : Toml.IsBare "name")
  | echo => exact (by decide : Toml.IsBare "echo")
  | format => exact (by decide : Toml.IsBare "format")

theorem fits_line {i : Item} (h : i.IsPlain) : i.line.Fits where
  key := i.isBare_key
  text := by
    cases i with
    | name s =>
      refine Toml.isWritten_string fun c hc => ?_
      obtain ⟨hquote, hslash, hlow, hdelete⟩ := h c hc
      exact ⟨hquote, hslash, by simp [Toml.isPlain, hlow, hdelete]⟩
    | echo b => exact Toml.isWritten_boolean b
    | format f => exact Toml.isWritten_string (by cases f <;> decide)

theorem inRange_value (i : Item) : i.value.inRange = true := by
  cases i <;> simp [value, Toml.Value.inRange]

end Item

/-- The text of a settings file with these lines. -/
def document (o : Toml.Layout) (items : List Item) : String :=
  o.text ("[output]" :: items.map fun i => i.key ++ " = " ++ i.text)

/-! ## Reading -/

/-- A field has the value of its line if there is one, and otherwise the default. -/
def Takes {α : Type} (items : List Item) (item : α → Item) (default value : α) : Prop :=
  (∀ a, item a ∈ items → value = a) ∧ ((∀ a, item a ∉ items) → value = default)

/-- The settings are those that the lines set. -/
structure AsWritten (items : List Item) (file : Settings) : Prop where
  name : Takes items .name "jobs" file.name
  echo : Takes items .echo true file.echo
  format : Takes items .format .github file.format

variable {items : List Item}

/-- What is read under a key depends on the line of this key alone. -/
theorem exists_orDefault?_get? {α : Type} (read : Toml.Value → Option α) (item : α → Item)
    (key : String) (default : α) (hkey : ∀ i : Item, i.key = key ↔ ∃ a, i = item a)
    (hread : ∀ a, read (item a).value = some a) (hkeys : (items.map Item.key).Nodup) :
    ∃ a, orDefault? read default
        (Toml.Entries.get? (items.map fun i => i.line.entry) key) = some a ∧
      Takes items item default a := by
  have hentries : ((items.map fun i => i.line.entry).map Prod.fst).Nodup := by
    rw [List.map_map]
    exact hkeys
  by_cases h : ∃ a, item a ∈ items
  · obtain ⟨a, ha⟩ := h
    have hkey_a : ∀ b, (item b).key = key := fun b => (hkey _).mpr ⟨b, rfl⟩
    have hmem : (key, (item a).value) ∈ items.map fun i => i.line.entry :=
      List.mem_map.mpr ⟨item a, ha, by rw [← hkey_a a]; rfl⟩
    refine ⟨a, ?_, ?_, fun hno => absurd ha (hno a)⟩
    · rw [Toml.Entries.get?_of_mem hentries hmem]
      exact hread a
    · intro b hb
      have hab : item a = item b :=
        List.inj_on_of_nodup_map hkeys ha hb ((hkey_a a).trans (hkey_a b).symm)
      have hvalue := hread a
      rw [hab, hread b] at hvalue
      exact (Option.some.inj hvalue).symm
  · have hget : Toml.Entries.get? (items.map fun i => i.line.entry) key = none := by
      rw [Toml.Entries.get?_eq_none_iff, List.map_map]
      intro hmem
      obtain ⟨i, hi, hik⟩ := List.mem_map.mp hmem
      obtain ⟨a, rfl⟩ := (hkey i).mp hik
      exact h ⟨a, hi⟩
    rw [hget]
    exact ⟨default, rfl, fun a ha => absurd ⟨a, ha⟩ h, fun _ => rfl⟩

/-- Which lines there are settles the value of a field, and not their order. -/
theorem Takes.eq_of_mem_iff {α : Type} {items' : List Item} {item : α → Item}
    {default v v' : α} (h : Takes items item default v) (h' : Takes items' item default v')
    (hmem : ∀ i, i ∈ items ↔ i ∈ items') : v = v' := by
  by_cases hline : ∃ a, item a ∈ items
  · obtain ⟨a, ha⟩ := hline
    rw [h.1 a ha, h'.1 a ((hmem _).mp ha)]
  · rw [h.2 fun a ha => hline ⟨a, ha⟩, h'.2 fun a ha => hline ⟨a, (hmem _).mpr ha⟩]

theorem exists_ofOutput? (hkeys : (items.map Item.key).Nodup) :
    ∃ file, ofOutput? (.table .header (items.map fun i => i.line.entry)) = some file ∧
      AsWritten items file := by
  obtain ⟨name, hname, hname_takes⟩ :=
    exists_orDefault?_get? nameOf? Item.name "name" "jobs" (by intro i; cases i <;> simp [Item.key])
      (fun _ => rfl) hkeys
  obtain ⟨echo, hecho, hecho_takes⟩ :=
    exists_orDefault?_get? echoOf? Item.echo "echo" true (by intro i; cases i <;> simp [Item.key])
      (fun _ => rfl) hkeys
  obtain ⟨format, hformat, hformat_takes⟩ :=
    exists_orDefault?_get? formatOf? Item.format "format" .github
      (by intro i; cases i <;> simp [Item.key]) (fun f => f.ofWord?_word) hkeys
  refine ⟨⟨name, echo, format⟩, ?_, hname_takes, hecho_takes, hformat_takes⟩
  have hrange : ((items.map fun i => i.line.entry).all fun e => e.2.inRange) = true := by
    rw [List.all_map, List.all_eq_true]
    exact fun i _ => i.inRange_value
  rw [ofOutput?, if_pos hrange]
  show ofValues? _ _ _ = _
  unfold ofValues?
  rw [hname, hecho, hformat]
  rfl

/-- A file with distinct keys, in any order, is read as it is written. -/
theorem exists_read?_document (o : Toml.Layout) (hkeys : (items.map Item.key).Nodup)
    (hplain : ∀ i ∈ items, i.IsPlain) :
    ∃ file, read? (document o items) = some file ∧ AsWritten items file := by
  obtain ⟨file, hread, hfile⟩ := exists_ofOutput? hkeys
  refine ⟨file, ?_, hfile⟩
  have hfits : ∀ l ∈ items.map Item.line, l.Fits := by
    intro l hl
    obtain ⟨i, hi, rfl⟩ := List.mem_map.mp hl
    exact Item.fits_line (hplain i hi)
  have htable := Toml.read?_text o (by decide : Toml.IsBare "output") hfits
    (by rw [List.map_map]; exact hkeys)
  rw [List.map_map, List.map_map] at htable
  have htext : document o items =
      o.text (("[" ++ "output" ++ "]") :: items.map (Toml.Line.render ∘ Item.line)) := rfl
  rw [read?, htext, htable]
  exact hread

/-- Neither the order of the lines nor how they end can be seen in what is read. -/
theorem read?_document_eq_of_perm {items' : List Item} (o o' : Toml.Layout)
    (hkeys : (items.map Item.key).Nodup) (hplain : ∀ i ∈ items, i.IsPlain)
    (hperm : items.Perm items') : read? (document o items) = read? (document o' items') := by
  have hkeys' : (items'.map Item.key).Nodup := (hperm.map Item.key).nodup_iff.mp hkeys
  have hplain' : ∀ i ∈ items', i.IsPlain := fun i hi => hplain i (hperm.mem_iff.mpr hi)
  have hmem : ∀ i, i ∈ items ↔ i ∈ items' := fun _ => hperm.mem_iff
  obtain ⟨file, hread, hfile⟩ := exists_read?_document o hkeys hplain
  obtain ⟨file', hread', hfile'⟩ := exists_read?_document o' hkeys' hplain'
  rw [hread, hread', Option.some.injEq, Settings.mk.injEq]
  exact ⟨hfile.name.eq_of_mem_iff hfile'.name hmem, hfile.echo.eq_of_mem_iff hfile'.echo hmem,
    hfile.format.eq_of_mem_iff hfile'.format hmem⟩

/-! ## Merging -/

/-- White space and the characters that end a name where it is published. -/
def IsForbidden (c : Char) : Prop :=
  Text.isWhite c = true ∨ c = ':' ∨ c = '=' ∨ c = ','

instance (c : Char) : Decidable (IsForbidden c) :=
  inferInstanceAs (Decidable (_ ∨ _ ∨ _ ∨ _))

theorem isDisallowed_eq_true_iff {c : Char} : isDisallowed c = true ↔ IsForbidden c := by
  simp [isDisallowed, IsForbidden, or_assoc]

theorem isDisallowed_eq_false_iff {c : Char} : isDisallowed c = false ↔ ¬ IsForbidden c := by
  rw [← isDisallowed_eq_true_iff, Bool.not_eq_true]

/-- What comes of settings under the options of the command line: a fault of the name, or
the settings of the run. -/
structure Merges (file : Settings) (format : Option OutputFormat) (quiet : Bool)
    (result : Except NameFault Settings) : Prop where
  fails_iff : (∃ fault, result = .error fault) ↔
    file.name = "" ∨ ∃ c ∈ file.name.toList, IsForbidden c
  empty : file.name = "" →
    ∃ fault, result = .error fault ∧ fault.message = "output name must not be empty"
  /-- The message names the first of the characters at fault. -/
  disallowed {a b : List Char} {c : Char} : file.name.toList = a ++ c :: b →
    (∀ d ∈ a, ¬ IsForbidden d) → IsForbidden c →
    ∃ fault, result = .error fault ∧ fault.message =
      "output name '" ++ file.name ++ "' contains disallowed character " ++ Text.quotedSingle c
  ok : file.name ≠ "" → (∀ c ∈ file.name.toList, ¬ IsForbidden c) →
    result = .ok ⟨file.name, file.echo && !quiet, format.getD file.format⟩

theorem nameFault?_of_first {name : String} {a b : List Char} {c : Char}
    (hname : name.toList = a ++ c :: b) (ha : ∀ d ∈ a, ¬ IsForbidden d) (hc : IsForbidden c) :
    nameFault? name = some (.disallowed name c) := by
  have hne : name ≠ "" := by
    rintro rfl
    simp at hname
  have hfind : name.toList.find? isDisallowed = some c := by
    rw [List.find?_eq_some_iff_append]
    refine ⟨isDisallowed_eq_true_iff.mpr hc, a, b, hname, fun d hd => ?_⟩
    rw [isDisallowed_eq_false_iff.mpr (ha d hd)]
    rfl
  rw [nameFault?, if_neg hne, hfind]
  rfl

theorem merges_merge (file : Settings) (format : Option OutputFormat) (quiet : Bool) :
    Merges file format quiet (file.merge format quiet) where
  fails_iff :=
    calc (∃ fault, file.merge format quiet = .error fault)
      _ ↔ ∃ fault, nameFault? file.name = some fault := by simp only [merge_eq_error_iff]
      _ ↔ nameFault? file.name ≠ none := Option.ne_none_iff_exists'.symm
      _ ↔ ¬ (file.name ≠ "" ∧ ∀ c ∈ file.name.toList, ¬ IsForbidden c) := by
        simp only [ne_eq, nameFault?_eq_none_iff, isDisallowed_eq_false_iff]
      _ ↔ file.name = "" ∨ ∃ c ∈ file.name.toList, IsForbidden c := by
        simp only [ne_eq, not_and_or, not_not, not_forall, exists_prop]
  empty h := ⟨.empty, merge_eq_error_iff.mpr (by rw [nameFault?, if_pos h]), rfl⟩
  disallowed hname ha hc :=
    ⟨_, merge_eq_error_iff.mpr (nameFault?_of_first hname ha hc), rfl⟩
  ok hne hc := by
    refine merge_eq_ok_iff.mpr ⟨nameFault?_eq_none_iff.mpr ⟨hne, fun c hmem => ?_⟩, rfl⟩
    exact isDisallowed_eq_false_iff.mpr (hc c hmem)

/-- What a file says is what a run goes by, unless an option or the check of the name comes
in between. -/
theorem asWritten_document (o : Toml.Layout) {items : List Item}
    (hkeys : (items.map Item.key).Nodup) (hplain : ∀ i ∈ items, i.IsPlain) :
    ∃ file, read? (document o items) = some file ∧ AsWritten items file ∧
      ∀ format quiet, Merges file format quiet (file.merge format quiet) := by
  obtain ⟨file, hread, hfile⟩ := exists_read?_document o hkeys hplain
  exact ⟨file, hread, hfile, merges_merge file⟩

/-- A name with marks of the document in it, behind the format and without a line for the
echo. -/
theorem asWritten_document_marks :
    ([Item.format .json, .name "é#[a]=b"].map Item.key).Nodup ∧
    (∀ i ∈ [Item.format .json, .name "é#[a]=b"], i.IsPlain) ∧
    read? "[output]\nformat = \"json\"\nname = \"é#[a]=b\"\n" = some ⟨"é#[a]=b", true, .json⟩ ∧
    ∀ format quiet, ∃ fault,
      merge ⟨"é#[a]=b", true, .json⟩ format quiet = .error fault ∧
      fault.message = "output name 'é#[a]=b' contains disallowed character '='" := by
  have hkeys : ([Item.format .json, .name "é#[a]=b"].map Item.key).Nodup := by decide
  have hplain : ∀ i ∈ [Item.format .json, .name "é#[a]=b"], i.IsPlain := by decide
  obtain ⟨⟨name, echo, format⟩, hread, hfile, hmerges⟩ :=
    asWritten_document ⟨false, true⟩ hkeys hplain
  obtain rfl : name = "é#[a]=b" := hfile.name.1 _ (by simp)
  obtain rfl : echo = true := hfile.echo.2 (by simp)
  obtain rfl : format = .json := hfile.format.1 _ (by simp)
  refine ⟨hkeys, hplain, hread, fun format quiet => ?_⟩
  have hfirst : "é#[a]=b".toList = ['é', '#', '[', 'a', ']'] ++ '=' :: ['b'] := by decide
  have hbefore : ∀ d ∈ ['é', '#', '[', 'a', ']'], ¬ IsForbidden d := by
    simp only [List.forall_mem_cons]
    exact ⟨by decide, by decide, by decide, by decide, by decide, nofun⟩
  obtain ⟨fault, hfault, hmessage⟩ :=
    (hmerges format quiet).disallowed hfirst hbefore (by decide)
  have hquoted : Text.quotedSingle '=' = "'='" := by decide +kernel
  rw [hquoted] at hmessage
  exact ⟨fault, hfault, hmessage⟩

end Settings
end ChangeImpact
