/-
Reading after a file was written.

Writing gives one location a file, where a file or nothing was before.  A directory or
a link stays what it is, so every path leads where it led; at most its place is no
longer free.  A file is therefore read back through every path that leads to it, and
through all other paths nothing has changed.  This holds of a writing that was cut as
well: `write_cases` says what any writing leaves, and the rest follows from it.
-/
import ChangeImpact.Files.Tree

namespace ChangeImpact

/-- Whether a path names one entry of the directory in which it begins. -/
def Path.isEntry (path name : String) : Bool :=
  isUsable path && !isAbsolute path && (steps path).dropWhile staysPut == [name] &&
    name != ".." && name.utf8ByteSize ≤ maxNameBytes

namespace Place

def location : Place → Location
  | .present l => l
  | .free l => l

/-- The place once there is a node at a location. -/
def settle (l : Location) : Place → Place
  | .present m => .present m
  | .free m => if m = l then .present m else .free m

theorem location_settle (l : Location) (p : Place) : (p.settle l).location = p.location := by
  cases p with
  | present m => rfl
  | free m =>
    show (if m = l then Place.present m else Place.free m).location = m
    by_cases hm : m = l
    · rw [if_pos hm]
      rfl
    · rw [if_neg hm]
      rfl

end Place

namespace Medium

/-- The file at a location can be opened, and all that is written is taken. -/
structure TakesAllAt (m : Medium) (l : Location) : Prop where
  opens : m.opens l = true
  takes : ∀ content bytes, bytes.size ≤ m.takes l content bytes

theorem takesAllAt_ample (l : Location) : ample.TakesAllAt l :=
  ⟨rfl, fun _ _ => Nat.le_refl _⟩

end Medium

namespace Tree

/-- The content of the file at a location. -/
def content? (t : Tree) (l : Location) : Option ByteArray :=
  match t.node? l with
  | some (.file content) => some content
  | _ => none

/-- The location that a path names, taken or free. -/
def location? (t : Tree) (path : String) : Option Location :=
  (t.place? true path).map Place.location

/-- There is a file at the location, or nothing yet. -/
structure HasRoomAt (t : Tree) (l : Location) : Prop where
  ne_top : l ≠ []
  file_or_none : t.node? l = none ∨ ∃ content, t.node? l = some (.file content)

variable {t : Tree} {l m : Location} {content : ByteArray}

namespace HasRoomAt

theorem node?_put (h : t.HasRoomAt l) (content : ByteArray) (m : Location) :
    (t.put l (.file content)).node? m = if m = l then some (.file content) else t.node? m := by
  by_cases hm : m = l
  · rw [if_pos hm, hm, node?_put_self h.ne_top]
  · rw [if_neg hm, node?_put_of_ne hm]

theorem ne_of_node? (h : t.HasRoomAt l) {node : Node} (hm : t.node? m = some node)
    (hnode : ∀ content, node ≠ .file content) : m ≠ l := by
  intro he
  rw [he] at hm
  rcases h.file_or_none with hnone | ⟨content, hfile⟩
  · rw [hm] at hnone
    cases hnone
  · rw [hm] at hfile
    exact hnode content (Option.some.inj hfile)

/-- Directories and links are met as before. -/
theorem node?_put_of_node? (h : t.HasRoomAt l) {node : Node} (hm : t.node? m = some node)
    (hnode : ∀ content, node ≠ .file content) (content : ByteArray) :
    (t.put l (.file content)).node? m = some node := by
  rw [h.node?_put, if_neg (h.ne_of_node? hm hnode), hm]

end HasRoomAt

/-! ## Walks -/

/-- A walk meets the same directories and links, so it ends where it ended before. -/
theorem walk_put_file (h : t.HasRoomAt l) (content : ByteArray) (follow : Bool) (links : Nat)
    (here : Location) (steps : List String) :
    (t.put l (.file content)).walk follow links here steps =
      (t.walk follow links here steps).map fun p => (p.1.settle l, p.2) := by
  fun_induction Tree.walk t follow links here steps with
  | case1 links here =>
    rw [walk]
    rfl
  | case2 links here step rest hstay ih => rw [walk, if_pos hstay, ih]
  | case3 links here rest hstay ih => rw [walk, if_neg hstay, if_pos rfl, ih]
  | case4 links here step rest hstay hup hlong =>
    rw [walk, if_neg hstay, if_neg hup, if_pos hlong]
    rfl
  | case5 links here step hstay hup hlong there hnone =>
    -- The free place may be the one that was filled.
    simp only [walk, if_neg hstay, if_neg hup, if_neg hlong, h.node?_put]
    by_cases hl : there = l
    · simp [there, hl, Place.settle]
    · simp [there, hl, hnone, Place.settle]
  | case6 links here step rest hstay hup hlong there hnone hrest =>
    simp only [walk, if_neg hstay, if_neg hup, if_neg hlong, h.node?_put]
    by_cases hl : there = l
    · simp [there, hl, hrest]
    · simp [there, hl, hnone, hrest]
  | case7 links here step hstay hup hlong there old hfile =>
    simp only [walk, if_neg hstay, if_neg hup, if_neg hlong, h.node?_put]
    by_cases hl : there = l
    · simp [there, hl, Place.settle]
    · simp [there, hl, hfile, Place.settle]
  | case8 links here step rest hstay hup hlong there old hfile hrest =>
    simp only [walk, if_neg hstay, if_neg hup, if_neg hlong, h.node?_put]
    by_cases hl : there = l
    · simp [there, hl, hrest]
    · simp [there, hl, hfile, hrest]
  | case9 links here step rest hstay hup hlong there hdir ih =>
    have hnode : (t.put l (.file content)).node? (here ++ [step]) = some .directory :=
      h.node?_put_of_node? hdir (fun _ => Node.noConfusion) content
    simp only [walk, if_neg hstay, if_neg hup, if_neg hlong, hnode]
    exact ih
  | case10 links here step rest hstay hup hlong there target hlink hlast =>
    have hnode : (t.put l (.file content)).node? (here ++ [step]) = some (.link target) :=
      h.node?_put_of_node? hlink (fun _ => Node.noConfusion) content
    simp only [walk, if_neg hstay, if_neg hup, if_neg hlong, hnode, if_pos hlast]
    rfl
  | case11 here step rest hstay hup hlong there target hlink hlast =>
    have hnode : (t.put l (.file content)).node? (here ++ [step]) = some (.link target) :=
      h.node?_put_of_node? hlink (fun _ => Node.noConfusion) content
    simp only [walk, if_neg hstay, if_neg hup, if_neg hlong, hnode, if_neg hlast]
    rfl
  | case12 here step rest hstay hup hlong there target hlink hlast n ih =>
    have hnode : (t.put l (.file content)).node? (here ++ [step]) = some (.link target) :=
      h.node?_put_of_node? hlink (fun _ => Node.noConfusion) content
    simp only [walk, if_neg hstay, if_neg hup, if_neg hlong, hnode, if_neg hlast]
    exact ih

/-- A place is free only where there is no node, and never at the top. -/
theorem node?_of_walk_free {follow : Bool} {links left : Nat} {here : Location}
    {steps : List String} (h : t.walk follow links here steps = some (.free l, left)) :
    l ≠ [] ∧ t.node? l = none := by
  fun_induction Tree.walk t follow links here steps with
  | case1 links here => cases h
  | case2 links here step rest hstay ih => exact ih h
  | case3 links here rest hstay ih => exact ih h
  | case4 links here step rest hstay hup hlong => cases h
  | case5 links here step hstay hup hlong there hnone =>
    have hl : there = l := Place.free.inj (Prod.mk.inj (Option.some.inj h)).1
    rw [← hl]
    exact ⟨List.append_ne_nil_of_right_ne_nil _ (List.cons_ne_nil _ _), hnone⟩
  | case6 links here step rest hstay hup hlong there hnone hrest => cases h
  | case7 links here step hstay hup hlong there old hfile => cases h
  | case8 links here step rest hstay hup hlong there old hfile hrest => cases h
  | case9 links here step rest hstay hup hlong there hdir ih => exact ih h
  | case10 links here step rest hstay hup hlong there target hlink hlast => cases h
  | case11 here step rest hstay hup hlong there target hlink hlast => cases h
  | case12 here step rest hstay hup hlong there target hlink hlast n ih => exact ih h

theorem node?_of_place?_free {follow : Bool} {path : String}
    (h : t.place? follow path = some (.free l)) : l ≠ [] ∧ t.node? l = none := by
  unfold place? at h
  by_cases hu : Path.isUsable path = true
  · rw [if_pos hu, Option.map_eq_some_iff] at h
    obtain ⟨⟨place, left⟩, hwalk, hplace⟩ := h
    have hfree : place = .free l := hplace
    rw [hfree] at hwalk
    exact node?_of_walk_free hwalk
  · rw [if_neg hu] at h
    cases h

/-! ## Paths -/

theorem place?_put_file (h : t.HasRoomAt l) (content : ByteArray) (follow : Bool)
    (path : String) :
    (t.put l (.file content)).place? follow path = (t.place? follow path).map (.settle l) := by
  have hstart : (t.put l (.file content)).start path = t.start path := rfl
  unfold place?
  by_cases hu : Path.isUsable path = true
  · rw [if_pos hu, if_pos hu, hstart, walk_put_file h, Option.map_map, Option.map_map]
    rfl
  · rw [if_neg hu, if_neg hu]
    rfl

theorem location?_put_file (h : t.HasRoomAt l) (content : ByteArray) (path : String) :
    (t.put l (.file content)).location? path = t.location? path := by
  unfold location?
  rw [place?_put_file h, Option.map_map]
  exact congrArg (Option.map · _) (funext fun p => Place.location_settle l p)

/-- A path is read through the location that it names. -/
theorem read?_eq (t : Tree) (path : String) :
    t.read? path = (t.location? path).bind t.content? := by
  unfold read? find? location?
  cases hp : t.place? true path with
  | none => rfl
  | some place =>
    cases place with
    | present l => rfl
    | free l =>
      have hnone := (node?_of_place?_free hp).2
      show none = t.content? l
      rw [content?, hnone]

theorem content?_put_self (h : t.HasRoomAt l) (content : ByteArray) :
    (t.put l (.file content)).content? l = some content := by
  rw [content?, node?_put_self h.ne_top]

/-- A file that is written is read back through every path that names its location. -/
theorem read?_put_self (h : t.HasRoomAt l) (content : ByteArray) {path : String}
    (hpath : t.location? path = some l) :
    (t.put l (.file content)).read? path = some content := by
  rw [read?_eq, location?_put_file h, hpath]
  exact content?_put_self h content

/-- Through a path that names another location, or none, the same is found. -/
theorem find?_put_of_ne (h : t.HasRoomAt l) (content : ByteArray) {path : String}
    (hpath : t.location? path ≠ some l) :
    (t.put l (.file content)).find? path = t.find? path := by
  unfold location? at hpath
  unfold find?
  rw [place?_put_file h]
  cases hp : t.place? true path with
  | none => rfl
  | some place =>
    rw [hp] at hpath
    have hne : place.location ≠ l := fun he => hpath (congrArg some he)
    cases place with
    | present m => exact node?_put_of_ne hne _
    | free m =>
      have hfree : Place.settle l (.free m) = .free m := if_neg hne
      rw [Option.map_some, hfree]

/-! ## Writings -/

/-- The tree that a writing leaves once it has opened the file. -/
def Written.tree? : Written → Option Tree
  | .unopened => none
  | .cut after | .whole after => some after

variable {path other : String} {d : Draft} {after : Tree}

/-- The file at a path stands where the path leads. -/
theorem location?_of_file? (h : t.file? path = some (l, content)) :
    t.location? path = some l ∧ t.HasRoomAt l ∧ content = (t.read? path).getD .empty := by
  unfold file? at h
  unfold read? find? location?
  cases hp : t.place? true path with
  | none =>
    rw [hp] at h
    cases h
  | some place =>
    rw [hp] at h
    cases place with
    | free m =>
      obtain ⟨rfl, rfl⟩ := Prod.mk.inj (Option.some.inj h)
      obtain ⟨htop, hnone⟩ := node?_of_place?_free hp
      exact ⟨rfl, ⟨htop, .inl hnone⟩, rfl⟩
    | present m =>
      dsimp only at h ⊢
      split at h
      · next hnode =>
        obtain ⟨rfl, rfl⟩ := Prod.mk.inj (Option.some.inj h)
        have htop : m ≠ [] := by
          intro he
          rw [he] at hnode
          cases hnode
        exact ⟨rfl, ⟨htop, .inr ⟨_, hnode⟩⟩, rfl⟩
      · cases h

theorem exists_file?_of_read? (h : t.read? path = some content) :
    ∃ l, t.file? path = some (l, content) := by
  unfold read? find? at h
  unfold file?
  cases hp : t.place? true path with
  | none =>
    rw [hp] at h
    cases h
  | some place =>
    rw [hp] at h
    cases place with
    | free m => cases h
    | present m =>
      dsimp only at h ⊢
      split at h
      · next hnode =>
        obtain rfl := Option.some.inj h
        exact ⟨m, rfl⟩
      · cases h

/-- What a writing can do: it does not open the file, or it puts one at the location of the
path, with what was kept of the content and a part of the text or all of it behind. -/
theorem write_cases (t : Tree) (path : String) (d : Draft) :
    t.write path d = .unopened ∨
      ∃ l n after, t.location? path = some l ∧ t.HasRoomAt l ∧
        after = t.put l (.file (d.kept ((t.read? path).getD .empty) ++ d.bytes.extract 0 n)) ∧
        (n < d.bytes.size ∧ t.write path d = .cut after ∨
          n = d.bytes.size ∧ t.write path d = .whole after) := by
  unfold write
  cases hfile : t.file? path with
  | none => exact .inl rfl
  | some found =>
    obtain ⟨l, content⟩ := found
    obtain ⟨hlocation, hroom, rfl⟩ := location?_of_file? hfile
    dsimp only
    by_cases hopens : t.medium.opens l = true
    · rw [if_pos hopens]
      by_cases htaken : d.bytes.size ≤ t.medium.takes l (d.kept ((t.read? path).getD .empty)) d.bytes
      · rw [if_pos htaken]
        refine .inr ⟨l, d.bytes.size, _, hlocation, hroom, rfl, .inr ⟨rfl, ?_⟩⟩
        rw [ByteArray.extract_zero_size]
      · rw [if_neg htaken]
        exact .inr ⟨l, _, _, hlocation, hroom, rfl, .inl ⟨Nat.lt_of_not_le htaken, rfl⟩⟩
    · rw [if_neg hopens]
      exact .inl rfl

/-- A writing that has opened its file puts one there. -/
theorem exists_put_of_write (h : (t.write path d).tree? = some after) :
    ∃ l content, t.location? path = some l ∧ t.HasRoomAt l ∧ after = t.put l (.file content) := by
  rcases write_cases t path d with hw | ⟨l, n, between, hl, hroom, hput, ⟨-, hw⟩ | ⟨-, hw⟩⟩
  · rw [hw] at h
    cases h
  · rw [hw] at h
    obtain rfl := Option.some.inj h
    exact ⟨l, _, hl, hroom, hput⟩
  · rw [hw] at h
    obtain rfl := Option.some.inj h
    exact ⟨l, _, hl, hroom, hput⟩

theorem read?_of_whole (h : t.write path d = .whole after) :
    after.read? path = some (d.kept ((t.read? path).getD .empty) ++ d.bytes) := by
  rcases write_cases t path d with hw | ⟨l, n, between, hl, hroom, rfl, ⟨-, hw⟩ | ⟨rfl, hw⟩⟩
  · rw [hw] at h
    cases h
  · rw [hw] at h
    cases h
  · obtain rfl := Written.whole.inj (hw.symm.trans h)
    rw [read?_put_self hroom _ hl, ByteArray.extract_zero_size]

theorem location?_of_write (h : (t.write path d).tree? = some after) (other : String) :
    after.location? other = t.location? other := by
  obtain ⟨l, content, -, hroom, rfl⟩ := exists_put_of_write h
  exact location?_put_file hroom content other

/-- A writing, whole or cut, changes nothing but the file at the path. -/
theorem find?_of_write_of_ne (h : (t.write path d).tree? = some after)
    (hne : t.location? other ≠ t.location? path) : after.find? other = t.find? other := by
  obtain ⟨l, content, hl, hroom, rfl⟩ := exists_put_of_write h
  rw [hl] at hne
  exact find?_put_of_ne hroom content hne

theorem read?_of_write_of_ne (h : (t.write path d).tree? = some after)
    (hne : t.location? other ≠ t.location? path) : after.read? other = t.read? other := by
  rw [read?, find?_of_write_of_ne h hne, read?]

/-! ## What the medium takes -/

theorem write_of_takesAllAt (hfile : t.file? path = some (l, content))
    (htakes : t.medium.TakesAllAt l) (d : Draft) :
    t.write path d = .whole (t.put l (.file (d.kept content ++ d.bytes))) := by
  rw [write, hfile]
  dsimp only
  rw [if_pos htakes.opens, if_pos (htakes.takes _ _)]

theorem write_of_free (hfree : t.place? true path = some (.free l))
    (htakes : t.medium.TakesAllAt l) (d : Draft) :
    t.write path d = .whole (t.put l (.file (d.kept .empty ++ d.bytes))) := by
  have hfile : t.file? path = some (l, .empty) := by
    rw [file?, hfree]
  exact write_of_takesAllAt hfile htakes d

/-- What stands where a file can be written: a file with its content, or nothing yet in a
directory that is there. -/
structure Holds (t : Tree) (path : String) (content? : Option ByteArray) : Prop where
  read? : t.read? path = content?
  file? : ∃ l content, t.file? path = some (l, content) ∧ t.medium.TakesAllAt l

/-- Where a file can be written, a writing succeeds, and the file can be written again. -/
theorem Holds.exists_write {content? : Option ByteArray} (h : t.Holds path content?)
    (d : Draft) :
    ∃ after, t.write path d = .whole after ∧
      after.Holds path (some (d.kept (content?.getD .empty) ++ d.bytes)) := by
  obtain ⟨l, content, hfile, htakes⟩ := h.file?
  have hwrite := write_of_takesAllAt hfile htakes d
  have hread := read?_of_whole hwrite
  rw [h.read?] at hread
  obtain ⟨m, hagain⟩ := exists_file?_of_read? hread
  refine ⟨_, hwrite, hread, m, _, hagain, ?_⟩
  -- The path leads where it led, so the same part of the medium is asked again.
  have hm := (location?_of_file? hagain).1
  rw [location?_of_write (congrArg Written.tree? hwrite), (location?_of_file? hfile).1] at hm
  obtain rfl := Option.some.inj hm
  exact htakes

/-! ## The blank tree -/

/-- Dots in front of a path change nothing. -/
theorem walk_dropWhile (t : Tree) (follow : Bool) (links : Nat) (here : Location)
    (steps : List String) :
    t.walk follow links here (steps.dropWhile Path.staysPut) =
      t.walk follow links here steps := by
  induction steps with
  | nil => rfl
  | cons step rest ih =>
    by_cases hstay : Path.staysPut step = true
    · rw [List.dropWhile_cons_of_pos hstay, ih, walk, if_pos hstay]
    · rw [List.dropWhile_cons_of_neg hstay]

/-- In the blank tree every name is free. -/
theorem place?_blank {path name : String} (h : Path.isEntry path name = true) (base : String)
    (medium : Medium) (follow : Bool) :
    (blank base medium).place? follow path = some (.free [base, name]) := by
  simp only [Path.isEntry, Bool.and_eq_true, Bool.not_eq_true', beq_iff_eq, bne_iff_ne,
    decide_eq_true_iff] at h
  obtain ⟨⟨⟨⟨husable, hrelative⟩, hsteps⟩, hup⟩, hshort⟩ := h
  have hstay : ¬ Path.staysPut name = true := by
    have hnot := List.head_dropWhile_not Path.staysPut (by rw [hsteps]; exact List.cons_ne_nil _ _)
    simpa [hsteps] using hnot
  have hnone : (blank base medium).node? ([base] ++ [name]) = none := by
    simp [blank, node?]
  have hstart : (blank base medium).start path = [base] := by
    rw [start, hrelative]
    rfl
  rw [place?, if_pos husable, hstart, ← walk_dropWhile, hsteps, walk, if_neg hstay, if_neg hup,
    if_neg (Nat.not_lt.mpr hshort)]
  simp only [hnone]
  rfl

theorem isPresent_blank {path name : String} (h : Path.isEntry path name = true)
    (base : String) (medium : Medium) : (blank base medium).isPresent path = false := by
  rw [isPresent, find?, place?_blank h]
  rfl

/-- A free place stays free when a file is made at another one. -/
theorem place?_put_of_free (h : t.place? true path = some (.free l))
    (hother : t.place? true other = some (.free m)) (hne : m ≠ l) (content : ByteArray) :
    (t.put l (.file content)).place? true other = some (.free m) := by
  obtain ⟨htop, hnone⟩ := node?_of_place?_free h
  rw [place?_put_file ⟨htop, .inl hnone⟩, hother, Option.map_some]
  show some (if m = l then Place.present m else Place.free m) = _
  rw [if_neg hne]

end Tree
end ChangeImpact
