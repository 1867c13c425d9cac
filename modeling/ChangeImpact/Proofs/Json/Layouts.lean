/-
The layouts of values.

A layout writes strings as literals and arrays and objects between their brackets, with
one member for each member in the same order.  `IsLayout` says this of every depth, and
both ways of printing a value have it.  What is derived for layouts therefore holds of
the text on one line and of the text over several lines alike.
-/
import ChangeImpact.Proofs.Json.Printed
import ChangeImpact.Proofs.Json.Values

namespace ChangeImpact
namespace Json

/-- `f n j` is a text of the value `j` at depth `n`. -/
structure IsLayout (f : Nat → Json → List Char) : Prop where
  string : ∀ n s, IsLiteral (f n (.string s)) s
  array : ∀ n items, Sequence (fun t j => t = f (n + 1) j) (f n (.array items)) items
  object : ∀ n members,
    Object (f n (.object members)) (members.map fun m => (m.1, f (n + 1) m.2))

/-! ## Joined items -/

section
variable {α : Type} {opening closing : Char} {G : List Char → α → Prop} {w x : List Char}
  {g : α → List Char}

theorem exists_rest_of_intercalate (hw : Blanks w) (hx : Blanks x) {a : α} {as : List α}
    (hG : ∀ b ∈ as, G (g b) b) :
    ∃ u, (',' :: w).intercalate ((a :: as).map g) ++ (x ++ [closing]) = g a ++ u ∧
      Rest closing G u as := by
  induction as generalizing a with
  | nil =>
    refine ⟨x ++ [closing], ?_, .close hx⟩
    rw [List.map_singleton, List.intercalate_singleton]
  | cons b bs ih =>
    -- a comma belongs to the item behind it, so the items move up by one
    obtain ⟨u, hu, hrest⟩ := ih (a := b) fun c hc => hG c (List.mem_cons_of_mem b hc)
    refine ⟨',' :: (w ++ (g b ++ u)), ?_, .next .nil hw (hG b List.mem_cons_self) hrest⟩
    rw [← hu, List.map_cons, List.map_cons, List.intercalate_cons_cons, ← List.map_cons]
    simp only [List.append_assoc, List.cons_append]

/-- Items with commas between them, each behind the blanks `w`, and the blanks `x`
before the closing bracket. -/
theorem bracketed_intercalate (hw : Blanks w) (hx : Blanks x) {a : α} {as : List α}
    (hG : ∀ b ∈ a :: as, G (g b) b) :
    Bracketed opening closing G
      (opening :: (w ++ ((',' :: w).intercalate ((a :: as).map g) ++ (x ++ [closing]))))
      (a :: as) := by
  obtain ⟨u, hu, hrest⟩ := exists_rest_of_intercalate hw hx (a := a)
    fun b hb => hG b (List.mem_cons_of_mem a hb)
  rw [hu]
  exact .items hw (hG a List.mem_cons_self) hrest

/-- Without blanks an empty bracket needs no form of its own. -/
theorem bracketed_intercalate_comma {as : List α} (hG : ∀ a ∈ as, G (g a) a) :
    Bracketed opening closing G (opening :: ([','].intercalate (as.map g) ++ [closing])) as := by
  cases as with
  | nil => exact .empty .nil
  | cons a as => exact bracketed_intercalate .nil .nil hG

end

theorem isMember_literal (key : String) {y : List Char} (hy : Blanks y) (v : List Char) :
    IsMember IsLiteral ((quote key).toList ++ ':' :: (y ++ v)) (key, v) :=
  ⟨(quote key).toList, [], y, isLiteral_quote key, .nil, hy, rfl⟩

/-! ## On one line -/

theorem toList_compact_array (items : List Json) :
    (compact (.array items)).toList =
      '[' :: ([','].intercalate (items.map fun j => j.compact.toList) ++ [']']) := by
  simp [compact, String.toList_intercalate, Function.comp_def]

theorem compact_object (members : List (String × Json)) :
    compact (.object members) =
      "\x7b" ++ ",".intercalate (members.map fun m => quote m.1 ++ ":" ++ m.2.compact) ++
        "\x7d" := by
  rw [compact]
  simp only [List.map_attach_eq_pmap, List.pmap_eq_map]

theorem toList_compact_object (members : List (String × Json)) :
    (compact (.object members)).toList =
      '\x7b' :: ([','].intercalate
        (members.map fun m => (quote m.1).toList ++ ':' :: m.2.compact.toList) ++ ['\x7d']) := by
  simp [compact_object, String.toList_intercalate, Function.comp_def]

theorem isLayout_compact : IsLayout fun _ j => j.compact.toList where
  string _ s := by
    rw [compact]
    exact isLiteral_quote s
  array _ items := by
    rw [toList_compact_array]
    exact bracketed_intercalate_comma fun _ _ => rfl
  object _ members := by
    have hmembers : members.map (fun m => (quote m.1).toList ++ ':' :: m.2.compact.toList) =
        (members.map fun m => (m.1, m.2.compact.toList)).map
          fun m => (quote m.1).toList ++ ':' :: m.2 := by
      rw [List.map_map]
      rfl
    rw [toList_compact_object, hmembers]
    exact bracketed_intercalate_comma fun m _ => isMember_literal m.1 .nil m.2

/-! ## Over several lines -/

theorem blanks_newline (n : Nat) : Blanks (newline n).toList := by
  intro c hc
  rw [newline, String.toList_ofList, List.mem_cons] at hc
  rcases hc with rfl | hc
  · exact .inr (.inr (.inl rfl))
  · exact .inl (List.eq_of_mem_replicate hc)

theorem blanks_space : Blanks [' '] :=
  fun _ hc => .inl (List.mem_singleton.mp hc)

theorem toList_block (n : Nat) (opening closing item : String) (items : List String) :
    (block n opening closing (item :: items)).toList =
      opening.toList ++ ((newline (n + 1)).toList ++
        ((',' :: (newline (n + 1)).toList).intercalate ((item :: items).map String.toList) ++
          ((newline n).toList ++ closing.toList))) := by
  simp [block, String.toList_intercalate]

theorem bracketed_block {α : Type} {G : List Char → α → Prop} {g : α → String}
    {opening closing : String} {o k : Char} (ho : opening.toList = [o])
    (hk : closing.toList = [k]) (n : Nat) {as : List α} (hG : ∀ a ∈ as, G (g a).toList a) :
    Bracketed o k G (block n opening closing (as.map g)).toList as := by
  cases as with
  | nil =>
    rw [List.map_nil, block, String.toList_append, ho, hk]
    exact .empty .nil
  | cons a as =>
    rw [List.map_cons, toList_block, ho, hk, ← List.map_cons, List.map_map]
    exact bracketed_intercalate (blanks_newline (n + 1)) (blanks_newline n) hG

theorem prettyAt_object (n : Nat) (members : List (String × Json)) :
    prettyAt n (.object members) =
      block n "\x7b" "\x7d"
        (members.map fun m => quote m.1 ++ ": " ++ m.2.prettyAt (n + 1)) := by
  rw [prettyAt]
  simp only [List.map_attach_eq_pmap, List.pmap_eq_map]

theorem isLayout_prettyAt : IsLayout fun n j => (j.prettyAt n).toList where
  string n s := by
    rw [prettyAt]
    exact isLiteral_quote s
  array n items := by
    rw [prettyAt]
    exact bracketed_block rfl rfl n fun _ _ => rfl
  object n members := by
    have hmembers : members.map (fun m => quote m.1 ++ ": " ++ m.2.prettyAt (n + 1)) =
        (members.map fun m => (m.1, (m.2.prettyAt (n + 1)).toList)).map
          fun m => quote m.1 ++ ": " ++ String.ofList m.2 := by
      simp only [List.map_map, Function.comp_def, String.ofList_toList]
    rw [prettyAt_object, hmembers]
    refine bracketed_block rfl rfl n fun m _ => ?_
    have htext : (quote m.1 ++ ": " ++ String.ofList m.2).toList =
        (quote m.1).toList ++ ':' :: ([' '] ++ m.2) := by
      simp
    rw [htext]
    exact isMember_literal m.1 blanks_space m.2

/-! ## Items of arrays -/

section
variable {α β : Type} {opening closing : Char} {G : List Char → β → Prop}
  {G' : List Char → α → Prop} {f : α → β}

theorem Rest.of_map (hG : ∀ t a, G t (f a) → G' t a) {t : List Char} {as : List α}
    (h : Rest closing G t (as.map f)) : Rest closing G' t as := by
  induction as generalizing t with
  | nil =>
    cases h with
    | close hw => exact .close hw
  | cons a as ih =>
    cases h with
    | next hv hw ht hu => exact .next hv hw (hG _ a ht) (ih hu)

theorem Bracketed.of_map (hG : ∀ t a, G t (f a) → G' t a) {t : List Char} {as : List α}
    (h : Bracketed opening closing G t (as.map f)) : Bracketed opening closing G' t as := by
  cases as with
  | nil =>
    cases h with
    | empty hw => exact .empty hw
  | cons a as =>
    cases h with
    | items hw ht hu => exact .items hw (hG _ a ht) (hu.of_map hG)

end

end Json
end ChangeImpact
