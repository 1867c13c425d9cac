/-
What the lines of a text are, seen from the text.

A text that ends in a line feed is cut there, so the lines of two texts put
together are the lines of the first and those of the second.  Every line stands
in the text: at its beginning or right after a line feed.  `NoLineOpens k` says
that `k` stands in neither place; it is kept when texts are put together, so it
can be shown piece by piece.

`unlines` writes lines one below the other, and `lines_unlines` reads them again.  It asks
of each line that it ends where it is ended: no line feed stands in it and no carriage
return at its end.
-/
import Mathlib.Data.List.Chain
import ChangeImpact.Text.Lines

namespace ChangeImpact
namespace Text

theorem lines.go_append_feed (acc a b : List Char) :
    go acc (a ++ '\n' :: b) = go acc (a ++ ['\n']) ++ go [] b := by
  induction a generalizing acc with
  | nil => rfl
  | cons c a ih =>
    rw [List.cons_append, List.cons_append, go, go]
    by_cases hc : c = '\n'
    · rw [if_pos hc, if_pos hc, ih, List.cons_append]
    · rw [if_neg hc, if_neg hc, ih]

theorem lines_append_feed_append (a b : List Char) :
    lines (a ++ '\n' :: b) = lines (a ++ ['\n']) ++ lines b :=
  lines.go_append_feed [] a b

theorem lines.go_of_feed_not_mem {acc l : List Char} (h : '\n' ∉ l)
    (hne : acc.reverse ++ l ≠ []) : go acc l = [acc.reverse ++ l] := by
  induction l generalizing acc with
  | nil =>
    rw [List.append_nil] at hne ⊢
    rw [go, if_neg]
    intro he
    rw [List.isEmpty_iff] at he
    exact hne (List.reverse_eq_nil_iff.mpr he)
  | cons c l ih =>
    have hc : c ≠ '\n' := fun he => h (he ▸ List.mem_cons_self)
    have hl : '\n' ∉ l := fun hm => h (List.mem_cons_of_mem _ hm)
    have hrev : acc.reverse ++ c :: l = (c :: acc).reverse ++ l := by
      rw [List.reverse_cons, List.append_assoc, List.singleton_append]
    rw [go, if_neg hc, hrev]
    exact ih hl (hrev ▸ hne)

theorem lines_of_feed_not_mem {l : List Char} (h : '\n' ∉ l) (hne : l ≠ []) : lines l = [l] :=
  lines.go_of_feed_not_mem h hne

theorem dropReturn_prefix_self (l : List Char) : dropReturn l <+: l := by
  unfold dropReturn
  split
  · exact List.dropLast_prefix l
  · exact List.prefix_rfl

theorem getLast?_append_ne {c : Char} {a b : List Char} (ha : a.getLast? ≠ some c)
    (hb : b.getLast? ≠ some c) : (a ++ b).getLast? ≠ some c := by
  rw [List.getLast?_append]
  cases hl : b.getLast? with
  | none => exact ha
  | some d =>
    rw [hl] at hb
    exact hb

theorem dropReturn_of_getLast? {l : List Char} (h : l.getLast? ≠ some '\r') : dropReturn l = l :=
  if_neg h

theorem lines.mem_go {acc s l : List Char} (h : l ∈ go acc s) :
    l <+: acc.reverse ++ s ∨ '\n' :: l <:+: s := by
  induction s generalizing acc with
  | nil =>
    rw [go] at h
    split at h
    · exact absurd h List.not_mem_nil
    · rw [List.mem_singleton] at h
      rw [h, List.append_nil]
      exact .inl List.prefix_rfl
  | cons c s ih =>
    rw [go] at h
    split at h
    · next hc =>
      rcases List.mem_cons.mp h with hl | hl
      · rw [hl]
        exact .inl ((dropReturn_prefix_self _).trans (List.prefix_append _ _))
      · rw [hc]
        right
        rcases ih hl with hp | hi
        · exact (List.cons_prefix_cons.mpr ⟨rfl, hp⟩).isInfix
        · exact List.infix_cons hi
    · rcases ih h with hp | hi
      · left
        rwa [List.reverse_cons, List.append_assoc, List.singleton_append] at hp
      · exact .inr (List.infix_cons hi)

/-- A line stands at the beginning of the text or right after a line feed. -/
theorem prefix_or_infix_of_mem_lines {s l : List Char} (h : l ∈ lines s) :
    l <+: s ∨ '\n' :: l <:+: s :=
  lines.mem_go h

/-- What stands in front of a text belongs to its first line. -/
theorem exists_lines_append {a s : List Char} (ha : '\n' ∉ a) (hs : '\n' ∈ s) :
    ∃ l, lines (a ++ s) = dropReturn (a ++ l) :: (lines s).tail := by
  obtain ⟨l, r, hsplit, hl⟩ := List.eq_append_cons_of_mem hs
  refine ⟨l, ?_⟩
  have hal : '\n' ∉ a ++ l := by
    rw [List.mem_append, not_or]
    exact ⟨ha, hl⟩
  rw [hsplit, ← List.append_assoc, lines_append_feed hal, lines_append_feed hl, List.tail_cons]

/-! ## How lines begin -/

/-- The character `k` stands neither at the beginning of the text nor after a line feed. -/
def NoLineOpens (k : Char) (s : List Char) : Prop :=
  ('\n' :: s).IsChain fun c d => c = '\n' → d ≠ k

namespace NoLineOpens

variable {k : Char} {a b s l : List Char}

theorem head?_ne (h : NoLineOpens k s) : s.head? ≠ some k := by
  intro hk
  exact (List.isChain_cons.mp h).1 k hk rfl rfl

theorem append (ha : NoLineOpens k a) (hb : NoLineOpens k b) : NoLineOpens k (a ++ b) := by
  show (('\n' :: a) ++ b).IsChain _
  rw [List.isChain_append]
  refine ⟨ha, (List.isChain_cons.mp hb).2, ?_⟩
  intro _ _ d hd _ hk
  exact hb.head?_ne (hk ▸ hd)

theorem of_not_mem (h : k ∉ s) : NoLineOpens k s := by
  unfold NoLineOpens
  rw [List.isChain_cons]
  refine ⟨fun d hd _ hk => h (hk ▸ List.mem_of_mem_head? hd), ?_⟩
  refine (List.pairwise_of_forall_mem_list ?_).isChain
  intro _ _ d hd _ hk
  exact h (hk ▸ hd)

/-- A text of one line that opens with another character. -/
theorem of_line (h : '\n' ∉ s) (hk : s.head? ≠ some k) : NoLineOpens k s := by
  unfold NoLineOpens
  rw [List.isChain_cons]
  refine ⟨fun d hd _ hdk => hk (hdk ▸ hd), ?_⟩
  refine (List.pairwise_of_forall_mem_list ?_).isChain
  intro c hc _ _ hcf
  exact absurd (hcf ▸ hc) h

theorem head?_ne_of_mem_lines (h : NoLineOpens k s) (hl : l ∈ lines s) : l.head? ≠ some k := by
  intro hk
  rcases prefix_or_infix_of_mem_lines hl with hp | hi
  · cases l with
    | nil => cases hk
    | cons c l =>
      obtain ⟨t, rfl⟩ := hp
      exact h.head?_ne hk
  · cases l with
    | nil => cases hk
    | cons c l =>
      have hchain := h.infix (List.infix_cons hi)
      rw [List.isChain_cons] at hchain
      exact hchain.1 c rfl rfl (Option.some.inj hk)

end NoLineOpens

/-! ## Lines put together -/

/-- A line that ends where it is ended. -/
structure IsLine (l : List Char) : Prop where
  feed_not_mem : '\n' ∉ l
  getLast?_ne : l.getLast? ≠ some '\r'

instance (l : List Char) : Decidable (IsLine l) :=
  decidable_of_iff ('\n' ∉ l ∧ l.getLast? ≠ some '\r') ⟨fun h => ⟨h.1, h.2⟩, fun h => ⟨h.1, h.2⟩⟩

theorem IsLine.append {a b : List Char} (ha : IsLine a) (hb : IsLine b) : IsLine (a ++ b) where
  feed_not_mem := by
    rw [List.mem_append, not_or]
    exact ⟨ha.feed_not_mem, hb.feed_not_mem⟩
  getLast?_ne := getLast?_append_ne ha.getLast?_ne hb.getLast?_ne

/-- A line that ends in another one ends as that one does. -/
theorem IsLine.append_of_ne_nil {a b : List Char} (ha : '\n' ∉ a) (hb : IsLine b)
    (hne : b ≠ []) : IsLine (a ++ b) where
  feed_not_mem := by
    rw [List.mem_append, not_or]
    exact ⟨ha, hb.feed_not_mem⟩
  getLast?_ne := by
    rw [List.getLast?_append_of_ne_nil _ hne]
    exact hb.getLast?_ne

/-- The text of lines that are all ended. -/
def unlines (ls : List (List Char)) : List Char :=
  ls.flatMap (· ++ ['\n'])

theorem unlines_nil : unlines [] = [] := rfl

theorem unlines_cons (l : List Char) (ls : List (List Char)) :
    unlines (l :: ls) = l ++ '\n' :: unlines ls := by
  rw [unlines, List.flatMap_cons, List.append_assoc]
  rfl

theorem unlines_append (a b : List (List Char)) : unlines (a ++ b) = unlines a ++ unlines b :=
  List.flatMap_append

theorem toList_join_map {α : Type} {text : α → String} {line : α → List Char}
    (h : ∀ x, (text x).toList = line x ++ ['\n']) (xs : List α) :
    (String.join (xs.map text)).toList = unlines (xs.map line) := by
  rw [String.toList_join, unlines, List.flatMap_map, List.flatMap_map]
  exact List.flatMap_congr fun x _ => h x

theorem lines_unlines_cons {l : List Char} (h : IsLine l) (ls : List (List Char)) :
    lines (unlines (l :: ls)) = l :: lines (unlines ls) := by
  rw [unlines_cons, lines_append_feed h.feed_not_mem, dropReturn_of_getLast? h.getLast?_ne]

theorem lines_unlines {ls : List (List Char)} (h : ∀ l ∈ ls, IsLine l) :
    lines (unlines ls) = ls := by
  induction ls with
  | nil => rfl
  | cons l ls ih =>
    have hls := ih fun k hk => h k (List.mem_cons_of_mem _ hk)
    rw [lines_unlines_cons (h l List.mem_cons_self), hls]

end Text
end ChangeImpact
