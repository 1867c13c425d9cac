/-
Reading no more than a limit allows.

A stream is cut one byte behind the limit, and what is left of it has to be UTF-8 before its
length counts.  `Ends` says how that ends, by the stream and its first bytes, so nothing
behind the cut plays a part.  A stream of UTF-8 that is too long is told apart from a
broken one only where the cut falls between two characters.  Inside a character the cut
leaves bytes that are no UTF-8, and the stream is reported as broken although it is not.
Limits are words of 64 bits; the greatest one has no byte behind it and is left out.
-/
import ChangeImpact.Input

namespace ChangeImpact
namespace Input

variable {stream : ByteArray} {limit : UInt64} {text : String} {n : Nat}

/-! ## UTF-8 -/

theorem fromUTF8?_eq_some_iff : String.fromUTF8? stream = some text ↔ text.toUTF8 = stream := by
  unfold String.fromUTF8?
  constructor
  · intro h
    split at h
    · cases h
      rfl
    · cases h
  · intro h
    subst h
    exact dif_pos text.isValidUTF8

theorem fromUTF8?_eq_none_iff : String.fromUTF8? stream = none ↔ ¬ stream.IsValidUTF8 := by
  unfold String.fromUTF8?
  split
  · next h => simp [h]
  · next h => simp [h]

theorem isValidUTF8_iff_exists : stream.IsValidUTF8 ↔ ∃ text : String, text.toUTF8 = stream :=
  ⟨fun h => ⟨String.fromUTF8 stream h, rfl⟩, fun ⟨text, h⟩ => h ▸ text.isValidUTF8⟩

/-! ## What is taken from a stream -/

/-- The bytes up to the limit, and the one behind it if there is one. -/
def taken (stream : ByteArray) (limit : UInt64) : ByteArray :=
  stream.extract 0 (min stream.size (limit.toNat + 1))

theorem extract_min_size (stream : ByteArray) (n : Nat) :
    stream.extract 0 (min stream.size n) = stream.extract 0 n := by
  rcases Nat.le_total stream.size n with h | h
  · rw [Nat.min_eq_left h, ByteArray.extract_zero_size, ← Nat.max_eq_left h,
      ByteArray.extract_zero_max_size]
  · rw [Nat.min_eq_right h]

theorem taken_eq (stream : ByteArray) (limit : UInt64) :
    taken stream limit = stream.extract 0 (limit.toNat + 1) :=
  extract_min_size stream _

theorem taken_of_size_le (h : stream.size ≤ limit.toNat) : taken stream limit = stream := by
  rw [taken, Nat.min_eq_left (Nat.le_succ_of_le h), ByteArray.extract_zero_size]

theorem lt_size_taken_iff : limit.toNat < (taken stream limit).size ↔ limit.toNat < stream.size := by
  rw [taken, ByteArray.size_extract]
  omega

/-! ## How reading ends -/

/-- How reading a stream ends, by what is taken from it. -/
inductive Ends (stream : ByteArray) (limit : UInt64) : Except Fault String → Prop
  | accepted {text : String} : stream.size ≤ limit.toNat → text.toUTF8 = stream →
      Ends stream limit (.ok text)
  | tooLarge : limit.toNat < stream.size → (taken stream limit).IsValidUTF8 →
      Ends stream limit (.error (.tooLarge limit))
  | notUtf8 : ¬ (taken stream limit).IsValidUTF8 → Ends stream limit (.error .notUtf8)

theorem Ends.unique {r r' : Except Fault String} (h : Ends stream limit r)
    (h' : Ends stream limit r') : r = r' := by
  cases h with
  | accepted hle htext =>
    have hvalid := isValidUTF8_iff_exists.mpr ⟨_, htext⟩
    rw [← taken_of_size_le hle] at hvalid
    cases h' with
    | accepted _ htext' =>
      rw [String.toByteArray_inj.mp (htext.trans htext'.symm)]
    | tooLarge hlong _ => exact absurd hlong (Nat.not_lt.mpr hle)
    | notUtf8 hbroken => exact absurd hvalid hbroken
  | tooLarge hlong hvalid =>
    cases h' with
    | accepted hle _ => exact absurd hlong (Nat.not_lt.mpr hle)
    | tooLarge _ _ => rfl
    | notUtf8 hbroken => exact absurd hvalid hbroken
  | notUtf8 hbroken =>
    cases h' with
    | accepted hle htext =>
      rw [taken_of_size_le hle] at hbroken
      exact absurd (isValidUTF8_iff_exists.mpr ⟨_, htext⟩) hbroken
    | tooLarge _ hvalid => exact absurd hvalid hbroken
    | notUtf8 _ => rfl

section

variable (hlimit : limit.toNat < UInt64.size - 1)
include hlimit

theorem toNat_add_one : (limit + 1).toNat = limit.toNat + 1 := by
  rw [UInt64.toNat_add]
  exact Nat.mod_eq_of_lt (Nat.add_lt_of_lt_sub hlimit)

theorem read_eq_match :
    read stream false limit =
      match String.fromUTF8? (taken stream limit) with
      | none => .error .notUtf8
      | some text =>
        if limit.toNat < text.utf8ByteSize then .error (.tooLarge limit) else .ok text := by
  rw [taken_eq, ← toNat_add_one hlimit]
  rfl

theorem ends_read (stream : ByteArray) : Ends stream limit (read stream false limit) := by
  rw [read_eq_match hlimit]
  split
  · next h => exact .notUtf8 (fromUTF8?_eq_none_iff.mp h)
  · next text h =>
    have htext : text.toUTF8 = taken stream limit := fromUTF8?_eq_some_iff.mp h
    have hsize : text.utf8ByteSize = (taken stream limit).size := by
      rw [← htext]
      rfl
    rw [hsize]
    split
    · next hlong =>
      exact .tooLarge (lt_size_taken_iff.mp hlong) (isValidUTF8_iff_exists.mpr ⟨text, htext⟩)
    · next hshort =>
      have hle : stream.size ≤ limit.toNat := Nat.not_lt.mp (mt lt_size_taken_iff.mpr hshort)
      exact .accepted hle (htext.trans (taken_of_size_le hle))

theorem read_eq_iff_ends {r : Except Fault String} :
    read stream false limit = r ↔ Ends stream limit r :=
  ⟨fun h => h ▸ ends_read hlimit stream, (ends_read hlimit stream).unique⟩

theorem read_eq_ok_iff :
    read stream false limit = .ok text ↔ stream.size ≤ limit.toNat ∧ text.toUTF8 = stream := by
  rw [read_eq_iff_ends hlimit]
  constructor
  · intro h
    cases h with
    | accepted hle htext => exact ⟨hle, htext⟩
  · intro h
    exact .accepted h.1 h.2

theorem exists_read_eq_ok_iff :
    (∃ text, read stream false limit = .ok text) ↔
      stream.size ≤ limit.toNat ∧ stream.IsValidUTF8 := by
  rw [isValidUTF8_iff_exists, ← exists_and_left]
  exact exists_congr fun text => read_eq_ok_iff hlimit

theorem read_eq_notUtf8_iff :
    read stream false limit = .error .notUtf8 ↔ ¬ (taken stream limit).IsValidUTF8 := by
  rw [read_eq_iff_ends hlimit]
  constructor
  · intro h
    cases h with
    | notUtf8 hbroken => exact hbroken
  · exact .notUtf8

theorem read_eq_tooLarge_iff :
    read stream false limit = .error (.tooLarge limit) ↔
      limit.toNat < stream.size ∧ (taken stream limit).IsValidUTF8 := by
  rw [read_eq_iff_ends hlimit]
  constructor
  · intro h
    cases h with
    | tooLarge hlong hvalid => exact ⟨hlong, hvalid⟩
  · intro h
    exact .tooLarge h.1 h.2

theorem eq_notUtf8_or_tooLarge {fault : Fault} (h : read stream false limit = .error fault) :
    fault = .notUtf8 ∨ fault = .tooLarge limit := by
  rw [read_eq_iff_ends hlimit] at h
  cases h with
  | tooLarge _ _ => exact .inr rfl
  | notUtf8 _ => exact .inl rfl

theorem read_eq_of_taken_eq {stream' : ByteArray} (h : taken stream limit = taken stream' limit) :
    read stream false limit = read stream' false limit := by
  rw [read_eq_match hlimit, read_eq_match hlimit, h]

end

/-- A stream is accepted exactly if it is UTF-8 and no longer than the limit, and then the
text has its bytes.  Otherwise its first bytes, up to one behind the limit, tell whether it
is reported as too large or as broken, and whatever follows them does not matter.  Nothing
is read from a terminal. -/
theorem read_outcome :
    (∀ limit : UInt64, limit.toNat < UInt64.size - 1 →
      (∀ stream, (∃ text, read stream false limit = .ok text) ↔
        stream.size ≤ limit.toNat ∧ stream.IsValidUTF8) ∧
      (∀ stream text, read stream false limit = .ok text ↔
        stream.size ≤ limit.toNat ∧ text.toUTF8 = stream) ∧
      (∀ stream, read stream false limit = .error .notUtf8 ↔
        ¬ (stream.extract 0 (min stream.size (limit.toNat + 1))).IsValidUTF8) ∧
      (∀ stream, read stream false limit = .error (.tooLarge limit) ↔
        limit.toNat < stream.size ∧
          (stream.extract 0 (min stream.size (limit.toNat + 1))).IsValidUTF8) ∧
      (∀ stream fault, read stream false limit = .error fault →
        fault = .notUtf8 ∨ fault = .tooLarge limit) ∧
      ∀ stream stream' : ByteArray,
        stream.extract 0 (limit.toNat + 1) = stream'.extract 0 (limit.toNat + 1) →
          read stream false limit = read stream' false limit) ∧
    ∀ stream limit, read stream true limit = .ok "" := by
  refine ⟨fun limit hlimit => ⟨fun stream => exists_read_eq_ok_iff hlimit,
    fun stream text => read_eq_ok_iff hlimit, fun stream => read_eq_notUtf8_iff hlimit,
    fun stream => read_eq_tooLarge_iff hlimit, fun stream fault => eq_notUtf8_or_tooLarge hlimit,
    fun stream stream' h => read_eq_of_taken_eq hlimit ?_⟩, fun stream limit => rfl⟩
  rw [taken_eq, taken_eq, h]

/-- At a limit of two bytes: two characters that fill it, the same with one byte more,
and two streams that part behind the third byte, which begins a character. -/
theorem read_outcome_two :
    (2 : UInt64).toNat < UInt64.size - 1 ∧
      (∃ text, read "é".toUTF8 false 2 = .ok text) ∧
      read "éa".toUTF8 false 2 = .error (.tooLarge 2) ∧
      read (ByteArray.mk #[0x61, 0x62, 0xC3, 0xA9]) false 2 =
        read (ByteArray.mk #[0x61, 0x62, 0xC3, 0xFF, 0xFF]) false 2 ∧
      read (ByteArray.mk #[0x61, 0x62, 0xC3, 0xA9]) false 2 = .error .notUtf8 := by
  have hlimit : (2 : UInt64).toNat < UInt64.size - 1 := by decide
  obtain ⟨hok, -, hbroken, hlarge, -, hsame⟩ := read_outcome.1 2 hlimit
  refine ⟨hlimit, (hok _).mpr ⟨by decide +kernel, String.isValidUTF8 "é"⟩,
    (hlarge _).mpr ⟨by decide +kernel, String.isValidUTF8 "éa"⟩,
    hsame _ _ (by decide +kernel), (hbroken _).mpr (by decide +kernel)⟩

/-! ## Where the cut falls -/

/-- The stream consists of two texts of which the first has `n` bytes. -/
def PartsAt (stream : ByteArray) (n : Nat) : Prop :=
  ∃ front back : String, stream = front.toUTF8 ++ back.toUTF8 ∧ front.toUTF8.size = n

theorem partsAt_iff_isValid : PartsAt text.toUTF8 n ↔ String.Pos.Raw.IsValid text ⟨n⟩ := by
  rw [String.Pos.Raw.isValid_iff_exists_append]
  refine exists_congr fun front => exists_congr fun back => and_congr ?_ ?_
  · show text.toByteArray = front.toByteArray ++ back.toByteArray ↔ _
    rw [← String.toByteArray_append, String.toByteArray_inj]
  · constructor
    · intro h
      exact String.Pos.Raw.ext h.symm
    · intro h
      exact (congrArg String.Pos.Raw.byteIdx h).symm

theorem isValidUTF8_extract_iff_partsAt (h : n ≤ text.toUTF8.size) :
    (text.toUTF8.extract 0 n).IsValidUTF8 ↔ PartsAt text.toUTF8 n := by
  rw [partsAt_iff_isValid, String.Pos.Raw.isValid_iff_isValidUTF8_extract_zero]
  exact (and_iff_right (String.Pos.Raw.le_iff.mpr h)).symm

/-- In UTF-8 one byte tells whether it begins a character. -/
theorem partsAt_iff_isUTF8FirstByte :
    PartsAt text.toUTF8 n ↔ n = text.toUTF8.size ∨
      ∃ h : n < text.toUTF8.size, (text.toUTF8[n]).IsUTF8FirstByte := by
  rw [partsAt_iff_isValid, String.Pos.Raw.isValid_iff_isUTF8FirstByte]
  refine or_congr ?_ Iff.rfl
  constructor
  · intro h
    exact congrArg String.Pos.Raw.byteIdx h
  · intro h
    exact String.Pos.Raw.ext h

theorem isValidUTF8_taken_iff (h : limit.toNat < text.toUTF8.size) :
    (taken text.toUTF8 limit).IsValidUTF8 ↔ PartsAt text.toUTF8 (limit.toNat + 1) := by
  rw [taken_eq]
  exact isValidUTF8_extract_iff_partsAt h

/-- A stream of UTF-8 that is longer than the limit is reported as too large exactly if its
first bytes, up to one behind the limit, are whole characters.  If the cut falls inside a
character, so that the next byte begins none, the stream is reported as broken. -/
theorem read_of_isValidUTF8 (limit : UInt64) (stream : ByteArray)
    (hlimit : limit.toNat < UInt64.size - 1) (hvalid : stream.IsValidUTF8)
    (hlong : limit.toNat < stream.size) :
    (read stream false limit = .error (.tooLarge limit) ↔ PartsAt stream (limit.toNat + 1)) ∧
    (read stream false limit = .error .notUtf8 ↔ ¬ PartsAt stream (limit.toNat + 1)) ∧
    (PartsAt stream (limit.toNat + 1) ↔ limit.toNat + 1 = stream.size ∨
      ∃ h : limit.toNat + 1 < stream.size, (stream[limit.toNat + 1]).IsUTF8FirstByte) := by
  obtain ⟨text, rfl⟩ := isValidUTF8_iff_exists.mp hvalid
  have hcut := isValidUTF8_taken_iff hlong
  rw [read_eq_tooLarge_iff hlimit, read_eq_notUtf8_iff hlimit, hcut]
  exact ⟨and_iff_right hlong, Iff.rfl, partsAt_iff_isUTF8FirstByte⟩

/-- The cut falls between the second character and the third. -/
theorem read_of_isValidUTF8_between :
    "aéb".toUTF8.IsValidUTF8 ∧ (2 : UInt64).toNat < "aéb".toUTF8.size ∧
      PartsAt "aéb".toUTF8 3 ∧ read "aéb".toUTF8 false 2 = .error (.tooLarge 2) := by
  have hlong : (2 : UInt64).toNat < "aéb".toUTF8.size := by decide +kernel
  have hparts : PartsAt "aéb".toUTF8 3 := ⟨"aé", "b", by decide +kernel, by decide +kernel⟩
  have hread := read_of_isValidUTF8 2 "aéb".toUTF8 (by decide) (String.isValidUTF8 "aéb") hlong
  exact ⟨String.isValidUTF8 "aéb", hlong, hparts, hread.1.mpr hparts⟩

/-- The cut falls inside the second character: a text of three bytes at a limit of one. -/
theorem read_cut_character :
    "aé".toUTF8.IsValidUTF8 ∧ (1 : UInt64).toNat < "aé".toUTF8.size ∧
      read "aé".toUTF8 false 1 = .error .notUtf8 ∧
      read "aé".toUTF8 false 1 ≠ .error (.tooLarge 1) := by
  have hread : read "aé".toUTF8 false 1 = .error .notUtf8 :=
    (read_eq_notUtf8_iff (by decide)).mpr (by decide +kernel)
  refine ⟨String.isValidUTF8 "aé", by decide +kernel, hread, ?_⟩
  rw [hread]
  intro h
  cases h

end Input
end ChangeImpact
