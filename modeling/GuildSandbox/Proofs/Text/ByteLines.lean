import GuildSandbox.Proofs.Text.ByteOrder

set_option autoImplicit false
set_option relaxedAutoImplicit false

namespace GuildSandbox.Text

def lineFeed : UInt8 := 10

def ofBytes? (b : List UInt8) : Option String := String.fromUTF8? b.toByteArray

theorem bytes_append (s t : String) : bytes (s ++ t) = bytes s ++ bytes t := by
  simp [bytes_eq]

private theorem toByteArray_bytes (s : String) : (bytes s).toByteArray = s.toByteArray := by
  rw [bytes_eq]
  change s.toList.utf8Encode = s.toByteArray
  rw [← String.toByteArray_ofList, String.ofList_toList]

theorem bytes_injective {s t : String} (same : bytes s = bytes t) : s = t := by
  rw [← String.toByteArray_inj, ← toByteArray_bytes, same, toByteArray_bytes]

theorem ofBytes?_eq_some_iff {b : List UInt8} {s : String} : ofBytes? b = some s ↔ bytes s = b := by
  unfold ofBytes? String.fromUTF8?
  constructor
  · intro read
    split at read
    · cases read
      change b.toByteArray.data.toList = b
      rw [List.data_toByteArray]
    · cases read
  · rintro rfl
    have valid : (bytes s).toByteArray.IsValidUTF8 := toByteArray_bytes s ▸ s.isValidUTF8
    rw [dif_pos valid, Option.some.injEq, ← String.toByteArray_inj]
    exact toByteArray_bytes s

theorem ofBytes?_bytes (s : String) : ofBytes? (bytes s) = some s := ofBytes?_eq_some_iff.2 rfl

private theorem utf8EncodeChar_cases (c : Char) :
    (String.utf8EncodeChar c = [UInt8.ofNat c.val.toNat] ∧ c.val.toNat < 128) ∨
      ∀ b ∈ String.utf8EncodeChar c, 128 ≤ b.toNat ∧ b.toNat < 248 := by
  simp only [String.utf8EncodeChar]
  generalize c.val.toNat = n
  split_ifs
  · exact .inl ⟨rfl, by omega⟩
  all_goals
    right
    simp only [List.forall_mem_cons, UInt8.toNat_ofNat']
    refine ⟨by omega, ?_⟩
  · exact ⟨by omega, nofun⟩
  · exact ⟨by omega, by omega, nofun⟩
  · exact ⟨by omega, by omega, by omega, nofun⟩

private theorem eq_lf_of_mem {c : Char} (member : lineFeed ∈ String.utf8EncodeChar c) :
    c = '\n' := by
  obtain ⟨single, low⟩ | high := utf8EncodeChar_cases c
  · rw [single, List.mem_singleton] at member
    have value : c.val.toNat = 10 := by
      have same : (10 : Nat) = c.val.toNat % 256 := congrArg UInt8.toNat member
      omega
    exact Char.ext (UInt32.toNat_inj.1 value)
  · exact absurd (high _ member).1 (by decide)

private theorem toNat_lt_of_mem_bytes {s : String} {b : UInt8} (member : b ∈ bytes s) :
    b.toNat < 248 := by
  rw [bytes_eq] at member
  obtain ⟨c, -, member⟩ := List.mem_flatMap.1 member
  obtain ⟨single, low⟩ | high := utf8EncodeChar_cases c
  · rw [single, List.mem_singleton] at member
    rw [member, UInt8.toNat_ofNat']
    omega
  · exact (high b member).2

theorem ofBytes?_eq_none_of_mem {content : List UInt8} {b : UInt8} (member : b ∈ content)
    (high : 248 ≤ b.toNat) : ofBytes? content = none := by
  refine Option.eq_none_iff_forall_ne_some.2 fun s read => ?_
  rw [← ofBytes?_eq_some_iff.1 read] at member
  have low := toNat_lt_of_mem_bytes member
  omega

theorem lineFeed_mem_bytes {s : String} : lineFeed ∈ bytes s ↔ '\n' ∈ s.toList := by
  rw [bytes_eq, List.mem_flatMap]
  constructor
  · rintro ⟨c, there, member⟩
    exact eq_lf_of_mem member ▸ there
  · exact fun there => ⟨'\n', there, by decide⟩

private theorem exists_of_flatMap_eq {cs : List Char} {left right : List UInt8}
    (encoded : cs.flatMap String.utf8EncodeChar = left ++ lineFeed :: right) :
    ∃ before after, before.flatMap String.utf8EncodeChar = left ∧
      after.flatMap String.utf8EncodeChar = right ∧ cs = before ++ '\n' :: after := by
  induction cs generalizing left with
  | nil => simp at encoded
  | cons c rest ih =>
    rw [List.flatMap_cons] at encoded
    obtain ⟨more, rfl, others⟩ | ⟨inner, split, others⟩ := List.append_eq_append_iff.1 encoded
    · obtain ⟨before, after, rfl, rfl, rfl⟩ := ih others
      exact ⟨c :: before, after, List.flatMap_cons, rfl, rfl⟩
    · cases inner with
      | nil =>
        have next : rest.flatMap String.utf8EncodeChar = [] ++ lineFeed :: right := others.symm
        obtain ⟨before, after, nothing, rfl, rfl⟩ := ih next
        refine ⟨c :: before, after, ?_, rfl, rfl⟩
        rw [List.flatMap_cons, nothing, split, List.append_nil, List.append_nil]
      | cons byte inner =>
        obtain ⟨rfl, rfl⟩ := List.cons.inj others
        -- The line feed is in the encoding of this character, which is thus all of it.
        have here : c = '\n' := eq_lf_of_mem (by rw [split]; simp)
        subst here
        have whole : left ++ lineFeed :: inner = [lineFeed] := split.symm
        obtain ⟨rfl, rest⟩ : left = [] ∧ inner = [] := by
          have length := congrArg List.length whole
          simp only [List.length_append, List.length_cons, List.length_nil] at length
          exact ⟨List.length_eq_zero_iff.1 (by omega), List.length_eq_zero_iff.1 (by omega)⟩
        subst rest
        exact ⟨[], _, rfl, rfl, rfl⟩

/-- Bytes with a line feed among them are those of a text when those on both sides are. -/
theorem ofBytes?_append_lf (left right : List UInt8) : ofBytes? (left ++ lineFeed :: right) =
    (ofBytes? left).bind fun before => (ofBytes? right).map fun after => before ++ "\n" ++ after := by
  ext s
  simp only [Option.bind_eq_some_iff, Option.map_eq_some_iff, ofBytes?_eq_some_iff]
  constructor
  · intro encoded
    rw [bytes_eq] at encoded
    obtain ⟨before, after, rfl, rfl, shape⟩ := exists_of_flatMap_eq encoded
    refine ⟨String.ofList before, by rw [bytes_eq, String.toList_ofList], String.ofList after,
      by rw [bytes_eq, String.toList_ofList], ?_⟩
    rw [← String.ofList_toList (s := s), shape, String.ofList_append, String.ofList_cons]
    rw [String.append_assoc]
    rfl
  · rintro ⟨before, rfl, after, rfl, rfl⟩
    rw [bytes_append, bytes_append, List.append_assoc]
    rfl

end GuildSandbox.Text
