import Mathlib.Tactic.SplitIfs
import GuildSandbox.Text.Blank

set_option autoImplicit false
set_option relaxedAutoImplicit false

namespace GuildSandbox.Text

def bytes (s : String) : List UInt8 := s.toUTF8.data.toList

theorem bytes_eq (s : String) : bytes s = s.toList.flatMap String.utf8EncodeChar := by
  have encoded : s.toUTF8 = (s.toList.flatMap String.utf8EncodeChar).toByteArray := by
    conv => lhs; rw [← String.ofList_toList (s := s)]
    rfl
  rw [bytes, encoded, List.data_toByteArray]

private theorem cons_lt_cons {a b : Nat} {left right : List UInt8} (small : a < 256 ∧ b < 256)
    (order : a < b ∨ a = b ∧ left < right) :
    UInt8.ofNat a :: left < UInt8.ofNat b :: right := by
  rw [List.cons_lt_cons_iff]
  refine order.imp (fun below => ?_) (fun ⟨same, rest⟩ => ⟨congrArg _ same, rest⟩)
  rw [UInt8.lt_iff_toNat_lt, UInt8.toNat_ofNat', UInt8.toNat_ofNat']
  omega

variable {m n : Nat}

private theorem lastDigit_lt (below : m < n) (same : m / 64 = n / 64) (left right : List UInt8) :
    UInt8.ofNat (m % 64 + 128) :: left < UInt8.ofNat (n % 64 + 128) :: right :=
  cons_lt_cons (by omega) (by omega)

private theorem lastTwoDigits_lt (below : m < n) (same : m / 4096 = n / 4096)
    (left right : List UInt8) :
    UInt8.ofNat (m / 64 % 64 + 128) :: UInt8.ofNat (m % 64 + 128) :: left <
      UInt8.ofNat (n / 64 % 64 + 128) :: UInt8.ofNat (n % 64 + 128) :: right := by
  refine cons_lt_cons (by omega) ?_
  by_cases equal : m / 64 = n / 64
  · exact .inr ⟨by omega, lastDigit_lt below equal left right⟩
  · exact .inl (by omega)

private theorem lastThreeDigits_lt (below : m < n) (same : m / 262144 = n / 262144)
    (left right : List UInt8) :
    UInt8.ofNat (m / 4096 % 64 + 128) :: UInt8.ofNat (m / 64 % 64 + 128) ::
        UInt8.ofNat (m % 64 + 128) :: left <
      UInt8.ofNat (n / 4096 % 64 + 128) :: UInt8.ofNat (n / 64 % 64 + 128) ::
        UInt8.ofNat (n % 64 + 128) :: right := by
  refine cons_lt_cons (by omega) ?_
  by_cases equal : m / 4096 = n / 4096
  · exact .inr ⟨by omega, lastTwoDigits_lt below equal left right⟩
  · exact .inl (by omega)

private theorem utf8EncodeChar_append_lt {c d : Char} (order : c < d) (left right : List UInt8) :
    String.utf8EncodeChar c ++ left < String.utf8EncodeChar d ++ right := by
  have below : c.val.toNat < d.val.toNat := order
  have bound : d.val.toNat < 1114112 := by
    have valid := d.valid
    rcases valid with low | high <;> omega
  simp only [String.utf8EncodeChar]
  generalize c.val.toNat = m at below ⊢
  generalize d.val.toNat = n at below bound ⊢
  split_ifs
  -- A longer encoding begins with a greater byte.
  all_goals try exact cons_lt_cons (by omega) (by omega)
  -- Two that are equally long differ in the first byte, or only in the digits behind it.
  · refine cons_lt_cons (by omega) ?_
    by_cases equal : m / 64 = n / 64
    · exact .inr ⟨by omega, lastDigit_lt below equal left right⟩
    · exact .inl (by omega)
  · refine cons_lt_cons (by omega) ?_
    by_cases equal : m / 4096 = n / 4096
    · exact .inr ⟨by omega, lastTwoDigits_lt below equal left right⟩
    · exact .inl (by omega)
  · refine cons_lt_cons (by omega) ?_
    by_cases equal : m / 262144 = n / 262144
    · exact .inr ⟨by omega, lastThreeDigits_lt below equal left right⟩
    · exact .inl (by omega)

private theorem flatMap_utf8EncodeChar_lt {cs ds : List Char} (order : cs < ds) :
    cs.flatMap String.utf8EncodeChar < ds.flatMap String.utf8EncodeChar := by
  induction order with
  | nil =>
    rename_i d rest
    rw [List.flatMap_nil, List.flatMap_cons]
    cases shape : String.utf8EncodeChar d with
    | nil => exact absurd shape String.utf8EncodeChar_ne_nil
    | cons byte more => exact List.nil_lt_cons ..
  | rel below =>
    rw [List.flatMap_cons, List.flatMap_cons]
    exact utf8EncodeChar_append_lt below _ _
  | cons _ ih =>
    rw [List.flatMap_cons, List.flatMap_cons]
    exact List.append_left_lt ih

theorem bytes_lt {s t : String} (order : s < t) : bytes s < bytes t := by
  rw [bytes_eq, bytes_eq]
  exact flatMap_utf8EncodeChar_lt order

end GuildSandbox.Text
