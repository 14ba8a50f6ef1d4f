import GuildSandbox.Proofs.Number.Length
import GuildSandbox.Proofs.Number.Sum
import GuildSandbox.Proofs.Value.Stored

set_option autoImplicit false
set_option relaxedAutoImplicit false

namespace GuildSandbox

open Json

private theorem utf8ByteSize_ofList_le (cs : List Char) :
    (String.ofList cs).utf8ByteSize ≤ 4 * cs.length := by
  induction cs with
  | nil => exact Nat.le_refl 0
  | cons c cs ih =>
    have split : String.ofList (c :: cs) = String.singleton c ++ String.ofList cs := by
      rw [String.singleton_eq_ofList, ← String.ofList_append]
      rfl
    have here := c.utf8Size_le_four
    rw [split, String.utf8ByteSize_append, String.utf8ByteSize_singleton, List.length_cons]
    omega

namespace Json

private theorem length_renderInt_le (n : Int64) : (renderInt n.toInt).length ≤ 20 := by
  have low := n.le_toInt
  have high := n.toInt_lt
  have digits : (Nat.toDigits 10 n.toInt.natAbs).length ≤ 19 :=
    Text.length_toDigits_le (by decide) (by omega)
  rw [renderInt]
  split
  · rw [List.length_cons]
    omega
  · omega

private theorem length_render_record (tag : String) (n : JsonNumber) :
    (render (TaggedValue.toJson { tag := tag, data := .num n })).length =
      (renderString tag).length + (renderNumber n).length + 17 := by
  have type : (renderString "type").length = 6 := by decide
  have data : (renderString "data").length = 6 := by decide
  simp only [TaggedValue.toJson, render, renderFields, List.length_cons, List.length_append,
    List.length_nil, type, data]
  omega

end Json

namespace Value

theorem toJsonText_float {f : Float} (finite : Number.Binary64.isFinite f = true) :
    toJsonText (.float f) =
      .ok (TaggedValue.toJson { tag := "float", data := .num (.float f finite) }).compact := by
  have number : JsonNumber.ofFloat? f = some (.float f finite) := dif_pos finite
  have shallow : ¬ ValueError.maxDepth < 0 := Nat.not_lt_zero _
  rw [toJsonText, encodeAt, if_neg shallow, finiteNumber, number]
  rfl

theorem utf8ByteSize_number_le {v : Value} {text : String} (written : toJsonText v = .ok text)
    (number : (∃ n, v = .int n) ∨ ∃ f, v = .float f) : text.utf8ByteSize ≤ 6000 := by
  have tags : (renderString "int").length = 5 ∧ (renderString "float").length = 7 := by decide
  rcases number with ⟨n, rfl⟩ | ⟨f, rfl⟩
  · cases written
    have digits := length_renderInt_le n
    have bytes := utf8ByteSize_ofList_le
      (render (TaggedValue.toJson { tag := "int", data := .int64 n }))
    rw [Json.int64, length_render_record, tags.1] at bytes
    refine Nat.le_trans bytes ?_
    change 4 * (5 + (renderInt n.toInt).length + 17) ≤ 6000
    omega
  · have finite : Number.Binary64.isFinite f = true :=
      (storable_of_toJsonText (v := .float f) trivial written).1
    cases (toJsonText_float finite).symm.trans written
    have digits := Number.length_writeFloat_le f
    have bytes := utf8ByteSize_ofList_le
      (render (TaggedValue.toJson { tag := "float", data := .num (.float f finite) }))
    rw [length_render_record, tags.2] at bytes
    refine Nat.le_trans bytes ?_
    change 4 * (7 + (Number.writeFloat floatLayout f).length + 17) ≤ 6000
    omega

end Value

end GuildSandbox
