import Mathlib.Data.List.TakeWhile
import GuildSandbox.Proofs.Text.Digits
import GuildSandbox.Proofs.Text.Pieces
import GuildSandbox.Proofs.Time.Calendar
import GuildSandbox.Time.Rfc3339

set_option autoImplicit false
set_option relaxedAutoImplicit false

namespace GuildSandbox.Time

def Instant.Valid (t : Instant) : Prop :=
  Instant.inRange t.seconds = true ∧ t.nanos < 2000000000 ∧
    (1000000000 ≤ t.nanos → t.seconds % 60 = 59)

instance (t : Instant) : Decidable t.Valid := by unfold Instant.Valid; infer_instance

private theorem isDigit_of_mem_padded {width n : Nat} {c : Char} (member : c ∈ padded width n) :
    Text.isDigit c = true := by
  rcases List.mem_append.1 member with member | member
  · rw [(List.mem_replicate.1 member).2]
    decide
  · exact Text.isDigit_of_mem_toDigits member

@[simp] theorem digitsValue_padded (width n : Nat) : Text.digitsValue (padded width n) = n := by
  rw [padded, Text.digitsValue_zeros_append, Text.digitsValue_toDigits]

private theorem length_padded {width n : Nat} (positive : 0 < width) (small : n < 10 ^ width) :
    (padded width n).length = width := by
  have digits := Text.length_toDigits_le positive small
  simp only [padded, List.length_append, List.length_replicate]
  omega

private theorem padded_ne_nil (width n : Nat) : padded width n ≠ [] := by
  simp [padded, Nat.toDigits_ne_nil]

private theorem isBlank_of_isDigit {c : Char} (digit : Text.isDigit c = true) :
    Text.isBlank c = false := by
  simp only [Text.isDigit, Bool.and_eq_true, decide_eq_true_eq, Char.le_def, UInt32.le_iff_toNat_le]
    at digit
  have low : 48 ≤ c.toNat := digit.1
  have high : c.toNat ≤ 57 := digit.2
  simp [Text.isBlank, Text.blankRanges]
  omega

private theorem trimStart_digits {ds : List Char} (digits : ∀ c ∈ ds, Text.isDigit c = true)
    (nonempty : ds ≠ []) (rest : List Char) : Text.trimStart (ds ++ rest) = ds ++ rest := by
  obtain ⟨d, ds, rfl⟩ := List.exists_cons_of_ne_nil nonempty
  exact Text.trimStart_cons (isBlank_of_isDigit (digits d List.mem_cons_self)) _

def NoDigit (rest : List Char) : Prop := ∀ c, rest.head? = some c → Text.isDigit c = false

private theorem noDigit_cons {c : Char} (other : Text.isDigit c = false) (rest : List Char) :
    NoDigit (c :: rest) := by
  intro d head
  obtain rfl : c = d := by simpa using head
  exact other

private theorem readNumber_digits {limit : Nat} {ds rest : List Char}
    (digits : ∀ c ∈ ds, Text.isDigit c = true) (nonempty : ds ≠ []) (fits : ds.length ≤ limit)
    (stop : NoDigit rest) :
    readNumber limit (ds ++ rest) = some (Text.digitsValue ds, rest) := by
  have stop : NoDigit (rest.take (limit - ds.length)) := by
    cases limit - ds.length with
    | zero => simp [NoDigit]
    | succ k =>
      cases rest with
      | nil => exact stop
      | cons c rest => exact noDigit_cons (stop c rfl) _
  have taken : ((ds ++ rest).take limit).takeWhile Text.isDigit = ds := by
    rw [List.take_append, List.take_of_length_le fits]
    have whole := Text.span_digits digits stop
    rw [List.span_eq_takeWhile_dropWhile] at whole
    exact congrArg Prod.fst whole
  rw [readNumber, trimStart_digits digits nonempty, taken]
  simp [nonempty]

private theorem readNumber_padded {limit width n : Nat} {rest : List Char}
    (fits : (padded width n).length ≤ limit) (stop : NoDigit rest) :
    readNumber limit (padded width n ++ rest) = some (n, rest) := by
  rw [readNumber_digits (fun _ => isDigit_of_mem_padded) (padded_ne_nil width n) fits stop,
    digitsValue_padded]

private theorem readMark_cons {mark : Char} (visible : Text.isBlank mark = false)
    (rest : List Char) :
    readMark mark (mark :: rest) = some rest := by
  simp [readMark, Text.trimStart_cons visible]

private theorem readNumber_two {n : Nat} (small : n < 100) {c : Char}
    (other : Text.isDigit c = false)
    (rest : List Char) : readNumber 2 (padded 2 n ++ c :: rest) = some (n, c :: rest) :=
  readNumber_padded (Nat.le_of_eq (length_padded (by decide) small)) (noDigit_cons other rest)

private theorem unblanked_padded (width n : Nat) {rest : List Char} (stop : NoDigit rest) :
    readYear.unblanked (padded width n ++ rest) = some (n, rest) := by
  obtain ⟨d, ds, digits⟩ := List.exists_cons_of_ne_nil (padded_ne_nil width n)
  have digit : Text.isDigit d = true :=
    isDigit_of_mem_padded (digits ▸ List.mem_cons_self)
  have first : ((padded width n ++ rest).head?.map Text.isDigit).getD false = true := by
    simp [digits, digit]
  rw [readYear.unblanked, if_pos first]
  exact readNumber_padded (by simp) stop

private theorem readYear_renderYear (year : Int) (rest : List Char) :
    readYear (renderYear year ++ '-' :: rest) = some (year, '-' :: rest) := by
  have stop : NoDigit ('-' :: rest) := noDigit_cons rfl rest
  by_cases plain : 0 ≤ year ∧ year ≤ 9999
  · obtain ⟨d, ds, digits⟩ := List.exists_cons_of_ne_nil (padded_ne_nil 4 year.natAbs)
    have digit : Text.isDigit d = true := isDigit_of_mem_padded (digits ▸ List.mem_cons_self)
    have read : readNumber 4 (d :: (ds ++ '-' :: rest)) = some (year.natAbs, '-' :: rest) := by
      rw [← List.cons_append, ← digits]
      exact readNumber_padded (Nat.le_of_eq (length_padded (by decide) (by omega))) stop
    have start := Text.trimStart_cons (isBlank_of_isDigit digit) (ds ++ '-' :: rest)
    have same : (year.natAbs : Int) = year := by omega
    rw [renderYear, if_pos plain, digits, List.cons_append, readYear, start]
    split
    next text => obtain ⟨rfl, -⟩ := List.cons.inj text; exact absurd digit (by decide)
    next text => obtain ⟨rfl, -⟩ := List.cons.inj text; exact absurd digit (by decide)
    next => simp only [read, Option.map_some, same]
  · rw [renderYear, if_neg plain]
    split
    next negative =>
      have start := Text.trimStart_cons (c := '-') rfl
      have same : -(year.natAbs : Int) = year := by omega
      rw [List.cons_append, readYear, start]
      simp only [unblanked_padded 4 year.natAbs stop, Option.map_some, same]
    next positive =>
      have start := Text.trimStart_cons (c := '+') rfl
      have same : (year.natAbs : Int) = year := by omega
      rw [List.cons_append, readYear, start]
      simp only [unblanked_padded 4 year.natAbs stop, Option.map_some, same]

private theorem readFraction_padded {width n : Nat} (positive : 0 < width) (short : width ≤ 9)
    (small : n < 10 ^ width) {rest : List Char} (stop : NoDigit rest) :
    readFraction ('.' :: padded width n ++ rest) = some (n * 10 ^ (9 - width), rest) := by
  have length := length_padded positive small
  have digits : ∀ c ∈ padded width n, Text.isDigit c = true := fun _ => isDigit_of_mem_padded
  have whole := Text.span_digits digits stop
  rw [List.span_eq_takeWhile_dropWhile] at whole
  have taken : (padded width n ++ rest).takeWhile Text.isDigit = padded width n :=
    congrArg Prod.fst whole
  have kept : (padded width n).take 9 = padded width n := List.take_of_length_le (by omega)
  simp [readFraction, taken, padded_ne_nil, kept, length]

private theorem readFraction_renderFraction {nanos : Nat} (small : nanos < 1000000000) {c : Char}
    (other : Text.isDigit c = false) (point : c ≠ '.') (rest : List Char) :
    readFraction (renderFraction nanos ++ c :: rest) = some (nanos, c :: rest) := by
  have stop : NoDigit (c :: rest) := noDigit_cons other rest
  unfold renderFraction
  split
  next zero => simp [readFraction, point, zero]
  split
  next millis =>
    rw [readFraction_padded (by decide) (by decide) (by omega) stop]
    congr 2
    omega
  split
  next micros =>
    rw [readFraction_padded (by decide) (by decide) (by omega) stop]
    congr 2
    omega
  next => simpa using readFraction_padded (by decide) (Nat.le_refl 9) small stop

private theorem noDigit_renderFraction (nanos : Nat) {rest : List Char} (stop : NoDigit rest) :
    NoDigit (renderFraction nanos ++ rest) := by
  unfold renderFraction
  split
  next => exact stop
  split
  next => exact noDigit_cons rfl _
  split
  next => exact noDigit_cons rfl _
  next => exact noDigit_cons rfl _

private theorem readDate_renderDate {d : Date} (valid : d.Valid) {c : Char}
    (other : Text.isDigit c = false) (rest : List Char) :
    readDate (renderDate d ++ c :: rest) = some (d, c :: rest) := by
  obtain ⟨-, month, -, day⟩ := valid
  have days : daysInMonth d.year d.month ≤ 31 := by
    unfold daysInMonth
    split
    · split <;> decide
    · split <;> decide
  have stop : Text.isDigit '-' = false := rfl
  have dash : ∀ rest, readMark '-' ('-' :: rest) = some rest := readMark_cons rfl
  simp only [readDate, renderDate, List.append_assoc, List.cons_append, readYear_renderYear, dash,
    readNumber_two (show d.month < 100 by omega) stop,
    readNumber_two (show d.day < 100 by omega) other, Option.bind_eq_bind, Option.bind_some]
  rfl

private theorem readClock_renderClock {c : Clock} (valid : c.Valid) {rest : List Char}
    (stop : NoDigit rest) : readClock (renderClock c ++ rest) = some (c, rest) := by
  obtain ⟨hour, minute, second⟩ := valid
  have next : Text.isDigit ':' = false := rfl
  have colon : ∀ rest, readMark ':' (':' :: rest) = some rest := readMark_cons rfl
  have last : readNumber 2 (padded 2 c.second ++ rest) = some (c.second, rest) :=
    readNumber_padded (Nat.le_of_eq (length_padded (by decide) (by omega))) stop
  simp only [readClock, renderClock, List.append_assoc, List.cons_append, colon,
    readNumber_two (show c.hour < 100 by omega) next,
    readNumber_two (show c.minute < 100 by omega) next, last, Option.bind_eq_bind,
    Option.bind_some]
  rfl

private theorem seconds_eq {t : Instant} (valid : t.Valid) :
    t.clock.Valid ∧ t.seconds = t.date.dayNumber * 86400 + t.clock.seconds ∧
      (t.clock.second = 60 ↔ 1000000000 ≤ t.nanos) := by
  obtain ⟨-, -, leapSecond⟩ := valid
  obtain ⟨day, hday⟩ : ∃ day, day = t.seconds.fdiv 86400 := ⟨_, rfl⟩
  obtain ⟨ofDay, hofDay⟩ : ∃ n, n = (t.seconds - day * 86400).toNat := ⟨_, rfl⟩
  have sum : t.seconds = day * 86400 + ofDay ∧ ofDay < 86400 := by
    rw [Int.fdiv_eq_ediv_of_nonneg _ (by decide)] at hday
    omega
  simp only [Instant.clock, Instant.date, ← hday, ← hofDay, Clock.Valid, Clock.seconds,
    dayNumber_ofDayNumber]
  by_cases leap : 1000000000 ≤ t.nanos
  · have final : ofDay % 60 = 59 := by have := leapSecond leap; omega
    simp only [leap, final, Nat.reduceAdd, if_true, and_true]
    omega
  · have early : ofDay % 60 ≠ 60 := by omega
    simp only [leap, if_false, Nat.add_zero, early, and_true]
    omega

private theorem Instant.fraction_lt {t : Instant} (valid : t.Valid) : t.fraction < 1000000000 := by
  have small := valid.2.1
  simp only [Instant.fraction]
  split <;> omega

private theorem Instant.ofFields?_fields {t : Instant} (valid : t.Valid) :
    Instant.ofFields? t.date t.clock t.fraction 0 = some t := by
  obtain ⟨clock, seconds, leap⟩ := seconds_eq valid
  have date : t.date.Valid := valid_ofDayNumber _
  have range : Instant.inRange t.seconds = true := valid.1
  have nanos : (t.fraction + if 1000000000 ≤ t.nanos then 1000000000 else 0) = t.nanos := by
    simp only [Instant.fraction]
    split <;> omega
  simp only [Instant.ofFields?, if_pos (And.intro date clock), ← seconds, Int.sub_zero, range, leap,
    nanos, Bool.and_self, if_true]

theorem Instant.ofText?_toText {t : Instant} (valid : t.Valid) :
    Instant.ofText? t.toText = some t := by
  have letter : Text.isDigit 'T' = false := rfl
  have stop : NoDigit (renderFraction t.fraction ++ ['Z']) :=
    noDigit_renderFraction t.fraction (noDigit_cons rfl [])
  have date : readDate (renderDate t.date ++
      'T' :: (renderClock t.clock ++ (renderFraction t.fraction ++ ['Z']))) = some (t.date, _) :=
    readDate_renderDate (valid_ofDayNumber _) rfl _
  have separator : ∀ rest, readSeparator ('T' :: rest) = some rest := fun _ => rfl
  have clock := readClock_renderClock (seconds_eq valid).1 stop
  have fraction : readFraction (renderFraction t.fraction ++ ['Z']) = some (t.fraction, ['Z']) :=
    readFraction_renderFraction (Instant.fraction_lt valid) rfl (by decide) []
  have zone : readZone (Text.trimStart ['Z']) = some (0, []) := rfl
  have done : (Text.trimStart []).isEmpty = true := rfl
  simp only [Instant.ofText?, Instant.toText, Instant.render, String.toList_ofList,
    List.append_assoc, List.cons_append, date, separator, clock, fraction, zone, done,
    Option.bind_eq_bind, Option.bind_some, if_true, Instant.ofFields?_fields valid]

private theorem readFraction_lt {cs rest : List Char} {nanos : Nat}
    (read : readFraction cs = some (nanos, rest)) : nanos < 1000000000 := by
  unfold readFraction at read
  split at read
  · simp only at read
    split at read
    · cases read
    · rename_i tail _
      obtain ⟨kept, hkept⟩ : ∃ kept, kept = (tail.takeWhile Text.isDigit).take 9 := ⟨_, rfl⟩
      rw [← hkept] at read
      cases read
      have short : kept.length ≤ 9 := hkept ▸ List.length_take_le 9 _
      have digits : ∀ c ∈ kept, Text.isDigit c = true := fun c member =>
        List.mem_takeWhile_imp (List.mem_of_mem_take (hkept ▸ member))
      calc Text.digitsValue kept * Nat.pow 10 (9 - kept.length)
          < 10 ^ kept.length * 10 ^ (9 - kept.length) :=
            Nat.mul_lt_mul_of_pos_right (Text.digitsValue_lt digits) (Nat.pow_pos (by decide))
        _ = 1000000000 := by rw [← Nat.pow_add, Nat.add_sub_cancel' short]
  · cases read
    decide

private theorem readOffset_mod {cs rest : List Char} {offset : Int}
    (read : readOffset cs = some (offset, rest)) : offset % 60 = 0 := by
  unfold readOffset at read
  split at read
  · cases read
    rfl
  · cases read
    rfl
  · split at read
    · split at read
      · split at read
        · simp only at read
          split at read
          · cases read
            split
            all_goals omega
          · cases read
        · cases read
      · cases read
    · cases read
  · cases read

private theorem readZone_mod {cs rest : List Char} {offset : Int}
    (read : readZone cs = some (offset, rest)) : offset % 60 = 0 := by
  unfold readZone at read
  split at read
  · split at read
    · cases read
      rfl
    · exact readOffset_mod read
  · exact readOffset_mod read

private theorem Instant.valid_ofFields? {date : Date} {clock : Clock} {nanos : Nat} {offset : Int}
    {t : Instant} (small : nanos < 1000000000) (minutes : offset % 60 = 0)
    (made : Instant.ofFields? date clock nanos offset = some t) : t.Valid := by
  unfold ofFields? at made
  split at made
  · simp only at made
    split at made
    · rename_i ranges
      cases made
      refine ⟨(Bool.and_eq_true_iff.1 ranges).2, ?_, fun leap => ?_⟩
      · simp only
        split
        all_goals omega
      · simp only at leap ⊢
        split at leap
        · rename_i final
          simp only [Clock.seconds, if_pos final]
          omega
        · omega
    · cases made
  · cases made

theorem Instant.valid_ofText? {text : String} {t : Instant}
    (read : Instant.ofText? text = some t) : t.Valid := by
  simp only [ofText?, Option.bind_eq_bind, Option.bind_eq_some_iff] at read
  obtain ⟨⟨date, _⟩, -, _, -, ⟨clock, _⟩, -, ⟨nanos, _⟩, fraction, ⟨offset, _⟩, zone, read⟩ := read
  split at read
  · exact valid_ofFields? (readFraction_lt fraction) (readZone_mod zone) read
  · cases read

end GuildSandbox.Time
