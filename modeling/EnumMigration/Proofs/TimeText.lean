import EnumMigration.Time.Rfc3339
import EnumMigration.Proofs.Codecs

/-!
# Timestamps are read as they were written

Writing gives every part of a moment its full width, and the places of the second in
groups of three.  Reading accepts much more, but what was written it reads part by part:
a number ends where its width ends, no blank is there to be skipped, and the zone
moves nothing.

Only years of four digits are considered.
-/

namespace EnumMigration

open Json

/-! ## Numbers of a fixed width -/

theorem length_padded {width n : Nat} (hpos : 0 < width) (hn : n < Nat.pow 10 width) :
    (padded width n).length = width := by
  have hlength : (Nat.toDigits 10 n).length ≤ width :=
    (Nat.length_toDigits_le_iff (by decide) hpos).mpr hn
  simp only [padded, List.length_append, List.length_replicate]
  omega

theorem isDigit_of_mem_padded {width n : Nat} : ∀ c ∈ padded width n, c.isDigit = true := by
  intro c hc
  rcases List.mem_append.mp hc with hzero | hdigit
  · rw [List.eq_of_mem_replicate hzero]
    rfl
  · exact Nat.isDigit_of_mem_toDigits (by decide) (by decide) hdigit

theorem digitsValue_padded (width n : Nat) : digitsValue (padded width n) = n := by
  rw [digitsValue_eq, padded, Nat.ofDigitChars_append, Nat.ofDigitChars_replicate_zero,
    Nat.mul_zero]
  exact Nat.ofDigitChars_ten_toDigits

theorem exists_padded_eq_cons (width n : Nat) :
    ∃ c tail, padded width n = c :: tail ∧ c.isDigit = true := by
  cases hpadded : padded width n with
  | nil => exact absurd (List.append_eq_nil_iff.mp hpadded).2 Nat.toDigits_ne_nil
  | cons c tail =>
      exact ⟨c, tail, rfl, isDigit_of_mem_padded c (hpadded ▸ List.mem_cons_self ..)⟩

theorem isBlank_of_isDigit {c : Char} (hc : c.isDigit = true) : isBlank c = false := by
  have hrange : 48 ≤ c.toNat ∧ c.toNat ≤ 57 := Char.isDigit_iff_toNat.mp hc
  simp only [isBlank, Bool.or_eq_false_iff, Bool.and_eq_false_iff, decide_eq_false_iff_not,
    beq_eq_false_iff_ne]
  omega

/-- Nothing is trimmed before a digit. -/
theorem trimStart_padded (width n : Nat) (rest : List Char) :
    trimStart (padded width n ++ rest) = padded width n ++ rest := by
  obtain ⟨c, tail, hpadded, hc⟩ := exists_padded_eq_cons width n
  rw [hpadded, List.cons_append, trimStart, List.dropWhile_cons, isBlank_of_isDigit hc]
  rfl

namespace Time

/-- A number is read up to its width, or up to where its digits end. -/
theorem number_padded {width limit n : Nat} (hpos : 0 < width) (hwidth : width ≤ 9)
    (hn : n < Nat.pow 10 width) (hlimit : width ≤ limit) {rest : List Char}
    (hstop : (rest.take (limit - width)).takeWhile Char.isDigit = []) :
    number limit (padded width n ++ rest) = .ok (n, rest) := by
  have hlength := length_padded hpos hn
  have hbound : n < Nat.pow 2 63 :=
    Nat.lt_trans (Nat.lt_of_lt_of_le hn (Nat.pow_le_pow_right (by decide) hwidth)) (by decide)
  have hdigits : ((padded width n ++ rest).take limit).takeWhile Char.isDigit = padded width n := by
    rw [List.take_append, List.take_of_length_le (by omega), hlength,
      List.takeWhile_append_of_pos isDigit_of_mem_padded, hstop, List.append_nil]
  have hrest : (padded width n ++ rest).drop (padded width n).length = rest := List.drop_left
  obtain ⟨c, tail, hpadded, hc⟩ := exists_padded_eq_cons width n
  rw [hpadded, List.cons_append] at hdigits hrest ⊢
  simp only [number, hc, if_true, hdigits, hrest]
  rw [← hpadded, digitsValue_padded, if_pos hbound]

theorem part_padded {least greatest n : Nat} (hn : n < Nat.pow 10 2) (hleast : least ≤ n)
    (hgreatest : n ≤ greatest) (rest : List Char) :
    part least greatest (padded 2 n ++ rest) = .ok (n, rest) := by
  have hnumber : number 2 (padded 2 n ++ rest) = .ok (n, rest) :=
    number_padded (by decide) (by decide) hn (Nat.le_refl 2) rfl
  unfold part
  rw [trimStart_padded, hnumber]
  exact if_pos ⟨hleast, hgreatest⟩

theorem mark_cons {c : Char} (hc : isBlank c = false) (rest : List Char) :
    mark c (c :: rest) = .ok ((), rest) := by
  unfold mark
  rw [trimStart, List.dropWhile_cons, hc]
  exact if_pos rfl

theorem year_yearText {value : Int} (hleast : 0 ≤ value) (hgreatest : value ≤ 9999)
    (rest : List Char) : year (yearText value ++ rest) = .ok (value, rest) := by
  have hnumber : number 4 (padded 4 value.toNat ++ rest) = .ok (value.toNat, rest) :=
    number_padded (by decide) (by decide) (show value.toNat < 10000 by omega) (Nat.le_refl 4) rfl
  have hvalue : ((value.toNat : Nat) : Int) = value := Int.toNat_of_nonneg hleast
  have hbounds : -Int.pow 2 31 ≤ value ∧ value < Int.pow 2 31 := by
    have hpow : Int.pow 2 31 = 2147483648 := rfl
    omega
  obtain ⟨c, tail, hpadded, hc⟩ := exists_padded_eq_cons 4 value.toNat
  have hsign : ∀ sign : Char, sign.isDigit = false →
      ∀ behind, padded 4 value.toNat ++ rest ≠ sign :: behind := by
    intro sign hsign behind heq
    rw [hpadded, List.cons_append] at heq
    rw [(List.cons.inj heq).1, hsign] at hc
    cases hc
  unfold year
  rw [yearText, if_pos ⟨hleast, hgreatest⟩, trimStart_padded]
  split
  · exact absurd ‹_› (hsign '-' rfl _)
  · exact absurd ‹_› (hsign '+' rfl _)
  · simp only [hnumber, bind, Except.bind, hvalue]
    exact if_pos hbounds

theorem fraction_fractionText {nano : Nat} (hnano : nano < Nat.pow 10 9) :
    fraction (fractionText nano ++ ['Z']) = .ok (nano, ['Z']) := by
  -- the places that are left out are zeros
  have hplaces {width n : Nat} (hpos : 0 < width) (hwidth : width ≤ 9) (hn : n < Nat.pow 10 width) :
      fraction ('.' :: padded width n ++ ['Z']) = .ok (n * Nat.pow 10 (9 - width), ['Z']) := by
    have hstop : (['Z'].take (9 - width)).takeWhile Char.isDigit = [] := by
      cases 9 - width <;> rfl
    have hread := number_padded hpos hwidth hn hwidth hstop
    have hlength : (padded width n ++ ['Z']).length - ['Z'].length = width := by
      rw [List.length_append, Nat.add_sub_cancel, length_padded hpos hn]
    simp only [List.cons_append, fraction]
    rw [hread]
    show Except.ok (n * Nat.pow 10 (9 - ((padded width n ++ ['Z']).length - ['Z'].length)), _) = _
    rw [hlength]
    rfl
  have hmillis : nano / Nat.pow 10 6 < Nat.pow 10 3 :=
    Nat.div_lt_of_lt_mul (show nano < Nat.pow 10 6 * Nat.pow 10 3 from hnano)
  have hmicros : nano / Nat.pow 10 3 < Nat.pow 10 6 :=
    Nat.div_lt_of_lt_mul (show nano < Nat.pow 10 3 * Nat.pow 10 6 from hnano)
  unfold fractionText
  split
  · rename_i hzero
    rw [hzero]
    rfl
  · split
    · rename_i hzeros
      rw [hplaces (by decide) (by decide) hmillis]
      congr 2
      exact Nat.div_mul_cancel (Nat.dvd_of_mod_eq_zero hzeros)
    · split
      · rename_i hzeros
        rw [hplaces (by decide) (by decide) hmicros]
        congr 2
        exact Nat.div_mul_cancel (Nat.dvd_of_mod_eq_zero hzeros)
      · rw [hplaces (by decide) (by decide) hnano]
        congr 2
        exact Nat.mul_one nano

end Time

theorem Moment.minutesEarlier_zero {moment : Moment} (hhour : moment.hour < 24)
    (hminute : moment.minute < 60) : moment.minutesEarlier 0 = moment := by
  obtain ⟨year, month, day, hour, minute, second, nano⟩ := moment
  simp only at hhour hminute
  have htotal : (60 * (hour : Int) + minute - 0) % 1440 = 60 * hour + minute := by omega
  have hhours : ((60 * (hour : Int) + minute) / 60).toNat = hour := by omega
  have hminutes : ((60 * (hour : Int) + minute) % 60).toNat = minute := by omega
  have hearly : ¬ (60 * (hour : Int) + minute - 0 < 0) := by omega
  have hlate : ¬ (1440 ≤ 60 * (hour : Int) + minute - 0) := by omega
  unfold minutesEarlier
  simp only [htotal, hhours, hminutes, if_neg hearly, if_neg hlate]

theorem Time.moment_text {moment : Moment} (hvalid : moment.Valid) (hleast : 0 ≤ moment.year)
    (hgreatest : moment.year ≤ 9999) : Time.moment moment.text = .ok ((moment, 0), []) := by
  obtain ⟨hmonth, hday, hhour, hminute, hsecond, hnano⟩ := hvalid
  have hdays : moment.day ≤ 31 := by
    refine Nat.le_trans hday.2 ?_
    unfold daysInMonth
    split
    · split <;> decide
    · split <;> decide
  have hpow : Nat.pow 10 2 = 100 := rfl
  have htext : moment.text = yearText moment.year ++ '-' :: (padded 2 moment.month ++
      '-' :: (padded 2 moment.day ++ 'T' :: (padded 2 moment.hour ++
        ':' :: (padded 2 moment.minute ++ ':' :: (padded 2 moment.second ++
          (fractionText moment.nano ++ ['Z'])))))) := by
    simp [Moment.text]
  rw [htext]
  have hdash (rest : List Char) : Time.mark '-' ('-' :: rest) = .ok ((), rest) :=
    Time.mark_cons rfl rest
  have hcolon (rest : List Char) : Time.mark ':' (':' :: rest) = .ok ((), rest) :=
    Time.mark_cons rfl rest
  have hdayMark (rest : List Char) : Time.dayMark ('T' :: rest) = .ok ((), rest) := by
    rw [Time.dayMark, if_pos (.inl rfl)]
  have hyearPart := Time.year_yearText hleast hgreatest
  have hmonthPart := Time.part_padded (n := moment.month) (by omega) hmonth.1 hmonth.2
  have hdayPart := Time.part_padded (n := moment.day) (by omega) hday.1 hdays
  have hhourPart := Time.part_padded (n := moment.hour) (by omega) (Nat.zero_le _)
    (Nat.le_of_lt_succ hhour)
  have hminutePart := Time.part_padded (n := moment.minute) (by omega) (Nat.zero_le _)
    (Nat.le_of_lt_succ hminute)
  have hsecondPart := Time.part_padded (n := moment.second) (by omega) (Nat.zero_le _) hsecond
  have hnanoPart := Time.fraction_fractionText hnano
  have hzone : Time.zone (trimStart ['Z']) = .ok (0, []) := rfl
  simp only [Time.moment, bind, Except.bind, hyearPart, hdash, hmonthPart, hdayPart, hdayMark,
    hhourPart, hcolon, hminutePart, hsecondPart, hnanoPart, hzone]

/-- A timestamp of a year of four digits is read as it was written. -/
theorem Timestamp.read_text (timestamp : Timestamp) (hleast : 0 ≤ timestamp.year)
    (hgreatest : timestamp.year ≤ 9999) :
    read (String.ofList timestamp.toMoment.text) = .ok timestamp := by
  have hmoment := Time.moment_text timestamp.valid hleast hgreatest
  have hyear : Time.isYear timestamp.year := ⟨by omega, by omega⟩
  obtain ⟨moment, hvalid⟩ := timestamp
  have hutc : moment.minutesEarlier 0 = moment :=
    Moment.minutesEarlier_zero hvalid.2.2.1 hvalid.2.2.2.1
  have hblank : isBlankText [] = true := rfl
  have hzone : ¬ ¬ (0 : Int).natAbs < 1440 := by decide
  simp only at hmoment hyear
  simp only [read, String.toList_ofList, hmoment, bind, Except.bind, hblank, hyear, hvalid, hutc,
    hzone, decide_true, Bool.and_self, Bool.not_true, Bool.false_eq_true, if_false, and_self,
    dif_pos]

theorem Timestamp.keeps_codec (timestamp : Timestamp) (hleast : 0 ≤ timestamp.year)
    (hgreatest : timestamp.year ≤ 9999) : codec.Keeps timestamp := by
  refine ⟨fun rest => ?_, joins_singleton ⟨_, rfl⟩, _, [], rfl, rfl⟩
  have hread := timestamp.read_text hleast hgreatest
  simp only [codec, List.cons_append, List.nil_append, Decoder.stringAs, hread]

end EnumMigration
