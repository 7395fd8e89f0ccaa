import RemoteGuard.Proofs.Text.Decimal
import RemoteGuard.Timestamp

/-!
# The written form of a timestamp

`Timestamp.Written` are the figures that a timestamp is written with, and `Written.IsText p cs` is
that `cs` is a text of them: `YYYY-MM-DD`, one ASCII character, `hh:mm:ss`, a fraction or none, and
an offset.  `Written.InCalendar` is that there is such a date and such a time of the day.

* `takeFraction_eq_some_iff`, `takeOffset_eq_some_iff`   the parts that have more than one form;
* `read?_eq_some_iff`   what is read: the texts of figures in the calendar, as their point in time.
-/

namespace RemoteGuard.Timestamp
open Text

/-! ## the format -/

/-- a number written with so many digits -/
def IsFigure (width n : Nat) (cs : List Char) : Prop :=
  cs.length = width ∧ IsNumeral cs ∧ decimalValue cs = n

/-- the fraction that digits after a point stand for, of which nine count -/
def nanosecondsOf (ds : List Char) : Nat := decimalValue (ds.take 9) * 10 ^ (9 - ds.length)

def IsFraction (n : Nat) (cs : List Char) : Prop :=
  cs = [] ∧ n = 0 ∨ ∃ ds, cs = '.' :: ds ∧ IsNumeral ds ∧ nanosecondsOf ds = n

/-- hours and minutes, in seconds -/
def IsShift (n : Int) (cs : List Char) : Prop :=
  ∃ hh mm hours minutes, cs = hh ++ ':' :: mm ∧ IsFigure 2 hours hh ∧ hours ≤ 23 ∧
    IsFigure 2 minutes mm ∧ minutes ≤ 59 ∧ ((hours * 3600 + minutes * 60 : Nat) : Int) = n

def IsOffset (n : Int) (cs : List Char) : Prop :=
  (cs = ['Z'] ∨ cs = ['z']) ∧ n = 0 ∨
  (∃ shift, cs = '+' :: shift ∧ IsShift n shift) ∨ ∃ shift, cs = '-' :: shift ∧ IsShift (-n) shift

/-- the figures of a date, of a time of the day, and of an offset from UTC -/
structure Written where
  year : Nat
  month : Nat
  day : Nat
  hour : Nat
  minute : Nat
  second : Nat
  nanoseconds : Nat
  offset : Int

namespace Written

def IsText (p : Written) (cs : List Char) : Prop :=
  ∃ year month day separator hour minute second fraction offset,
    cs = year ++ '-' :: (month ++ '-' :: (day ++ separator ::
      (hour ++ ':' :: (minute ++ ':' :: (second ++ (fraction ++ offset)))))) ∧
    IsFigure 4 p.year year ∧ IsFigure 2 p.month month ∧ IsFigure 2 p.day day ∧
    separator.toNat < 0x80 ∧ IsFigure 2 p.hour hour ∧ IsFigure 2 p.minute minute ∧
    IsFigure 2 p.second second ∧ IsFraction p.nanoseconds fraction ∧ IsOffset p.offset offset

/-- seconds since the epoch; a leap second stands for the one before it -/
def unixSeconds (p : Written) : Int :=
  dayNumber p.year p.month p.day * secondsPerDay
    + (p.hour * 3600 + p.minute * 60 + min p.second 59 : Nat) - p.offset

structure InCalendar (p : Written) : Prop where
  month : 1 ≤ p.month ∧ p.month ≤ 12
  day : 1 ≤ p.day ∧ p.day ≤ daysInMonth p.year p.month
  hour : p.hour ≤ 23
  minute : p.minute ≤ 59
  second : p.second ≤ 60
  leap : p.second = 60 → endsSomeMonth p.year p.month p.unixSeconds = true

def timestamp (p : Written) : Timestamp :=
  ⟨p.unixSeconds, if p.second = 60 then 999999999 else p.nanoseconds, p.offset⟩

end Written

/-! ## figures and signs -/

theorem takeDigits_eq_some_iff {width n : Nat} {cs rest : List Char} :
    takeDigits width cs = some (n, rest) ↔ ∃ ds, cs = ds ++ rest ∧ IsFigure width n ds := by
  rw [takeDigits]
  constructor
  · intro h
    split at h
    · next hwidth =>
      obtain ⟨_, hvalue, he⟩ := Option.map_eq_some_iff.mp h
      cases he
      exact ⟨cs.take width, (List.take_append_drop width cs).symm, hwidth,
        decimal?_eq_some_iff.mp hvalue⟩
    · cases h
  · rintro ⟨ds, rfl, rfl, hds⟩
    rw [List.take_left, List.drop_left, if_pos rfl, decimal?_eq_some_iff.mpr hds]
    rfl

theorem takePair_eq_some_iff {low high n : Nat} {cs rest : List Char} :
    takePair low high cs = some (n, rest) ↔
      ∃ ds, cs = ds ++ rest ∧ IsFigure 2 n ds ∧ low ≤ n ∧ n ≤ high := by
  simp only [takePair, Option.bind_eq_bind, Option.bind_eq_some_iff, Prod.exists,
    takeDigits_eq_some_iff, Option.ite_none_right_eq_some, Option.some_inj, Prod.mk.injEq]
  constructor
  · rintro ⟨_, _, ⟨ds, hcs, hds⟩, hrange, rfl, rfl⟩
    exact ⟨ds, hcs, hds, hrange⟩
  · rintro ⟨ds, hcs, hds, hrange⟩
    exact ⟨n, rest, ⟨ds, hcs, hds⟩, hrange, rfl, rfl⟩

theorem takeChar_eq_some_iff {c : Char} {cs rest : List Char} :
    takeChar c cs = some rest ↔ cs = c :: rest := by
  cases cs with
  | nil => simp [takeChar]
  | cons d cs =>
    rw [takeChar, Option.ite_none_right_eq_some, Option.some_inj, List.cons.injEq,
      eq_comm (a := c)]

theorem takeSeparator_eq_some_iff {cs rest : List Char} :
    takeSeparator cs = some rest ↔ ∃ c, cs = c :: rest ∧ c.toNat < 0x80 := by
  cases cs with
  | nil => simp [takeSeparator]
  | cons c cs =>
    rw [takeSeparator, Option.ite_none_right_eq_some, Option.some_inj]
    constructor
    · rintro ⟨hascii, rfl⟩
      exact ⟨c, rfl, hascii⟩
    · rintro ⟨d, he, hascii⟩
      cases he
      exact ⟨hascii, rfl⟩

/-! ## fractions -/

/-- what the first of so many digits weighs, where digits beyond them weigh nothing -/
def weight : Nat → Nat
  | 0 => 0
  | n + 1 => 10 ^ n

theorem weight_div (n : Nat) : weight (n + 1) / 10 = weight n := by
  cases n with
  | zero => rfl
  | succ n => exact Nat.mul_div_cancel (10 ^ n) (by decide)

theorem fractionFrom_append {digits rest : List Char} (hdigits : ∀ c ∈ digits, IsDigit c)
    (hrest : ∀ c ∈ rest.head?, ¬ IsDigit c) (count total : Nat) :
    fractionFrom (weight count) total (digits ++ rest)
      = (total + decimalValue (digits.take count) * 10 ^ (count - digits.length), rest) := by
  induction digits generalizing count total with
  | nil =>
    have hzero : total = total + decimalValue (List.take count []) * 10 ^ (count - 0) := by
      simp [decimalValue, valueFrom]
    cases rest with
    | nil => exact Prod.ext hzero rfl
    | cons c rest =>
      have hc : digit? c = none := if_neg (hrest c rfl)
      rw [List.nil_append, fractionFrom, hc]
      exact Prod.ext hzero rfl
  | cons c digits ih =>
    obtain ⟨hc, hdigits⟩ := List.forall_mem_cons.mp hdigits
    have hd : digit? c = some (digitValue c) := digit?_eq_some_iff.mpr ⟨hc, rfl⟩
    rw [List.cons_append, fractionFrom, hd]
    cases count with
    | zero =>
      show fractionFrom (weight 0) (total + digitValue c * 0) (digits ++ rest) = _
      rw [ih hdigits]
      simp [decimalValue, valueFrom]
    | succ count =>
      show fractionFrom (weight (count + 1) / 10) (total + digitValue c * 10 ^ count)
        (digits ++ rest) = _
      rw [weight_div, ih hdigits, List.take_succ_cons, List.length_cons, Nat.add_sub_add_right]
      have hplaces : (digits.take count).length + (count - digits.length) = count := by
        rw [List.length_take]
        omega
      rw [decimalValue_cons, Nat.add_mul, Nat.mul_assoc, ← Nat.pow_add, hplaces, Nat.add_assoc]

theorem takeFraction_point {digits rest : List Char} (hdigits : IsNumeral digits)
    (hrest : ∀ c ∈ rest.head?, ¬ IsDigit c) :
    takeFraction ('.' :: (digits ++ rest)) = some (nanosecondsOf digits, rest) := by
  cases digits with
  | nil => exact absurd rfl hdigits.1
  | cons c digits =>
    have hc : digit? c = some (digitValue c) :=
      digit?_eq_some_iff.mpr ⟨hdigits.2 c List.mem_cons_self, rfl⟩
    show (if (digit? c).isSome = true then
      some (fractionFrom (weight 9) 0 (c :: digits ++ rest)) else none) = _
    rw [hc, fractionFrom_append hdigits.2 hrest, Nat.zero_add]
    rfl

theorem takeFraction_of_no_point {cs : List Char} (h : ∀ c ∈ cs.head?, c ≠ '.') :
    takeFraction cs = some (0, cs) := by
  fun_cases takeFraction cs with
  | case1 => exact absurd rfl (h '.' rfl)
  | case2 => exact absurd rfl (h '.' rfl)
  | case3 => exact absurd rfl (h '.' rfl)
  | case4 => rfl

theorem takeFraction_of_no_digit {cs : List Char} (h : ∀ c ∈ cs.head?, ¬ IsDigit c) :
    takeFraction ('.' :: cs) = none := by
  cases cs with
  | nil => rfl
  | cons c cs =>
    have hc : digit? c = none := if_neg (h c rfl)
    rw [takeFraction, hc]
    rfl

/-- What follows a fraction begins neither with a digit nor with a point. -/
theorem takeFraction_eq_some_iff {n : Nat} {cs rest : List Char}
    (hrest : ∀ c ∈ rest.head?, ¬ IsDigit c ∧ c ≠ '.') :
    takeFraction cs = some (n, rest) ↔
      ∃ fraction, cs = fraction ++ rest ∧ IsFraction n fraction := by
  constructor
  · intro h
    by_cases hpoint : cs.head? = some '.'
    · obtain ⟨tail, rfl⟩ := List.head?_eq_some_iff.mp hpoint
      obtain ⟨digits, left, rfl, hdigits, hleft⟩ := exists_digits_append tail
      by_cases hnone : digits = []
      · rw [hnone, List.nil_append, takeFraction_of_no_digit hleft] at h
        cases h
      · rw [takeFraction_point ⟨hnone, hdigits⟩ hleft] at h
        cases h
        exact ⟨'.' :: digits, rfl, .inr ⟨digits, rfl, ⟨hnone, hdigits⟩, rfl⟩⟩
    · rw [takeFraction_of_no_point fun c hc e => hpoint (e ▸ hc)] at h
      cases h
      exact ⟨[], rfl, .inl ⟨rfl, rfl⟩⟩
  · rintro ⟨_, rfl, ⟨rfl, rfl⟩ | ⟨digits, rfl, hdigits, rfl⟩⟩
    · exact takeFraction_of_no_point fun c hc => (hrest c hc).2
    · exact takeFraction_point hdigits fun c hc => (hrest c hc).1

/-! ## offsets -/

theorem hoursMinutes_eq_some_iff {n : Int} {cs : List Char} :
    takeOffset.hoursMinutes cs = some (n, []) ↔ IsShift n cs := by
  simp only [takeOffset.hoursMinutes, Option.bind_eq_bind, Option.bind_eq_some_iff, Prod.exists,
    takePair_eq_some_iff, takeChar_eq_some_iff, Option.pure_def, Option.some_inj, Prod.mk.injEq]
  constructor
  · rintro ⟨hours, _, ⟨hh, rfl, hhh, -, hhours⟩, _, rfl, minutes, _, ⟨mm, rfl, hmm, -, hminutes⟩,
      hn, rfl⟩
    exact ⟨hh, mm, hours, minutes, by rw [List.append_nil], hhh, hhours, hmm, hminutes, hn⟩
  · rintro ⟨hh, mm, hours, minutes, rfl, hhh, hhours, hmm, hminutes, hn⟩
    exact ⟨hours, _, ⟨hh, rfl, hhh, Nat.zero_le _, hhours⟩, _, rfl, minutes, [],
      ⟨mm, (List.append_nil mm).symm, hmm, Nat.zero_le _, hminutes⟩, hn, rfl⟩

theorem takeOffset_eq_some_iff {n : Int} {cs : List Char} :
    takeOffset cs = some (n, []) ↔ IsOffset n cs := by
  rw [IsOffset]
  fun_cases takeOffset cs with
  | case1 cs => simp [eq_comm, and_comm]
  | case2 cs => simp [eq_comm, and_comm]
  | case3 cs => simp [hoursMinutes_eq_some_iff]
  | case4 cs =>
    constructor
    · intro h
      obtain ⟨⟨m, rest⟩, hm, he⟩ := Option.map_eq_some_iff.mp h
      cases he
      exact .inr (.inr ⟨cs, rfl, hoursMinutes_eq_some_iff.mp (by rwa [Int.neg_neg])⟩)
    · rintro (⟨h | h, -⟩ | ⟨_, h, -⟩ | ⟨_, h, hshift⟩)
      · cases h
      · cases h
      · cases h
      · cases h
        rw [hoursMinutes_eq_some_iff.mpr hshift]
        show some (- -n, []) = some (n, [])
        rw [Int.neg_neg]
  | case5 cs hZ hz hplus hminus =>
    constructor
    · intro h
      cases h
    · rintro (⟨h | h, -⟩ | ⟨shift, h, -⟩ | ⟨shift, h, -⟩)
      · exact (hZ [] h).elim
      · exact (hz [] h).elim
      · exact (hplus shift h).elim
      · exact (hminus shift h).elim

theorem IsOffset.head {n : Int} {cs : List Char} (h : IsOffset n cs) :
    ∀ c ∈ cs.head?, ¬ IsDigit c ∧ c ≠ '.' := by
  intro c hc
  rcases h with ⟨rfl | rfl, -⟩ | ⟨shift, rfl, -⟩ | ⟨shift, rfl, -⟩
  · cases hc
    decide
  · cases hc
    decide
  · cases hc
    decide
  · cases hc
    decide

/-! ## timestamps -/

theorem Written.timestamp_eq_iff (p : Written) (left : List Char) (t : Timestamp) :
    (if left ≠ [] then none
      else if p.second = 60 then
        if endsSomeMonth p.year p.month p.unixSeconds = true then
          some ⟨p.unixSeconds, 999999999, p.offset⟩
        else none
      else some ⟨p.unixSeconds, p.nanoseconds, p.offset⟩) = some t ↔
    left = [] ∧ (p.second = 60 → endsSomeMonth p.year p.month p.unixSeconds = true) ∧
      p.timestamp = t := by
  rw [Option.ite_none_left_eq_some, not_not, timestamp]
  refine and_congr_right fun _ => ?_
  by_cases hsecond : p.second = 60
  · rw [if_pos hsecond, if_pos hsecond, Option.ite_none_right_eq_some, Option.some_inj]
    simp only [hsecond, true_implies]
  · rw [if_neg hsecond, if_neg hsecond, Option.some_inj]
    simp only [hsecond, false_implies, true_and]

theorem exists_written {s : String} {t : Timestamp} (h : read? s = some t) :
    ∃ p : Written, p.IsText s.toList ∧ p.InCalendar ∧ p.timestamp = t := by
  obtain ⟨⟨year, _⟩, hyear, h⟩ := Option.bind_eq_some_iff.mp h
  obtain ⟨_, hdash, h⟩ := Option.bind_eq_some_iff.mp h
  obtain ⟨⟨month, _⟩, hmonth, h⟩ := Option.bind_eq_some_iff.mp h
  obtain ⟨_, hdash', h⟩ := Option.bind_eq_some_iff.mp h
  obtain ⟨⟨day, _⟩, hday, h⟩ := Option.bind_eq_some_iff.mp h
  obtain ⟨_, hseparator, h⟩ := Option.bind_eq_some_iff.mp h
  obtain ⟨⟨hour, _⟩, hhour, h⟩ := Option.bind_eq_some_iff.mp h
  obtain ⟨_, hcolon, h⟩ := Option.bind_eq_some_iff.mp h
  obtain ⟨⟨minute, _⟩, hminute, h⟩ := Option.bind_eq_some_iff.mp h
  obtain ⟨_, hcolon', h⟩ := Option.bind_eq_some_iff.mp h
  obtain ⟨⟨second, _⟩, hsecond, h⟩ := Option.bind_eq_some_iff.mp h
  obtain ⟨⟨nanoseconds, _⟩, htaken, h⟩ := Option.bind_eq_some_iff.mp h
  obtain ⟨⟨offset, left⟩, hoffset, h⟩ := Option.bind_eq_some_iff.mp h
  let p : Written := ⟨year, month, day, hour, minute, second, nanoseconds, offset⟩
  obtain ⟨rfl, hleap, htime⟩ := (p.timestamp_eq_iff left t).mp h
  have hoffset := takeOffset_eq_some_iff.mp hoffset
  -- the text is put together from its end, where each part is followed by one that is known
  obtain ⟨fraction, rfl, hfraction⟩ := (takeFraction_eq_some_iff hoffset.head).mp htaken
  obtain ⟨ss, rfl, hss, -, hseconds⟩ := takePair_eq_some_iff.mp hsecond
  obtain rfl := takeChar_eq_some_iff.mp hcolon'
  obtain ⟨mi, rfl, hmi, -, hminutes⟩ := takePair_eq_some_iff.mp hminute
  obtain rfl := takeChar_eq_some_iff.mp hcolon
  obtain ⟨hh, rfl, hhh, -, hhours⟩ := takePair_eq_some_iff.mp hhour
  obtain ⟨separator, rfl, hascii⟩ := takeSeparator_eq_some_iff.mp hseparator
  obtain ⟨dd, rfl, hdd, hdays⟩ := takePair_eq_some_iff.mp hday
  obtain rfl := takeChar_eq_some_iff.mp hdash'
  obtain ⟨mm, rfl, hmm, hmonths⟩ := takePair_eq_some_iff.mp hmonth
  obtain rfl := takeChar_eq_some_iff.mp hdash
  obtain ⟨yyyy, hs, hyyyy⟩ := takeDigits_eq_some_iff.mp hyear
  have htext : p.IsText s.toList := ⟨yyyy, mm, dd, separator, hh, mi, ss, fraction, _, hs, hyyyy,
    hmm, hdd, hascii, hhh, hmi, hss, hfraction, hoffset⟩
  exact ⟨p, htext, ⟨hmonths, hdays, hhours, hminutes, hseconds, hleap⟩, htime⟩

theorem read?_of_written {s : String} {p : Written} (hs : p.IsText s.toList) (hp : p.InCalendar) :
    read? s = some p.timestamp := by
  obtain ⟨yyyy, mm, dd, separator, hh, mi, ss, fraction, rest, hs, hyyyy, hmm, hdd, hascii, hhh,
    hmi, hss, hfraction, hoffset⟩ := hs
  have htaken := (takeFraction_eq_some_iff hoffset.head).mpr ⟨fraction, rfl, hfraction⟩
  apply Option.bind_eq_some_iff.mpr ⟨_, takeDigits_eq_some_iff.mpr ⟨yyyy, hs, hyyyy⟩, ?_⟩
  apply Option.bind_eq_some_iff.mpr ⟨_, takeChar_eq_some_iff.mpr rfl, ?_⟩
  apply Option.bind_eq_some_iff.mpr ⟨_, takePair_eq_some_iff.mpr ⟨mm, rfl, hmm, hp.month⟩, ?_⟩
  apply Option.bind_eq_some_iff.mpr ⟨_, takeChar_eq_some_iff.mpr rfl, ?_⟩
  apply Option.bind_eq_some_iff.mpr ⟨_, takePair_eq_some_iff.mpr ⟨dd, rfl, hdd, hp.day⟩, ?_⟩
  apply Option.bind_eq_some_iff.mpr
    ⟨_, takeSeparator_eq_some_iff.mpr ⟨separator, rfl, hascii⟩, ?_⟩
  apply Option.bind_eq_some_iff.mpr
    ⟨_, takePair_eq_some_iff.mpr ⟨hh, rfl, hhh, Nat.zero_le _, hp.hour⟩, ?_⟩
  apply Option.bind_eq_some_iff.mpr ⟨_, takeChar_eq_some_iff.mpr rfl, ?_⟩
  apply Option.bind_eq_some_iff.mpr
    ⟨_, takePair_eq_some_iff.mpr ⟨mi, rfl, hmi, Nat.zero_le _, hp.minute⟩, ?_⟩
  apply Option.bind_eq_some_iff.mpr ⟨_, takeChar_eq_some_iff.mpr rfl, ?_⟩
  apply Option.bind_eq_some_iff.mpr
    ⟨_, takePair_eq_some_iff.mpr ⟨ss, rfl, hss, Nat.zero_le _, hp.second⟩, ?_⟩
  apply Option.bind_eq_some_iff.mpr ⟨_, htaken, ?_⟩
  apply Option.bind_eq_some_iff.mpr ⟨_, takeOffset_eq_some_iff.mpr hoffset, ?_⟩
  exact (p.timestamp_eq_iff [] _).mpr ⟨rfl, hp.leap, rfl⟩

/-- **The texts that are read.**  A text is a timestamp just if it is one of figures that are in the
calendar, and it stands for their point in time. -/
theorem read?_eq_some_iff {s : String} {t : Timestamp} :
    read? s = some t ↔ ∃ p : Written, p.IsText s.toList ∧ p.InCalendar ∧ p.timestamp = t := by
  constructor
  · intro h
    exact exists_written h
  · rintro ⟨p, hs, hp, rfl⟩
    exact read?_of_written hs hp

end RemoteGuard.Timestamp
