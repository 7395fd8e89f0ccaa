import RemoteGuard.Json.Fault

/-!
# What is left of a source

A reader takes octets off the front, so wherever it stops it stands at an end of the text.  Every
part of the reader keeps to this (`Reader.EndsIn`), whether it succeeds or fails, and the way out of
an array or object that failed goes on from there:

* `Reader.endsIn_walk`   reading a text;
* `unread_suffix`        so what is left of a source is an end of its text.
-/

namespace RemoteGuard.Json
namespace Reader

/-- the reader stopped at an end of the text -/
def EndsIn (bs : Bytes) : Walk → Prop
  | .ok rest => rest <:+ bs
  | .error p => p.rest <:+ bs

section
variable {bs cs rest : Bytes} {w : Walk}

theorem EndsIn.mono (h : EndsIn bs w) (hs : bs <:+ cs) : EndsIn cs w := by
  cases w with
  | ok rest => exact List.IsSuffix.trans h hs
  | error p => exact List.IsSuffix.trans h hs

/-- octets may be taken first -/
theorem endsIn_of_drop (taken : Nat) (h : EndsIn (bs.drop taken) w) : EndsIn bs w :=
  h.mono (List.drop_suffix taken bs)

theorem endsIn_failPast (f : Fault) (rest : Bytes) : EndsIn rest (failPast f rest) :=
  List.suffix_refl rest

theorem endsIn_failAt (f : Fault) (rest : Bytes) : EndsIn rest (failAt f rest) :=
  List.suffix_refl rest

theorem endsIn_failBefore (f : Fault) (rest : Bytes) : EndsIn rest (failBefore f rest) :=
  List.suffix_refl rest

/-- the end of the text is an end of it -/
theorem endsIn_atEnd (f : Fault) (bs : Bytes) : EndsIn bs (failPast f []) := List.nil_suffix

theorem endsIn_failAtOr (atEnd f : Fault) (rest : Bytes) :
    EndsIn rest (failAtOr atEnd f rest) := by
  rw [failAtOr]
  split
  · exact endsIn_atEnd atEnd rest
  · exact endsIn_failAt f rest

end

/-! ## words, strings, numbers -/

theorem skipSpace_suffix (bs : Bytes) : skipSpace bs <:+ bs := List.dropWhile_suffix isSpace

theorem endsIn_word (word bs : Bytes) : EndsIn bs (walkWord word bs) := by
  fun_induction walkWord word bs with
  | case1 bs => exact List.suffix_refl bs
  | case2 => exact endsIn_atEnd _ _
  | case3 w ws bs ih => exact endsIn_of_drop 1 ih
  | case4 w ws b bs hne => exact endsIn_of_drop 1 (endsIn_failPast _ bs)

theorem endsIn_quote (done rest : Bytes) : EndsIn rest (walkQuote done rest) := by
  rw [walkQuote]
  split
  · exact List.suffix_refl rest
  · exact List.suffix_refl rest

theorem endsIn_string (done bs : Bytes) : EndsIn bs (walkString done bs) := by
  fun_induction walkString done bs with
  | case1 | case8 | case9 | case12 | case14 | case17 => exact endsIn_atEnd _ _
  | case2 => exact endsIn_of_drop 1 (endsIn_quote ..)
  | case3 | case4 => exact endsIn_of_drop 6 (endsIn_failPast ..)
  | case5 | case7 => exact endsIn_of_drop 12 (endsIn_failPast ..)
  | case10 => exact endsIn_of_drop 8 (endsIn_failPast ..)
  | case11 => exact endsIn_of_drop 7 (endsIn_failPast ..)
  | case16 => exact endsIn_of_drop 2 (endsIn_failPast ..)
  | case18 => exact endsIn_of_drop 1 (endsIn_failPast ..)
  -- the string goes on: after a pair of escapes, an escape, a short one, an octet
  | case6 => rename_i ih; exact endsIn_of_drop 12 ih
  | case13 => rename_i ih; exact endsIn_of_drop 6 ih
  | case15 => rename_i ih; exact endsIn_of_drop 2 ih
  | case19 => rename_i ih; exact endsIn_of_drop 1 ih

theorem takeDigits_suffix (done : List Nat) (bs : Bytes) : (takeDigits done bs).2 <:+ bs := by
  fun_induction takeDigits done bs with
  | case1 => exact List.nil_suffix
  | case2 done b rest d hd ih => exact ih.trans (List.suffix_cons b rest)
  | case3 done b rest hd => exact List.suffix_refl _

theorem pastLimit?_suffix {e : Nat} {bs rest : Bytes} (h : pastLimit? e bs = some rest) :
    rest <:+ bs := by
  fun_induction pastLimit? e bs with
  | case1 => cases h
  | case2 => cases h
  | case3 e b bs d hd hlimit =>
    cases h
    exact List.suffix_cons b rest
  | case4 e b bs d hd hlimit ih => exact (ih h).trans (List.suffix_cons b bs)

theorem endsIn_end (m : Numeral) (rest : Bytes) : EndsIn rest (walkEnd m rest) := by
  rw [walkEnd]
  split
  · exact List.suffix_refl rest
  · exact endsIn_failBefore _ rest

theorem endsIn_exponentDigits (m : Numeral) (negative : Bool) (bs : Bytes) :
    EndsIn bs (walkExponentDigits m negative bs) := by
  unfold walkExponentDigits
  split
  · exact endsIn_atEnd _ _
  · next b rest =>
    split
    · exact endsIn_of_drop 1 (endsIn_failPast _ rest)
    · split
      · next rest' hpast =>
        split
        · exact (endsIn_failPast _ rest').mono (pastLimit?_suffix hpast)
        · exact takeDigits_suffix [] (b :: rest)
      · exact (endsIn_end _ _).mono (takeDigits_suffix [] (b :: rest))

theorem endsIn_exponent (m : Numeral) (bs : Bytes) : EndsIn bs (walkExponent m bs) := by
  unfold walkExponent
  split
  · exact endsIn_end m []
  · next b rest =>
    split
    · split
      · exact endsIn_of_drop 2 (endsIn_exponentDigits ..)
      · exact endsIn_of_drop 2 (endsIn_exponentDigits ..)
      · exact endsIn_of_drop 1 (endsIn_exponentDigits ..)
    · exact endsIn_end m (b :: rest)

theorem endsIn_fraction (m : Numeral) (bs : Bytes) : EndsIn bs (walkFraction m bs) := by
  unfold walkFraction
  split
  · next rest =>
    have htaken := takeDigits_suffix [] rest
    refine endsIn_of_drop 1 ?_
    show EndsIn rest _
    split
    · next rest' hd =>
      rw [hd] at htaken
      exact (endsIn_failAtOr _ _ rest').mono htaken
    · next ds rest' hne hd =>
      rw [hd] at htaken
      exact (endsIn_exponent _ rest').mono htaken
  · exact endsIn_exponent m bs

theorem endsIn_number (negative : Bool) (bs : Bytes) : EndsIn bs (walkNumber negative bs) := by
  unfold walkNumber
  split
  · exact endsIn_atEnd _ _
  · next b rest =>
    split
    · split
      · exact endsIn_of_drop 1 (endsIn_failAt _ rest)
      · exact endsIn_of_drop 1 (endsIn_fraction _ rest)
    · split
      · exact endsIn_of_drop 1 (endsIn_failPast _ rest)
      · exact (endsIn_fraction _ _).mono (takeDigits_suffix [] (b :: rest))

/-! ## values -/

section
variable {bs rest rest' : Bytes} {w : Walk}

/-- after blanks an octet may be taken -/
theorem suffix_of_skipSpace {b : UInt8} (hs : skipSpace rest = b :: rest') (h : rest <:+ bs) :
    rest' <:+ bs := by
  have hskipped := skipSpace_suffix rest
  rw [hs] at hskipped
  exact ((List.suffix_cons b rest').trans hskipped).trans h

theorem endsIn_closeArray (h : EndsIn bs w) : EndsIn bs (closeArray w) := by
  unfold closeArray
  cases w with
  | ok rest =>
    dsimp only
    split
    · next rest' hs => exact suffix_of_skipSpace hs h
    · exact (endsIn_failAtOr _ _ _).mono ((skipSpace_suffix rest).trans h)
  | error p =>
    dsimp only
    split
    · next rest' hs => exact suffix_of_skipSpace hs h
    · next rest' hs => exact (skipSpace_suffix rest').trans (suffix_of_skipSpace hs h)
    · exact (skipSpace_suffix p.rest).trans h

theorem endsIn_closeObject (h : EndsIn bs w) : EndsIn bs (closeObject w) := by
  unfold closeObject
  cases w with
  | ok rest =>
    dsimp only
    split
    · next rest' hs => exact suffix_of_skipSpace hs h
    · exact (endsIn_failAtOr _ _ _).mono ((skipSpace_suffix rest).trans h)
  | error p =>
    dsimp only
    split
    · next rest' hs => exact suffix_of_skipSpace hs h
    · exact (skipSpace_suffix p.rest).trans h

end

theorem endsIn_key (bs : Bytes) : EndsIn bs (walkKey bs) := by
  unfold walkKey
  split
  · next rest =>
    have hstring := endsIn_string [] rest
    refine endsIn_of_drop 1 ?_
    show EndsIn rest _
    split
    · next p hp =>
      rw [hp] at hstring
      exact hstring
    · next rest' hr =>
      rw [hr] at hstring
      split
      · next rest'' hs => exact suffix_of_skipSpace hs hstring
      · exact (endsIn_failAtOr _ _ _).mono ((skipSpace_suffix rest').trans hstring)
  · exact endsIn_failAtOr _ _ bs

theorem endsIn_comma (k : Bracket) (first : Bool) (bs : Bytes) :
    EndsIn bs (walkComma k first bs) := by
  have hskipped := skipSpace_suffix bs
  unfold walkComma
  split
  · exact endsIn_atEnd _ bs
  · next b rest hs =>
    rw [hs] at hskipped
    refine EndsIn.mono ?_ hskipped
    split
    · exact List.suffix_refl (b :: rest)
    · split
      · refine endsIn_of_drop 1 ?_
        have hrest := skipSpace_suffix rest
        dsimp only
        split
        · exact (endsIn_failAt _ _).mono hrest
        · exact hrest
      · exact endsIn_failAt _ (b :: rest)

section
variable {fuel : Nat}

theorem endsIn_value_succ
    (hitems : ∀ depth first bs, EndsIn bs (walkItems fuel depth first bs))
    (hmembers : ∀ depth first bs, EndsIn bs (walkMembers fuel depth first bs))
    (depth : Nat) (bs : Bytes) : EndsIn bs (walkValue (fuel + 1) depth bs) := by
  have hskipped := skipSpace_suffix bs
  unfold walkValue
  refine EndsIn.mono ?_ hskipped
  split
  · exact endsIn_atEnd _ _
  · next rest hs =>
    rw [hs]
    exact endsIn_of_drop 1 (endsIn_word _ rest)
  · next rest hs =>
    rw [hs]
    exact endsIn_of_drop 1 (endsIn_word _ rest)
  · next rest hs =>
    rw [hs]
    exact endsIn_of_drop 1 (endsIn_word _ rest)
  · next rest hs =>
    rw [hs]
    exact endsIn_of_drop 1 (endsIn_string [] rest)
  · next rest hs =>
    rw [hs]
    exact endsIn_of_drop 1 (endsIn_number true rest)
  · next rest hs =>
    rw [hs]
    cases depth with
    | zero => exact endsIn_failAt _ _
    | succ depth => exact endsIn_of_drop 1 (endsIn_closeArray (hitems depth true rest))
  · next rest hs =>
    rw [hs]
    cases depth with
    | zero => exact endsIn_failAt _ _
    | succ depth => exact endsIn_of_drop 1 (endsIn_closeObject (hmembers depth true rest))
  · next b rest _ _ _ _ _ _ _ hs =>
    rw [hs]
    split
    · exact endsIn_number false (b :: rest)
    · exact endsIn_failAt _ (b :: rest)

theorem endsIn_items_succ (hvalue : ∀ depth bs, EndsIn bs (walkValue fuel depth bs))
    (hitems : ∀ depth first bs, EndsIn bs (walkItems fuel depth first bs))
    (depth : Nat) (first : Bool) (bs : Bytes) :
    EndsIn bs (walkItems (fuel + 1) depth first bs) := by
  have hcomma := endsIn_comma square first bs
  unfold walkItems
  split
  · next p hp => exact hp ▸ hcomma
  · next rest hr => exact hr ▸ hcomma
  · next rest hne hr =>
    rw [hr] at hcomma
    refine EndsIn.mono (?_ : EndsIn rest _) hcomma
    have hfirst := hvalue depth rest
    split
    · next p hp => exact hp ▸ hfirst
    · next rest' hr' =>
      rw [hr'] at hfirst
      exact (hitems depth false rest').mono hfirst

theorem endsIn_members_succ (hvalue : ∀ depth bs, EndsIn bs (walkValue fuel depth bs))
    (hmembers : ∀ depth first bs, EndsIn bs (walkMembers fuel depth first bs))
    (depth : Nat) (first : Bool) (bs : Bytes) :
    EndsIn bs (walkMembers (fuel + 1) depth first bs) := by
  have hcomma := endsIn_comma curly first bs
  unfold walkMembers
  split
  · next p hp => exact hp ▸ hcomma
  · next rest hr => exact hr ▸ hcomma
  · next rest hne hr =>
    rw [hr] at hcomma
    refine EndsIn.mono (?_ : EndsIn rest _) hcomma
    have hkey := endsIn_key rest
    split
    · next p hp => exact hp ▸ hkey
    · next rest' hr' =>
      rw [hr'] at hkey
      refine EndsIn.mono (?_ : EndsIn rest' _) hkey
      have hfirst := hvalue depth rest'
      split
      · next p hp => exact hp ▸ hfirst
      · next rest'' hr'' =>
        rw [hr''] at hfirst
        exact (hmembers depth false rest'').mono hfirst

end

/-- values, the items of an array and the members of an object, by induction on the fuel -/
theorem endsIn_values (fuel : Nat) :
    (∀ depth bs, EndsIn bs (walkValue fuel depth bs)) ∧
    (∀ depth first bs, EndsIn bs (walkItems fuel depth first bs)) ∧
    (∀ depth first bs, EndsIn bs (walkMembers fuel depth first bs)) := by
  induction fuel with
  | zero =>
    exact ⟨fun _ bs => endsIn_atEnd _ bs, fun _ _ bs => endsIn_atEnd _ bs,
      fun _ _ bs => endsIn_atEnd _ bs⟩
  | succ fuel ih =>
    obtain ⟨hvalue, hitems, hmembers⟩ := ih
    exact ⟨endsIn_value_succ hitems hmembers, endsIn_items_succ hvalue hitems,
      endsIn_members_succ hvalue hmembers⟩

theorem endsIn_walk (bs : Bytes) : EndsIn bs (walk bs) := by
  have hvalue := (endsIn_values (2 * bs.length + 2)).1 depthLimit bs
  unfold walk
  split
  · next p hp => exact hp ▸ hvalue
  · next rest hr =>
    rw [hr] at hvalue
    split
    · exact List.nil_suffix
    · exact (endsIn_failAt _ _).mono ((skipSpace_suffix rest).trans hvalue)

end Reader

/-- what is left of a source is an end of its text -/
theorem unread_suffix (bs : Bytes) : unread bs <:+ bs := by
  have hwalk := Reader.endsIn_walk bs
  unfold unread
  split
  · next rest hr =>
    rw [hr] at hwalk
    exact hwalk
  · next p hp =>
    rw [hp] at hwalk
    split
    · exact (List.tail_suffix p.rest).trans hwalk
    · exact hwalk

end RemoteGuard.Json
