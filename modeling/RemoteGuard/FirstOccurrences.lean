/-!
# First occurrences

`List.eraseDups` keeps the first occurrence of each member of a list.

* `nodup_eraseDups`      no member is kept twice;
* `eraseDups_filter`     a filter may come before or after;
* `mem_take_eraseDups`   a member is among the first ones if few others stand before it.
-/

namespace RemoteGuard

section
variable {β : Type} [BEq β] [LawfulBEq β]

theorem eraseDups_filter (p : β → Bool) (l : List β) :
    (l.filter p).eraseDups = l.eraseDups.filter p := by
  match l with
  | [] => rfl
  | b :: bs =>
    have ih := eraseDups_filter p (bs.filter fun x => !x == b)
    rw [List.eraseDups_cons, List.filter_cons, List.filter_cons, ← ih, List.filter_filter]
    cases hb : p b with
    | true =>
      rw [if_pos rfl, if_pos rfl, List.eraseDups_cons, List.filter_filter]
      congr 3
      funext x
      exact Bool.and_comm ..
    | false =>
      rw [if_neg Bool.false_ne_true, if_neg Bool.false_ne_true]
      congr 1
      refine List.filter_congr fun x _ => ?_
      by_cases hx : x = b
      · rw [hx, hb]
        rfl
      · simp [hx]
termination_by l.length
decreasing_by exact Nat.lt_succ_of_le (List.length_filter_le ..)

theorem nodup_eraseDups (l : List β) : l.eraseDups.Nodup := by
  match l with
  | [] => exact List.nodup_nil
  | b :: bs =>
    have ih := nodup_eraseDups (bs.filter fun x => !x == b)
    rw [List.eraseDups_cons]
    exact List.nodup_cons.mpr ⟨by simp, ih⟩
termination_by l.length
decreasing_by exact Nat.lt_succ_of_le (List.length_filter_le ..)

/-- what stands before the first occurrence of a member -/
theorem split_at_mem {b : β} {l : List β} (hb : b ∈ l) :
    ∃ rest, l = (l.takeWhile fun x => x != b) ++ b :: rest := by
  induction l with
  | nil => cases hb
  | cons a l ih =>
    by_cases ha : a = b
    · subst ha
      exact ⟨l, by simp⟩
    · have hrest : b ∈ l := (List.mem_cons.mp hb).resolve_left fun h => ha h.symm
      obtain ⟨rest, hl⟩ := ih hrest
      refine ⟨rest, ?_⟩
      rw [List.takeWhile_cons, if_pos (bne_iff_ne.mpr ha), List.cons_append, ← hl]

theorem not_mem_takeWhile_ne (b : β) (l : List β) : b ∉ l.takeWhile fun x => x != b := by
  intro hb
  have hne := List.all_eq_true.mp (List.all_takeWhile (l := l) (p := fun x => x != b)) b hb
  simp at hne

/-- a member is among the first ones if few others stand before it -/
theorem mem_take_eraseDups (n : Nat) (b : β) (l : List β) :
    b ∈ l.eraseDups.take n ↔ b ∈ l ∧ (l.takeWhile fun x => x != b).eraseDups.length < n := by
  by_cases hb : b ∈ l
  · rw [and_iff_right hb]
    obtain ⟨rest, hl⟩ := split_at_mem hb
    have hnew := not_mem_takeWhile_ne b l
    generalize (l.takeWhile fun x => x != b) = before at hl hnew ⊢
    obtain ⟨others, hsplit⟩ : ∃ others, l.eraseDups = before.eraseDups ++ b :: others := by
      rw [hl, List.eraseDups_append, List.removeAll, List.filter_cons_of_pos (by simpa using hnew),
        List.eraseDups_cons]
      exact ⟨_, rfl⟩
    rw [hsplit, List.take_append, List.mem_append]
    have hbefore : b ∉ before.eraseDups.take n :=
      fun h => hnew (List.mem_eraseDups.mp (List.mem_of_mem_take h))
    rw [or_iff_right hbefore]
    constructor
    · intro h
      refine Nat.not_le.mp fun hle => ?_
      rw [Nat.sub_eq_zero_of_le hle] at h
      exact List.not_mem_nil h
    · intro hlt
      obtain ⟨k, hk⟩ := Nat.exists_eq_add_of_lt hlt
      rw [show n - before.eraseDups.length = k + 1 by omega]
      exact List.mem_cons_self
  · refine iff_of_false (fun h => hb ?_) (fun h => hb h.1)
    exact List.mem_eraseDups.mp (List.mem_of_mem_take h)

end
end RemoteGuard
