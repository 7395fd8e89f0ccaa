import Mathlib.Data.List.Nodup
import RemoteGuard.Content.Ledger

/-!
# Contents that files are delivered as

`Ledger.Received` says all about the contents that a ledger gives out for files: they stand for the
files one by one, under identities that no content had before.

* `Ledger.received_of_receiveAll`   what a ledger gives out is so;
* `Ledger.receiveAll_isOk_iff`      it gives out contents just if every path parses;
* `Ledger.Received.exists_iff`      what can be looked up among them is what was delivered.
-/

namespace RemoteGuard

/-- the file that a content was delivered as -/
def Content.file (c : Content) : TargetFile := ⟨c.path.text, c.data⟩

namespace Ledger
variable {l l' : Ledger} {expires : Option Timestamp} {files : List TargetFile}
  {cs : List Content}

/-- the contents were given out for the files, and the ledger has moved on -/
structure Received (l : Ledger) (files : List TargetFile) (cs : List Content) (l' : Ledger) :
    Prop where
  files_eq : cs.map Content.file = files
  ids_eq : cs.map Content.id = List.range' l.next files.length
  next_eq : l'.next = l.next + files.length
  entries_eq : l'.entries = l.entries

theorem received_of_receiveAll (h : l.receiveAll expires files = .ok (cs, l')) :
    l.Received files cs l' := by
  induction files generalizing l cs with
  | nil =>
    cases h
    exact ⟨rfl, rfl, rfl, rfl⟩
  | cons f fs ih =>
    rw [receiveAll, receive] at h
    cases hp : ConfigPath.parse f.path with
    | error e => simp only [hp] at h; cases h
    | ok path =>
      simp only [hp, enroll] at h
      cases hr : receiveAll ⟨l.next + 1, l.entries⟩ expires fs with
      | error e => simp only [hr] at h; cases h
      | ok rest =>
        obtain ⟨ds, l''⟩ := rest
        simp only [hr] at h
        cases h
        obtain ⟨hfiles, hids, hnext, hentries⟩ := ih hr
        have hf : Content.file ⟨l.next, path, f.raw, expires⟩ = f := by
          rw [Content.file, ConfigPath.parse_eq_ok_iff.mp hp]
        refine ⟨?_, ?_, ?_, hentries⟩
        · rw [List.map_cons, hf, hfiles]
        · rw [List.map_cons, hids, List.length_cons, List.range'_succ]
        · have hnext : l'.next = l.next + 1 + fs.length := hnext
          rw [hnext, List.length_cons]
          omega

theorem receiveAll_isOk_iff :
    (∃ cs l', l.receiveAll expires files = .ok (cs, l')) ↔
      ∀ f ∈ files, ∃ path, ConfigPath.parse f.path = .ok path := by
  induction files generalizing l with
  | nil => exact ⟨fun _ f hf => absurd hf List.not_mem_nil, fun _ => ⟨[], l, rfl⟩⟩
  | cons f fs ih =>
    rw [List.forall_mem_cons, receiveAll, receive]
    cases hp : ConfigPath.parse f.path with
    | error e =>
      refine ⟨?_, ?_⟩
      · rintro ⟨cs, l', h⟩
        cases h
      · rintro ⟨⟨path, h⟩, -⟩
        cases h
    | ok path =>
      rw [← ih (l := (l.enroll path f.raw expires).2)]
      simp only
      cases receiveAll (l.enroll path f.raw expires).2 expires fs with
      | error e =>
        refine ⟨?_, ?_⟩
        · rintro ⟨cs, l', h⟩
          cases h
        · rintro ⟨-, cs, l', h⟩
          cases h
      | ok rest => exact ⟨fun _ => ⟨⟨path, rfl⟩, rest.1, rest.2, rfl⟩, fun _ => ⟨_, _, rfl⟩⟩

/-! ## what was given out -/

namespace Received

theorem exists_iff (h : l.Received files cs l') (path : ConfigPath) (p : Bytes → Prop) :
    (∃ c ∈ cs, c.path = path ∧ p c.data) ↔ ∃ f ∈ files, f.path = path.text ∧ p f.raw := by
  rw [← h.files_eq]
  constructor
  · rintro ⟨c, hc, rfl, hp⟩
    exact ⟨c.file, List.mem_map_of_mem hc, rfl, hp⟩
  · rintro ⟨f, hf, hpath, hp⟩
    obtain ⟨c, hc, rfl⟩ := List.mem_map.mp hf
    exact ⟨c, hc, ConfigPath.ext_text hpath, hp⟩

/-- identities that were given out are new -/
theorem le_id (h : l.Received files cs l') {c : Content} (hc : c ∈ cs) :
    l.next ≤ c.id ∧ c.id < l'.next := by
  have hmem : c.id ∈ cs.map Content.id := List.mem_map_of_mem hc
  rw [h.ids_eq, List.mem_range'_1] at hmem
  rw [h.next_eq]
  exact hmem

theorem eq_of_id (h : l.Received files cs l') {c d : Content} (hc : c ∈ cs) (hd : d ∈ cs)
    (he : c.id = d.id) : c = d := by
  have hnodup : (cs.map Content.id).Nodup := by
    rw [h.ids_eq]
    exact List.nodup_range'
  exact List.inj_on_of_nodup_map hnodup hc hd he

/-- nothing is recorded about them that was not recorded before -/
theorem version_eq (h : l.Received files cs l') (c : Content) :
    l'.version c = l.version c := by
  rw [Ledger.version, Ledger.version, entry, entry, h.entries_eq]

theorem state_eq (h : l.Received files cs l') (c : Content) : l'.state c = l.state c := by
  rw [Ledger.state, Ledger.state, entry, entry, h.entries_eq]

end Received
end Ledger
end RemoteGuard
