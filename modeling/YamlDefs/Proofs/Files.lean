import YamlDefs.Files

/-!
# Reading after writing

A file that is written gets new contents, and nothing else changes: paths lead where they led
before, every path to that place reads what was written, and every other path reads what it read.

* `Files.Rooted`: all locations on the way to a location are directories; `Files.rooted_of_follow`:
  paths lead only to such locations.
* `Files.locate_withFile_eq_ok_iff`, `Files.target_withFile_of_ne`: what stays as it was.
* `Files.Written`, `Files.written_of_write?`: what every path reads after a file has been written.
* `Files.Writable`, `Files.exists_write?_iff`: where a file can be written.
-/

namespace YamlDefs.Files

variable {fs : Files} {place : Location} {bytes : ByteArray}

/-! ## The way to a location -/

/-- All locations above a location are directories. -/
def Rooted (fs : Files) (place : Location) : Prop :=
  ∀ q, q <+: place → q.length < place.length → fs.isDirectory q = true

theorem Rooted.of_prefix {q : Location} (h : fs.Rooted place) (hq : q <+: place) :
    fs.Rooted q := fun p hp hlt => h p (hp.trans hq) (Nat.lt_of_lt_of_le hlt hq.length_le)

theorem Rooted.append_singleton (h : fs.Rooted place) (hd : fs.isDirectory place = true)
    (name : String) : fs.Rooted (place ++ [name]) := by
  intro q hq hlt
  rw [List.length_append, List.length_singleton] at hlt
  rcases List.prefix_concat_iff.mp hq with rfl | hq
  · simp at hlt
  · rcases Nat.lt_or_eq_of_le hq.length_le with hlt' | heq
    · exact h q hq hlt'
    · rwa [hq.eq_of_length heq]

/-- The root and the directories above the working directory are directories. -/
theorem isDirectory_of_ups (h : place.all (· = "..") = true) : fs.isDirectory place = true := by
  simp [isDirectory, h]

theorem rooted_singleton (name : String) : fs.Rooted [name] := by
  intro q hq hlt
  have hnil : q = [] := List.length_eq_zero_iff.mp (by simpa using hlt)
  exact isDirectory_of_ups (by simp [hnil])

theorem Rooted.step (h : fs.Rooted place) (hd : fs.isDirectory place = true) (name : String) :
    fs.Rooted (place.step name) := by
  unfold Location.step Location.parent
  split
  · exact h
  · split
    · split
      · exact h
      · split
        · exact h.append_singleton hd ".."
        · exact h.of_prefix (List.dropLast_prefix place)
    · split
      · exact rooted_singleton name
      · exact h.append_singleton hd name

/-- Where a path may lead there is a directory to hold it. -/
theorem Rooted.isDirectory_parent (h : fs.Rooted place) :
    fs.isDirectory (Location.parent place) = true := by
  unfold Location.parent
  split
  · next hs => simp [isDirectory, hs]
  · split
    · next ha => exact isDirectory_of_ups (by simpa using ha)
    · next ha =>
      have hne : place ≠ [] := fun he => ha (by simp [he])
      have hlt : place.dropLast.length < place.length := by
        have hpos := List.length_pos_iff.mpr hne
        rw [List.length_dropLast]
        omega
      exact h _ (List.dropLast_prefix place) hlt

theorem isDirectory_of_target (h : fs.target place = .directory) :
    fs.isDirectory place = true := by
  unfold target at h
  split at h
  · cases h
  · split at h
    · assumption
    · cases h

/-- Paths lead only through directories. -/
theorem rooted_of_follow {start : Location} {names : List String} (hs : fs.Rooted start)
    (h : fs.follow start names = .ok place) : fs.Rooted place := by
  induction names generalizing start with
  | nil =>
    cases h
    exact hs
  | cons name rest ih =>
    rw [follow] at h
    split at h
    · cases h
    · cases h
    · next ht =>
      split at h
      · cases h
      · exact ih (hs.step (isDirectory_of_target ht) name) h

/-! ## The files after a writing -/

/-- The files after a location has been given new contents. -/
def withFile (fs : Files) (place : Location) (bytes : ByteArray) : Files :=
  { fs with files := put fs.files place bytes }

/-- The same locations are directories after a file has been written in a directory. -/
theorem isDirectory_withFile (hr : fs.Rooted place) (q : Location) :
    (fs.withFile place bytes).isDirectory q = fs.isDirectory q := by
  rw [Bool.eq_iff_iff]
  simp only [isDirectory, withFile, put, Bool.or_eq_true, List.any_eq_true, List.mem_cons,
    List.mem_filter, Bool.and_eq_true, List.isPrefixOf_iff_prefix, decide_eq_true_eq]
  constructor
  · rintro (h | ⟨f, rfl | ⟨hf, -⟩, hpre, hlt⟩)
    · exact .inl h
    · simpa [isDirectory] using hr q hpre hlt
    · exact .inr ⟨f, hf, hpre, hlt⟩
  · rintro (h | ⟨f, hf, hpre, hlt⟩)
    · exact .inl h
    · by_cases hp : f.1 = place
      · exact .inr ⟨(place, bytes), .inl rfl, hp ▸ hpre, hp ▸ hlt⟩
      · exact .inr ⟨f, .inr ⟨hf, by simpa using hp⟩, hpre, hlt⟩

theorem target_withFile_self : (fs.withFile place bytes).target place = .file bytes := by
  simp only [target, withFile, lookup_put_self]

theorem target_withFile_of_ne (hr : fs.Rooted place) {q : Location} (h : q ≠ place) :
    (fs.withFile place bytes).target q = fs.target q := by
  rw [target, target, isDirectory_withFile hr, withFile, lookup_put_of_ne _ _ h]

/-- Paths lead to the same locations after a file has been written at a location that is no
directory. -/
theorem follow_withFile_eq_ok_iff (hr : fs.Rooted place) (hd : fs.target place ≠ .directory)
    {start q : Location} {names : List String} :
    (fs.withFile place bytes).follow start names = .ok q ↔ fs.follow start names = .ok q := by
  induction names generalizing start with
  | nil => rfl
  | cons name rest ih =>
    rw [follow, follow]
    by_cases hs : start = place
    · subst hs
      rw [target_withFile_self]
      cases ht : fs.target start with
      | directory => exact absurd ht hd
      | file _ | missing => simp
    · rw [target_withFile_of_ne hr hs]
      split
      · rfl
      · rfl
      · split
        · rfl
        · exact ih

theorem locate_eq_ok_iff {path : String} {q : Location} :
    fs.locate path = .ok q ↔ path.isEmpty = false ∧ path.utf8ByteSize ≤ maxPathBytes ∧
      fs.follow [] (steps path) = .ok q ∧ (path.endsWith "/" → fs.target q = .directory) := by
  unfold locate
  split
  · next he => simp [he]
  · next he =>
    split
    · next hl => simp [Nat.not_le.mpr hl]
    · next hl =>
      cases fs.follow [] (steps path) with
      | error fault => simp
      | ok place =>
        by_cases hq : place = q
        · subst hq
          by_cases hs : path.endsWith "/" = true <;> cases ht : fs.target place <;>
            simp_all
        · by_cases hs : path.endsWith "/" = true <;> cases ht : fs.target place <;>
            simp [hs, ht, hq]

theorem locate_withFile_eq_ok_iff (hr : fs.Rooted place) (hd : fs.target place ≠ .directory)
    {path : String} {q : Location} :
    (fs.withFile place bytes).locate path = .ok q ↔ fs.locate path = .ok q := by
  have ht : (fs.withFile place bytes).target q = .directory ↔ fs.target q = .directory := by
    by_cases hq : q = place
    · subst hq
      rw [target_withFile_self]
      simp [hd]
    · rw [target_withFile_of_ne hr hq]
  rw [locate_eq_ok_iff, locate_eq_ok_iff, follow_withFile_eq_ok_iff hr hd, ht]

theorem rooted_of_locate {path : String} (h : fs.locate path = .ok place) : fs.Rooted place := by
  obtain ⟨-, -, hf, -⟩ := locate_eq_ok_iff.mp h
  refine rooted_of_follow (fun q hq hlt => ?_) hf
  simp at hlt

theorem read?_eq_ok_iff {path : String} {content : ByteArray} :
    fs.read? path = .ok content ↔ ∃ q, fs.locate path = .ok q ∧ fs.target q = .file content := by
  unfold read?
  cases fs.locate path with
  | error fault => simp
  | ok q => cases h : fs.target q <;> simp [h]

/-- A file can be written where a path leads, unless that is a directory. -/
theorem write?_eq_some_iff {path : String} {after : Files} :
    fs.write? path bytes = some after ↔ ∃ place, fs.locate path = .ok place ∧
      fs.target place ≠ .directory ∧ after = fs.withFile place bytes := by
  unfold write?
  cases hl : fs.locate path with
  | error fault => simp
  | ok place =>
    have hp := (rooted_of_locate hl).isDirectory_parent
    have hafter : { fs with files := put fs.files place bytes } = fs.withFile place bytes := rfl
    cases h : fs.target place <;> simp [hp, h, hafter, eq_comm (a := after)]

/-! ## One file written -/

/-- Between two states of the files, the file that a path leads to has been written, and nothing
else has changed. -/
structure Written (before : Files) (path : String) (bytes : ByteArray) (after : Files) : Prop where
  /-- Every path to the file reads what was written. -/
  reads : ∀ other, before.locate other = before.locate path → after.read? other = .ok bytes
  /-- Every other path reads what it read before. -/
  keeps : ∀ other, before.locate other ≠ before.locate path → ∀ content,
    after.read? other = .ok content ↔ before.read? other = .ok content
  /-- What stood at any other location stands there still. -/
  spares : ∀ place, before.locate path ≠ .ok place → after.target place = before.target place

theorem written_of_write? {path : String} {after : Files}
    (h : fs.write? path bytes = some after) : fs.Written path bytes after := by
  obtain ⟨place, hl, hd, rfl⟩ := write?_eq_some_iff.mp h
  have hr := rooted_of_locate hl
  refine ⟨fun other ho => ?_, fun other ho content => ?_, fun q hq => ?_⟩
  · rw [hl] at ho
    exact read?_eq_ok_iff.mpr
      ⟨place, (locate_withFile_eq_ok_iff hr hd).mpr ho, target_withFile_self⟩
  · rw [hl] at ho
    simp only [read?_eq_ok_iff, locate_withFile_eq_ok_iff hr hd]
    refine exists_congr fun q => and_congr_right fun hq => ?_
    have hne : q ≠ place := fun he => ho (he ▸ hq)
    rw [target_withFile_of_ne hr hne]
  · rw [hl] at hq
    have hne : q ≠ place := fun he => hq (he ▸ rfl)
    exact target_withFile_of_ne hr hne

/-- A path leads to a file, or to where one can be made. -/
def Writable (fs : Files) (path : String) : Prop :=
  ∃ place, fs.locate path = .ok place ∧ fs.target place ≠ .directory

theorem exists_write?_iff {path : String} :
    (∃ after, fs.write? path bytes = some after) ↔ fs.Writable path := by
  constructor
  · rintro ⟨after, h⟩
    obtain ⟨place, hl, hd, -⟩ := write?_eq_some_iff.mp h
    exact ⟨place, hl, hd⟩
  · rintro ⟨place, hl, hd⟩
    exact ⟨_, write?_eq_some_iff.mpr ⟨place, hl, hd, rfl⟩⟩

end YamlDefs.Files
