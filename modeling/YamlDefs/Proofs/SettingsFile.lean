import Mathlib.Data.List.Basic
import Mathlib.Data.List.InsertIdx
import YamlDefs.Settings.Load

/-!
# Where settings are read

The reader of settings looks for a file at the paths that are documented, in whatever order chance
puts the formats, and takes nothing else into account.

* `arranged_perm`, `exists_arranged_eq`: what chance can do to an order.
* `settingsFile?_eq`, `mem_lookups_of_settingsFile?`: which file is found for a path of settings.
* `SettingsReader.own_documented`: the reader does what is documented.
-/

namespace YamlDefs

variable {fs gs : Files} {chance : Nat} {path : String}

/-! ## Order -/

section

variable {α : Type}

theorem arranged_perm (chance : Nat) (xs : List α) : (arranged chance xs).Perm xs := by
  induction xs generalizing chance with
  | nil => exact .refl _
  | cons x rest ih =>
    have hrest := ih (chance / (rest.length + 1))
    have hlt : chance % (rest.length + 1) < rest.length + 1 := Nat.mod_lt _ (Nat.succ_pos _)
    refine (List.perm_insertIdx x _ ?_).trans (hrest.cons x)
    rw [hrest.length_eq]
    exact Nat.le_of_lt_succ hlt

theorem insertIdx_length_append (before behind : List α) (x : α) :
    (before ++ behind).insertIdx before.length x = before ++ x :: behind := by
  induction before with
  | nil => rfl
  | cons y before ih => simp [ih]

/-- Chance puts things in every order. -/
theorem exists_arranged_eq {xs ys : List α} (h : ys.Perm xs) :
    ∃ chance, arranged chance xs = ys := by
  induction xs generalizing ys with
  | nil => exact ⟨0, h.eq_nil.symm⟩
  | cons x rest ih =>
    obtain ⟨before, behind, rfl⟩ := List.append_of_mem (h.mem_iff.mpr List.mem_cons_self)
    have hrest : (before ++ behind).Perm rest := (List.perm_middle.symm.trans h).cons_inv
    obtain ⟨chance, hchance⟩ := ih hrest
    have hlt : before.length < rest.length + 1 := by
      have hlength := hrest.length_eq
      rw [List.length_append] at hlength
      omega
    refine ⟨chance * (rest.length + 1) + before.length, ?_⟩
    rw [arranged, Nat.add_comm, Nat.add_mul_div_right _ _ (Nat.succ_pos _),
      Nat.div_eq_of_lt hlt, Nat.zero_add, Nat.add_mul_mod_self_right, Nat.mod_eq_of_lt hlt, hchance]
    exact insertIdx_length_append before behind x

end

/-! ## Paths -/

theorem mem_extensions_of_arranged {extension : String × Format}
    (h : extension ∈ Format.extensions (arranged chance Format.all)) :
    extension ∈ Format.extensions Format.all := by
  obtain ⟨format, hformat, hmem⟩ := List.mem_flatMap.mp h
  exact List.mem_flatMap.mpr ⟨format, (arranged_perm _ _).mem_iff.mp hformat, hmem⟩

theorem Files.isFile_eq (fs : Files) (path : String) :
    fs.isFile path = (fs.read? path).toOption.isSome := by
  rw [isFile]
  cases fs.read? path <;> rfl

namespace SettingsReader

theorem self_mem_lookups (r : SettingsReader) (fs : Files) (path : String) :
    path ∈ r.lookups fs path := by
  unfold lookups
  split <;> exact List.mem_cons_self

/-- Where no file is, it is looked for with each known extension. -/
theorem longer_mem_lookups {extension : String × Format} {longer : String}
    (h : fs.isFile path = false) (he : extension ∈ Format.extensions Format.all)
    (hl : withExtension? path extension.1 = some longer) : longer ∈ own.lookups fs path := by
  rw [lookups, h]
  refine List.mem_cons_of_mem _ (List.mem_filterMap.mpr ⟨extension.1, ?_, hl⟩)
  exact List.mem_map_of_mem he

/-- The file that is found for a path of settings is one of those that are looked for. -/
theorem mem_lookups_of_settingsFile? {file : String} {format : Format}
    (h : settingsFile? chance fs path = some (file, format)) : file ∈ own.lookups fs path := by
  unfold settingsFile? at h
  split at h
  · obtain ⟨f, -, heq⟩ := Option.map_eq_some_iff.mp h
    obtain ⟨rfl, -⟩ := Prod.mk.inj heq
    exact self_mem_lookups own fs path
  · next hf =>
    obtain ⟨extension, hmem, heq⟩ := List.exists_of_findSome?_eq_some h
    obtain ⟨longer, hlonger, heq⟩ := Option.map_eq_some_iff.mp heq
    obtain ⟨rfl, -⟩ := Prod.mk.inj heq
    obtain ⟨hlonger, -⟩ := Option.filter_eq_some_iff.mp hlonger
    exact longer_mem_lookups (Bool.eq_false_iff.mpr hf) (mem_extensions_of_arranged hmem) hlonger

variable (h : ∀ p ∈ own.lookups fs path, (fs.read? p).toOption = (gs.read? p).toOption)
include h

/-- The same file is found for a path of settings. -/
theorem settingsFile?_eq : settingsFile? chance fs path = settingsFile? chance gs path := by
  have hfile : fs.isFile path = gs.isFile path := by
    rw [Files.isFile_eq, Files.isFile_eq, h path (self_mem_lookups own fs path)]
  unfold settingsFile?
  rw [← hfile]
  split
  · rfl
  · next hf =>
    rw [← List.head?_filterMap, ← List.head?_filterMap]
    refine congrArg List.head? (List.filterMap_congr fun extension hmem => ?_)
    have hlonger : (withExtension? path extension.1).filter fs.isFile =
        (withExtension? path extension.1).filter gs.isFile := by
      cases hl : withExtension? path extension.1 with
      | none => rfl
      | some longer =>
        have hread := h longer
          (longer_mem_lookups (Bool.eq_false_iff.mpr hf) (mem_extensions_of_arranged hmem) hl)
        simp only [Option.filter, Files.isFile_eq, hread]
    simp only [hlonger]

theorem settingsFile_eq : SettingsFile.of chance fs path = SettingsFile.of chance gs path := by
  unfold SettingsFile.of
  rw [← settingsFile?_eq h]
  cases hs : settingsFile? chance fs path with
  | none => rfl
  | some found =>
    obtain ⟨file, format⟩ := found
    simp only [h file (mem_lookups_of_settingsFile? hs)]

end SettingsReader

theorem SettingsReader.own_documented : SettingsReader.own.Documented where
  file chance fs gs vars vars' path required h := by
    have hsource : withSource chance fs vars [] (.file path required) =
        withSource chance gs vars' [] (.file path required) := by
      rw [withSource, withSource, settingsFile_eq h]
    simp only [own, List.foldlM_cons, hsource, List.foldlM_nil]

end YamlDefs
