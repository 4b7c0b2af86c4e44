import FeatureFlow.Proofs.Files.Walking

/-!
# What changes in a directory

A write and a removal change one entry that is no directory, so all other names of the
directory keep their contents (`content?_write_of_ne`, `content?_remove_of_ne`).
-/

namespace FeatureFlow

def FileEntry.content? : FileEntry → Option ByteArray
  | directory => none
  | file content => some content

namespace Files

open FeatureFlow.Path (IsName)
open Fallible (bind_ok)

variable {files before after made : Files} {place : Place} {directory name other path : String}
  {content : ByteArray}

-- ---------------------------------------------------------------------------
-- Contents
-- ---------------------------------------------------------------------------

def content? (files : Files) (path : String) : Option ByteArray :=
  (files.read path).toOption

theorem content?_of_locate (h : files.locate path = .ok place) :
    files.content? path = (files.entry? place).bind (·.content?) := by
  simp only [content?, read, h, bind, Except.bind]
  cases files.entry? place with
  | none => rfl
  | some entry => cases entry <;> rfl

theorem content?_of_error (h : files.locate path = .error e) : files.content? path = none := by
  simp only [content?, read, h, bind, Except.bind]
  rfl

theorem content?_join (files : Files) (directory : String) (hname : IsName name) :
    files.content? (Path.join directory name) = none ∨
      ∃ place, files.inside directory = .ok place ∧
        files.content? (Path.join directory name) =
          (files.entry? (place ++ [name])).bind (·.content?) := by
  cases hlocate : files.locate (Path.join directory name) with
  | error e => exact .inl (content?_of_error hlocate)
  | ok found =>
    obtain ⟨place, hinside, rfl⟩ := inside_of_locate hname hlocate
    exact .inr ⟨place, hinside, content?_of_locate hlocate⟩

theorem content?_join_congr (hname : IsName name) (hbefore : before.inside directory = .ok place)
    (hafter : after.inside directory = .ok place)
    (hentry : (after.entry? (place ++ [name])).bind (·.content?) =
      (before.entry? (place ++ [name])).bind (·.content?)) :
    after.content? (Path.join directory name) = before.content? (Path.join directory name) := by
  have hsame : after.locate (Path.join directory name) =
      before.locate (Path.join directory name) := by
    rw [locate_join _ _ hname, locate_join _ _ hname, hbefore, hafter]
  cases hlocate : before.locate (Path.join directory name) with
  | error e => rw [content?_of_error hlocate, content?_of_error (hsame.trans hlocate)]
  | ok found =>
    obtain ⟨other, hother, rfl⟩ := inside_of_locate hname hlocate
    obtain rfl := Except.ok.inj (hother.symm.trans hbefore)
    rw [content?_of_locate hlocate, content?_of_locate (hsame.trans hlocate), hentry]

theorem entry?_of_ne_nil (files : Files) (hplace : place ≠ []) :
    files.entry? place = files.entries.get? place.key := by
  unfold entry?
  split
  · exact absurd rfl hplace
  · rfl

-- ---------------------------------------------------------------------------
-- Writes and removals
-- ---------------------------------------------------------------------------

/-- The two trees differ at most in one place, which was no directory. -/
structure Edits (before after : Files) (place : Place) : Prop where
  home : after.home = before.home
  others : ∀ key, key ≠ place.key → after.entries.get? key = before.entries.get? key
  entry : before.entry? place ≠ some .directory

theorem Edits.ne_nil (h : Edits before after place) : place ≠ [] :=
  fun hplace => h.entry (hplace ▸ rfl)

theorem Edits.keeps (h : Edits before after place) : Keeps before after := by
  refine ⟨h.home, fun other hother => ?_⟩
  by_cases hnil : other = []
  · exact hnil ▸ rfl
  · rw [entry?_of_ne_nil _ hnil] at hother ⊢
    rw [h.others other.key, hother]
    intro hkey
    refine h.entry ?_
    rw [entry?_of_ne_nil _ h.ne_nil, ← hkey, hother]

theorem Edits.content?_of_ne (h : Edits before after (place ++ [other]))
    (hinside : before.inside directory = .ok place) (hname : IsName name) (hne : name ≠ other) :
    after.content? (Path.join directory name) = before.content? (Path.join directory name) := by
  refine content?_join_congr hname hinside (h.keeps.inside hinside) ?_
  rw [entry?_append, entry?_append, h.others _ (mt Place.key_append_inj.mp hne)]

theorem write_outcome (h : files.write path content = .ok after) :
    ∃ place, files.locate path = .ok place ∧ Edits files after place ∧
      after.entry? place = some (.file content) := by
  obtain ⟨place, hlocate, h⟩ := bind_ok.mp h
  split at h
  · cases h
  · rename_i hentry
    obtain rfl := Except.ok.inj h
    have hedits : Edits files
        { files with entries := files.entries.insert place.key (.file content) } place :=
      ⟨rfl, fun key hkey => (Table.get?_insert ..).trans (if_neg hkey.symm), hentry⟩
    refine ⟨place, hlocate, hedits, ?_⟩
    rw [entry?_of_ne_nil _ hedits.ne_nil]
    exact Table.get?_insert_self ..

theorem remove_outcome (h : files.remove path = .ok after) :
    ∃ place, files.locate path = .ok place ∧ Edits files after place ∧
      after.entry? place = none := by
  obtain ⟨place, hlocate, h⟩ := bind_ok.mp h
  split at h
  · rename_i content hentry
    obtain rfl := Except.ok.inj h
    have hedits : Edits files { files with entries := files.entries.erase place.key } place :=
      ⟨rfl, fun key hkey => (Table.get?_erase ..).trans (if_neg hkey.symm), by simp [hentry]⟩
    refine ⟨place, hlocate, hedits, ?_⟩
    rw [entry?_of_ne_nil _ hedits.ne_nil]
    exact (Table.get?_erase ..).trans (if_pos rfl)
  · cases h
  · cases h

theorem content?_write_self (h : files.write path content = .ok after) :
    after.content? path = some content := by
  obtain ⟨place, hlocate, hedits, hentry⟩ := write_outcome h
  rw [content?_of_locate (hedits.keeps.locate hlocate), hentry]
  rfl

theorem content?_remove_self (h : files.remove path = .ok after) : after.content? path = none := by
  obtain ⟨place, hlocate, hedits, hentry⟩ := remove_outcome h
  rw [content?_of_locate (hedits.keeps.locate hlocate), hentry]
  rfl

theorem content?_write_of_ne (hother : IsName other) (hname : IsName name) (hne : name ≠ other)
    (h : files.write (Path.join directory other) content = .ok after) :
    after.content? (Path.join directory name) = files.content? (Path.join directory name) := by
  obtain ⟨found, hlocate, hedits, -⟩ := write_outcome h
  obtain ⟨place, hinside, rfl⟩ := inside_of_locate hother hlocate
  exact hedits.content?_of_ne hinside hname hne

theorem content?_remove_of_ne (hother : IsName other) (hname : IsName name) (hne : name ≠ other)
    (h : files.remove (Path.join directory other) = .ok after) :
    after.content? (Path.join directory name) = files.content? (Path.join directory name) := by
  obtain ⟨found, hlocate, hedits, -⟩ := remove_outcome h
  obtain ⟨place, hinside, rfl⟩ := inside_of_locate hother hlocate
  exact hedits.content?_of_ne hinside hname hne

end Files

end FeatureFlow
