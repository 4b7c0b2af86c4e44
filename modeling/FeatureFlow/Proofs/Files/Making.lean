import FeatureFlow.Proofs.Files.Changing
import Mathlib.Data.List.TakeWhile

/-!
# Making directories

A directory that has been made is there, and can be used (`inside_of_makeDirectories`).
Making directories changes the content of no file that was there (`Grown`), and in a
directory that can only be opened in one way it brings none to light
(`Opens.content?_grown`). Every tree begins as one in which all entries lie in directories
(`grounded_ofHome`).
-/

namespace FeatureFlow

namespace Files

open FeatureFlow.Path (IsName)
open Fallible (bind_ok)

variable {files before after made : Files} {place : Place} {directory name : String}
  {content : ByteArray}

-- ---------------------------------------------------------------------------
-- Trees with more directories
-- ---------------------------------------------------------------------------

structure Grown (before after : Files) : Prop where
  home : after.home = before.home
  kept : ∀ key entry, before.entries.get? key = some entry → after.entries.get? key = some entry
  file : ∀ key content, after.entries.get? key = some (.file content) →
    before.entries.get? key = some (.file content)

theorem Grown.refl (files : Files) : Grown files files :=
  ⟨rfl, fun _ _ h => h, fun _ _ h => h⟩

theorem Grown.trans (hfirst : Grown files before) (hsecond : Grown before after) :
    Grown files after where
  home := hsecond.home.trans hfirst.home
  kept key entry h := hsecond.kept key entry (hfirst.kept key entry h)
  file key content h := hfirst.file key content (hsecond.file key content h)

theorem Grown.keeps (h : Grown before after) : Keeps before after := by
  refine ⟨h.home, fun place hplace => ?_⟩
  by_cases hnil : place = []
  · exact hnil ▸ rfl
  · rw [entry?_of_ne_nil _ hnil] at hplace ⊢
    exact h.kept _ _ hplace

theorem Grown.content? (h : Grown before after) (place : Place) :
    (after.entry? place).bind (·.content?) = (before.entry? place).bind (·.content?) := by
  by_cases hnil : place = []
  · subst hnil
    rfl
  · rw [entry?_of_ne_nil _ hnil, entry?_of_ne_nil _ hnil]
    cases hbefore : before.entries.get? place.key with
    | some entry => rw [h.kept _ _ hbefore]
    | none =>
      cases hafter : after.entries.get? place.key with
      | none => rfl
      | some entry =>
        cases entry with
        | directory => rfl
        | file content => simp [h.file _ _ hafter] at hbefore

-- ---------------------------------------------------------------------------
-- Making a directory
-- ---------------------------------------------------------------------------

theorem makeDirectory_outcome {start : Place} {names : List String}
    (h : files.makeDirectory start names = .ok made) :
    ∃ above name blanks place, names = above ++ name :: blanks ∧
      (∀ blank ∈ blanks, blank = "") ∧ files.walk start (above ++ ["."]) = .ok place ∧
      Descends name ∧ files.entry? (place ++ [name]) = none ∧
      made = { files with
        entries := files.entries.insert (Place.key (place ++ [name])) .directory } := by
  unfold makeDirectory at h
  split at h
  · cases h
  · rename_i name before hnames
    obtain ⟨place, hplace, h⟩ := bind_ok.mp h
    simp only [bind, Except.bind] at h
    split at h
    · cases h
    · rename_i hdots
      split at h
      · cases h
      · rename_i hshort
        split at h
        · cases h
        · rename_i hentry
          have hsplit := names.reverse.takeWhile_append_dropWhile (p := (· == ""))
          rw [hnames] at hsplit
          have hnotEmpty : name ≠ "" := by
            have hhead := List.head?_dropWhile_not (· == "") names.reverse
            rw [hnames] at hhead
            simpa using hhead
          refine ⟨before.reverse, name, (names.reverse.takeWhile (· == "")).reverse, place, ?_, ?_,
            hplace, ⟨?_, ?_, hshort⟩, by simpa using hentry, (Except.ok.inj h).symm⟩
          · simpa using (congrArg List.reverse hsplit).symm
          · intro blank hblank
            simpa using List.mem_takeWhile_imp (List.mem_reverse.mp hblank)
          · tauto
          · tauto

theorem grown_makeDirectory {start : Place} {names : List String}
    (h : files.makeDirectory start names = .ok made) : Grown files made := by
  obtain ⟨above, name, blanks, place, -, -, -, -, hentry, rfl⟩ := makeDirectory_outcome h
  rw [entry?_append] at hentry
  refine ⟨rfl, fun key entry hkey => ?_, fun key content hkey => ?_⟩
  · refine (Table.get?_insert ..).trans ((if_neg ?_).trans hkey)
    rintro rfl
    simp [hkey] at hentry
  · have hinserted := (Table.get?_insert ..).symm.trans hkey
    split at hinserted
    · cases hinserted
    · exact hinserted

theorem walk_of_makeDirectory {start : Place} {names : List String}
    (h : files.makeDirectory start names = .ok made) :
    ∃ place, made.walk start (names ++ ["."]) = .ok place := by
  have hkeeps := (grown_makeDirectory h).keeps
  obtain ⟨above, name, blanks, place, rfl, hblanks, hplace, hname, -, hmade⟩ :=
    makeDirectory_outcome h
  have hentry : made.entry? (place ++ [name]) = some .directory := by
    rw [entry?_append, hmade]
    exact Table.get?_insert_self ..
  refine ⟨place ++ [name], ?_⟩
  rw [List.append_assoc, List.cons_append, walk_append _ _ _ (List.cons_ne_nil _ _),
    hkeeps.walk hplace]
  exact walk_of_directory hname hentry hblanks

-- ---------------------------------------------------------------------------
-- Making the directories above
-- ---------------------------------------------------------------------------

theorem grown_makeFirst (files : Files) (start : Place) (paths : List (List String)) :
    Grown files (files.makeFirst start paths).2 := by
  induction paths generalizing files with
  | nil => exact .refl files
  | cons names above ih =>
    -- whether a failure is settled or not, no directory is made by it
    have hsettled (current : Files) (e : FileError) :
        (if e = .alreadyExists ∧ current.hasDirectory start names then
          ((.ok (), current) : Except FileError Unit × Files) else (.error e, current)).2 =
            current := by
      split <;> rfl
    rw [makeFirst]
    split
    · rename_i hmade
      exact grown_makeDirectory hmade
    · have habove := ih files
      split
      · rename_i hfailed
        rwa [hfailed] at habove
      · rename_i hdone
        rw [hdone] at habove
        split
        · rename_i hmade
          exact habove.trans (grown_makeDirectory hmade)
        · rw [hsettled]
          exact habove
    · rw [hsettled]
      exact .refl files

theorem grown_makeDirectories (files : Files) (path : String) :
    Grown files (files.makeDirectories path).2 := by
  unfold makeDirectories
  split
  · exact .refl files
  · split
    · exact .refl files
    · exact grown_makeFirst ..

theorem walk_of_makeFirst {start : Place} {names : List String} {above : List (List String)}
    (h : files.makeFirst start (names :: above) = (.ok (), made)) :
    ∃ place, made.walk start (names ++ ["."]) = .ok place := by
  -- a failure is settled only where the directory is there
  have hsettled {current : Files} {e : FileError}
      (h : (if e = .alreadyExists ∧ current.hasDirectory start names then
        ((.ok (), current) : Except FileError Unit × Files) else (.error e, current)) =
          (.ok (), made)) : ∃ place, made.walk start (names ++ ["."]) = .ok place := by
    split at h
    · rename_i hthere
      cases h
      cases hwalk : made.walk start (names ++ ["."]) with
      | ok place => exact ⟨place, rfl⟩
      | error e => simp [hasDirectory, hwalk, Except.isOk, Except.toBool] at hthere
    · cases h
  rw [makeFirst] at h
  split at h
  · rename_i hmade
    cases h
    exact walk_of_makeDirectory hmade
  · split at h
    · cases h
    · split at h
      · rename_i hmade
        cases h
        exact walk_of_makeDirectory hmade
      · exact hsettled h
  · exact hsettled h

theorem inside_of_makeDirectories (h : files.makeDirectories directory = (.ok (), made)) :
    ∃ place, made.inside directory = .ok place := by
  have hhome : made.home = files.home := by
    have hgrown := files.grown_makeDirectories directory
    rw [h] at hgrown
    exact hgrown.home
  unfold makeDirectories at h
  unfold inside
  split at h
  · rename_i hempty
    subst hempty
    exact ⟨_, rfl⟩
  · split at h
    · cases h
    · obtain ⟨above, habove⟩ := Path.ancestors_eq (Path.names_ne_nil directory)
      rw [habove] at h
      obtain ⟨place, hplace⟩ := walk_of_makeFirst h
      have hstart : made.start directory = files.start directory := by
        rw [start, hhome, start]
      rw [hstart]
      rcases Path.names_eq_above ‹_› with hnames | hnames <;> rw [hnames] at hplace
      · exact ⟨place, hplace⟩
      · rw [List.append_assoc, List.singleton_append,
          walk_append _ _ _ (List.cons_ne_nil _ _)] at hplace
        obtain ⟨found, hfound, -⟩ := bind_ok.mp hplace
        exact ⟨found, hfound⟩

-- ---------------------------------------------------------------------------
-- Files in a directory that is made
-- ---------------------------------------------------------------------------

/-- The directory is there, or it can be made in a tree whose entries all lie in
directories, at a path that never steps back. -/
def Opens (files : Files) (directory : String) : Prop :=
  (∃ place, files.inside directory = .ok place) ∨
    files.Grounded ∧ ".." ∉ Path.names directory

theorem Opens.inside (h : files.Opens directory) (hgrown : Grown files made)
    (hinside : made.inside directory = .ok place)
    (hentry : files.entry? (place ++ [name]) = some (.file content)) (hname : IsName name) :
    files.inside directory = .ok place := by
  rcases h with ⟨found, hfound⟩ | ⟨hgrounded, hdown⟩
  · rwa [(hgrown.keeps.inside hfound).symm.trans hinside] at hfound
  · have hplace : files.entry? place = some .directory :=
      hgrounded place name hname.single (by rw [hentry]; rfl)
    have hdown' : ".." ∉ Path.above directory ++ ["."] := by
      simpa using mt Path.mem_names_of_mem_above hdown
    have hnames : ∀ name ∈ Path.above directory ++ ["."], '/' ∉ name.toList := by
      intro name hname
      rcases List.mem_append.mp hname with habove | hlast
      · exact Path.not_mem_of_mem_names (Path.mem_names_of_mem_above habove)
      · obtain rfl := List.mem_singleton.mp hlast
        decide
    unfold Files.inside at hinside ⊢
    rw [hgrown.keeps.start] at hinside
    exact walk_of_walks (hgrounded.walks (walks_of_walk hinside) hdown' hnames hplace)

theorem Opens.content?_grown (h : files.Opens directory) (hgrown : Grown files made)
    (hname : IsName name) :
    made.content? (Path.join directory name) = files.content? (Path.join directory name) := by
  by_cases hfound : ∃ place, files.inside directory = .ok place
  · obtain ⟨place, hplace⟩ := hfound
    exact content?_join_congr hname hplace (hgrown.keeps.inside hplace) (hgrown.content? _)
  · have hfiles : files.content? (Path.join directory name) = none := by
      rcases files.content?_join directory hname with hnone | ⟨place, hinside, -⟩
      · exact hnone
      · exact absurd ⟨place, hinside⟩ hfound
    rcases made.content?_join directory hname with hnone | ⟨place, hinside, hcontent⟩
    · rw [hnone, hfiles]
    · -- a directory that can be opened only now has no file in it
      rw [hcontent, hgrown.content?, hfiles]
      cases hentry : files.entry? (place ++ [name]) with
      | none => rfl
      | some entry =>
        cases entry with
        | directory => rfl
        | file content => exact absurd ⟨place, h.inside hgrown hinside hentry hname⟩ hfound

theorem Opens.of_edits (h : Edits files after (place ++ [name]))
    (hinside : files.inside directory = .ok place) : after.Opens directory :=
  .inl ⟨place, h.keeps.inside hinside⟩

-- ---------------------------------------------------------------------------
-- Trees that begin with a home
-- ---------------------------------------------------------------------------

theorem entry?_of_key_append {other : Place} {a b : String} (ha : '/' ∉ a.toList)
    (hb : '/' ∉ b.toList) (h : (place ++ [a]).key = (other ++ [b]).key) (files : Files) :
    files.entry? place = files.entry? other := by
  by_cases hplace : place = [] <;> by_cases hother : other = []
  · rw [hplace, hother]
  · rw [hplace, List.nil_append, Place.key_singleton, Place.key_append hother] at h
    exact absurd (by simp [h]) ha
  · rw [hother, List.nil_append, Place.key_singleton, Place.key_append hplace] at h
    exact absurd (by simp [← h]) hb
  · rw [Place.key_append hplace, Place.key_append hother] at h
    have hlists : place.key.toList ++ '/' :: a.toList = other.key.toList ++ '/' :: b.toList := by
      simpa using congrArg String.toList h
    have hlast := congrArg (Text.afterLast? '/') hlists
    simp only [Text.afterLast?_append, Text.afterLast?_of_not_mem ha,
      Text.afterLast?_of_not_mem hb, Option.getD_none, Option.some.injEq] at hlast
    rw [hlast] at hlists
    have hkeys : place.key = other.key :=
      String.toList_inj.mp (List.append_cancel_right hlists)
    rw [entry?_of_ne_nil _ hplace, entry?_of_ne_nil _ hother, hkeys]

theorem Grounded.insert (h : files.Grounded) (hplace : files.entry? place = some .directory)
    (hname : '/' ∉ name.toList) :
    let made := { files with entries := files.entries.insert (place ++ [name]).key .directory }
    made.Grounded ∧ made.entry? (place ++ [name]) = some .directory := by
  intro made
  have hget (key : String) : made.entries.get? key =
      if (place ++ [name]).key = key then some .directory else files.entries.get? key :=
    Table.get?_insert ..
  have hkept (other : Place) (hother : files.entry? other = some .directory) :
      made.entry? other = some .directory := by
    by_cases hnil : other = []
    · exact hnil ▸ rfl
    · rw [entry?_of_ne_nil _ hnil] at hother ⊢
      rw [hget]
      split
      · rfl
      · exact hother
  refine ⟨fun other a ha hsome => hkept other ?_, ?_⟩
  · rw [entry?_append, hget] at hsome
    split at hsome
    · rename_i hkey
      rw [← hplace]
      exact (entry?_of_key_append hname ha hkey files).symm
    · rw [← entry?_append] at hsome
      exact h other a ha hsome
  · rw [entry?_append, hget, if_pos rfl]

theorem grounded_along {home : Place} {entries : Table FileEntry} {names : List String}
    (h : Files.Grounded { home, entries })
    (hplace : Files.entry? { home, entries } place = some .directory)
    (hnames : ∀ name ∈ names, '/' ∉ name.toList) :
    Files.Grounded {
      home
      entries := ((along place names).map fun place => (Place.key place, FileEntry.directory)).foldl
        (fun entries entry => entries.insert entry.1 entry.2) entries } := by
  induction names generalizing place entries with
  | nil => exact h
  | cons name rest ih =>
    obtain ⟨hname, hrest⟩ := List.forall_mem_cons.mp hnames
    obtain ⟨hgrounded, hentry⟩ := h.insert hplace hname
    exact ih hgrounded hentry hrest

theorem grounded_ofHome {home : Place} (hhome : ∀ name ∈ home, '/' ∉ name.toList) :
    (ofHome home).Grounded := by
  have hempty : Files.Grounded { home, entries := ∅ } := by
    intro place name hname hsome
    rw [entry?_append] at hsome
    cases hsome
  have hroot : Files.entry? { home, entries := ∅ } [] = some .directory := rfl
  exact grounded_along hempty hroot hhome

end Files

end FeatureFlow
