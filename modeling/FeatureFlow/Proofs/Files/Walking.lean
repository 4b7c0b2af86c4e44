import FeatureFlow.Files
import FeatureFlow.Proofs.Cutting
import FeatureFlow.Proofs.Fallible
import Mathlib.Data.List.Basic

/-!
# Walking to a directory

A name without a slash that is joined to a directory is looked up in one place, the one
that the directory stands for (`locate_join`). A walk only asks which places are
directories, so it stays good as long as no directory goes (`Keeps`), and in a tree where
every entry lies in a directory (`Grounded`) a walk that never steps back finds every
directory that is there.
-/

namespace FeatureFlow

-- ---------------------------------------------------------------------------
-- Joined paths
-- ---------------------------------------------------------------------------

namespace Path

variable {directory name : String}

structure IsName (name : String) : Prop where
  single : '/' ∉ name.toList
  notEmpty : name ≠ ""
  notHere : name ≠ "."
  notAbove : name ≠ ".."

def above (directory : String) : List String :=
  if directory = "" then []
  else if "/".toList.isSuffixOf directory.toList then (names directory).dropLast
  else names directory

theorem isPrefixOf_slash (path : String) :
    "/".isPrefixOf path = true ↔ path.toList.head? = some '/' := by
  rw [String.isPrefixOf, String.startsWith_string_iff]
  have hslash : "/".toList = ['/'] := rfl
  rw [hslash]
  cases path.toList with
  | nil => simp
  | cons c rest => simp [List.cons_prefix_cons, eq_comm]

theorem not_isPrefixOf_of_not_mem (h : '/' ∉ name.toList) : ¬"/".isPrefixOf name = true := by
  rw [isPrefixOf_slash]
  exact fun hhead => h (List.mem_of_head? hhead)

theorem not_mem_of_mem_names {path : String} (h : name ∈ names path) : '/' ∉ name.toList := by
  obtain ⟨piece, hpiece, rfl⟩ := List.mem_map.mp h
  rw [String.toList_ofList]
  exact Text.not_mem_of_mem_splitAt hpiece

theorem mem_names_of_mem_above (h : name ∈ above directory) : name ∈ names directory := by
  unfold above at h
  split at h
  · cases h
  · split at h
    · exact List.dropLast_subset _ h
    · exact h

theorem names_ne_nil (path : String) : names path ≠ [] := by
  simpa [names] using Text.splitAt_ne_nil '/' path.toList

/-- A slash at the end of a directory has an empty name behind it. -/
theorem names_eq_above (h : directory ≠ "") :
    names directory = above directory ∨ names directory = above directory ++ [""] := by
  unfold above
  rw [if_neg h]
  split
  · rename_i hends
    obtain ⟨first, hfirst⟩ := List.isSuffixOf_iff_suffix.mp hends
    have hdirectory : directory.toList = first ++ '/' :: [] := hfirst.symm
    right
    simp [names, hdirectory, Text.splitAt_append, Text.splitAt]
  · exact .inl rfl

theorem climb_ne_nil {names : List String} (h : names ≠ []) : climb names ≠ [] := by
  fun_induction climb names with
  | case1 => exact absurd rfl h
  | case2 first => exact List.cons_ne_nil _ _
  | case3 name before hskipped hskip ih => exact ih fun hnil => hskipped hnil
  | case4 => exact List.cons_ne_nil _ _

theorem ancestors_eq {names : List String} (h : names ≠ []) :
    ∃ above, ancestors names = names :: above := by
  unfold ancestors
  split
  · rename_i hnone
    exact absurd hnone (climb_ne_nil (mt List.reverse_eq_nil_iff.mp h))
  · exact ⟨_, rfl⟩

theorem names_join (h : '/' ∉ name.toList) :
    names (join directory name) = above directory ++ [name] := by
  have hname : Text.splitAt '/' name.toList = [name.toList] := Text.splitAt_of_not_mem h
  have hstarts := not_isPrefixOf_of_not_mem h
  unfold join above
  by_cases hempty : directory = ""
  · simp [hempty, names, hname]
  · simp only [hstarts, hempty, or_self, if_false, Bool.false_eq_true]
    split
    · rename_i hends
      obtain ⟨first, hfirst⟩ := List.isSuffixOf_iff_suffix.mp hends
      have hdirectory : directory.toList = first ++ '/' :: [] := hfirst.symm
      have hjoined : (directory ++ name).toList = first ++ '/' :: name.toList := by
        simp [hdirectory]
      simp [names, hdirectory, hjoined, Text.splitAt_append, hname, Text.splitAt]
    · have hjoined : (directory ++ "/" ++ name).toList =
          directory.toList ++ '/' :: name.toList := by simp
      simp [names, hjoined, Text.splitAt_append, hname]

theorem isPrefixOf_join (h : '/' ∉ name.toList) :
    "/".isPrefixOf (join directory name) = true ↔ "/".isPrefixOf directory = true := by
  have hname := not_isPrefixOf_of_not_mem h
  unfold join
  by_cases hempty : directory = ""
  · subst hempty
    simp only [or_true, if_true]
    exact ⟨fun h => absurd h hname, fun h => absurd h (by decide)⟩
  · have hdirectory : directory.toList ≠ [] := by simpa using hempty
    simp only [hname, hempty, or_self, if_false, Bool.false_eq_true]
    split <;> simp [isPrefixOf_slash, List.head?_append, List.head?_eq_some_head hdirectory]

end Path

-- ---------------------------------------------------------------------------
-- Places
-- ---------------------------------------------------------------------------

namespace Place

variable {place other : Place} {name : String}

theorem key_append (hplace : place ≠ []) (name : String) :
    key (place ++ [name]) = key place ++ "/" ++ name := by
  simp [key, Text.join, String.intercalate_append_of_ne_nil hplace]

theorem key_singleton (name : String) : key [name] = name := by
  simp [key, Text.join]

theorem key_append_inj {a b : String} : key (place ++ [a]) = key (place ++ [b]) ↔ a = b := by
  refine ⟨fun h => ?_, fun h => h ▸ rfl⟩
  by_cases hplace : place = []
  · simpa [hplace, key_singleton] using h
  · rw [key_append hplace, key_append hplace] at h
    exact String.toList_inj.mp (by simpa using congrArg String.toList h)

end Place

namespace Files

open FeatureFlow.Path (IsName)
open Fallible (bind_ok)

theorem entry?_append (files : Files) (place : Place) (name : String) :
    files.entry? (place ++ [name]) = files.entries.get? (Place.key (place ++ [name])) := by
  unfold entry?
  split
  · simp_all
  · rfl

-- ---------------------------------------------------------------------------
-- Walks
-- ---------------------------------------------------------------------------

structure Descends (name : String) : Prop where
  named : ¬(name = "" ∨ name = ".")
  down : name ≠ ".."
  short : ¬nameLimit < name.utf8ByteSize

inductive Walks (files : Files) : Place → List String → Place → Prop
  | arrives {place : Place} : Walks files place [] place
  | skips {place found : Place} {name : String} {rest : List String}
      (hskipped : name = "" ∨ name = ".") (hrest : Walks files place rest found) :
      Walks files place (name :: rest) found
  | rises {place found : Place} {rest : List String}
      (hrest : Walks files place.dropLast rest found) : Walks files place (".." :: rest) found
  | ends {place : Place} {name : String} (hname : Descends name) :
      Walks files place [name] (place ++ [name])
  | enters {place found : Place} {name next : String} {rest : List String}
      (hname : Descends name) (hentry : files.entry? (place ++ [name]) = some .directory)
      (hrest : Walks files (place ++ [name]) (next :: rest) found) :
      Walks files place (name :: next :: rest) found

variable {files before after : Files} {place found : Place} {names : List String}
  {directory name : String}

theorem walk_of_walks (h : files.Walks place names found) :
    files.walk place names = .ok found := by
  induction h with
  | arrives => rfl
  | skips hskipped _ ih => rw [walk, if_pos hskipped, ih]
  | rises _ ih => exact ih
  | ends hname => simp [walk, hname.named, hname.down, hname.short]
  | enters hname hentry _ ih =>
    rw [walk, if_neg hname.named, if_neg hname.down, if_neg hname.short]
    simpa [hentry] using ih

theorem walks_of_walk (h : files.walk place names = .ok found) :
    files.Walks place names found := by
  induction names generalizing place with
  | nil =>
    obtain rfl := Except.ok.inj h
    exact .arrives
  | cons name rest ih =>
    by_cases hskipped : name = "" ∨ name = "."
    · rw [walk, if_pos hskipped] at h
      exact .skips hskipped (ih h)
    · by_cases habove : name = ".."
      · subst habove
        exact .rises (ih h)
      · rw [walk, if_neg hskipped, if_neg habove] at h
        split at h
        · cases h
        · rename_i hshort
          have hname : Descends name := ⟨hskipped, habove, hshort⟩
          cases rest with
          | nil =>
            obtain rfl := Except.ok.inj h
            exact .ends hname
          | cons next rest =>
            simp only [List.isEmpty_cons, Bool.false_eq_true, if_false] at h
            split at h
            · rename_i hentry
              exact .enters hname hentry (ih h)
            · cases h
            · cases h

theorem walk_append (files : Files) (place : Place) (names : List String) {more : List String}
    (hmore : more ≠ []) :
    files.walk place (names ++ more) =
      files.walk place (names ++ ["."]) >>= fun place => files.walk place more := by
  induction names generalizing place with
  | nil => simp only [List.nil_append, walk, or_true, if_true, bind, Except.bind]
  | cons first rest ih =>
    have hrest : (rest ++ more).isEmpty = false := by simp [hmore]
    have hdot : (rest ++ ["."]).isEmpty = false := by simp
    simp only [List.cons_append, walk, hrest, hdot, Bool.false_eq_true, if_false, ih]
    split
    · rfl
    · split
      · rfl
      · split
        · rfl
        · split <;> rfl

/-- The last name of a walk may be missing. -/
theorem walk_singleton (files : Files) (place : Place) (h : IsName name) :
    files.walk place [name] =
      if nameLimit < name.utf8ByteSize then .error .nameTooLong else .ok (place ++ [name]) := by
  have hlast : ¬(name = "" ∨ name = ".") := fun h' => h'.elim h.notEmpty h.notHere
  simp [walk, hlast, h.notAbove]

theorem walk_of_directory {blanks : List String} (hname : Descends name)
    (hentry : files.entry? (place ++ [name]) = some .directory)
    (hblanks : ∀ blank ∈ blanks, blank = "") :
    files.walk place (name :: (blanks ++ ["."])) = .ok (place ++ [name]) := by
  have hrest : files.walk (place ++ [name]) (blanks ++ ["."]) = .ok (place ++ [name]) := by
    clear hentry
    induction blanks with
    | nil => rfl
    | cons blank rest ih =>
      obtain ⟨rfl, hrest⟩ := List.forall_mem_cons.mp hblanks
      exact ih hrest
  rw [walk, if_neg hname.named, if_neg hname.down, if_neg hname.short]
  simpa [hentry] using hrest

-- ---------------------------------------------------------------------------
-- Names in a directory
-- ---------------------------------------------------------------------------

def inside (files : Files) (directory : String) : Except FileError Place :=
  files.walk (files.start directory) (Path.above directory ++ ["."])

theorem start_join (h : '/' ∉ name.toList) :
    files.start (Path.join directory name) = files.start directory := by
  unfold start
  simp only [Path.isPrefixOf_join h]

theorem locate_join (files : Files) (directory : String) (h : IsName name) :
    files.locate (Path.join directory name) =
      checkPath (Path.join directory name) >>= fun _ => files.inside directory >>= fun place =>
        if nameLimit < name.utf8ByteSize then .error .nameTooLong else .ok (place ++ [name]) := by
  unfold locate inside
  rw [start_join h.single, Path.names_join h.single, walk_append _ _ _ (List.cons_ne_nil _ _)]
  simp only [walk_singleton _ _ h]

theorem inside_of_locate (h : IsName name)
    (hlocate : files.locate (Path.join directory name) = .ok found) :
    ∃ place, files.inside directory = .ok place ∧ found = place ++ [name] := by
  rw [locate_join files directory h] at hlocate
  obtain ⟨_, -, hinside⟩ := bind_ok.mp hlocate
  obtain ⟨place, hplace, hfound⟩ := bind_ok.mp hinside
  split at hfound
  · cases hfound
  · exact ⟨place, hplace, (Except.ok.inj hfound).symm⟩

theorem not_mem_of_mem_list {path : String} {listed : List String}
    (hlisted : files.list path = .ok listed) (hname : name ∈ listed) : '/' ∉ name.toList := by
  obtain ⟨place, -, hlisted⟩ := bind_ok.mp hlisted
  split at hlisted
  · obtain rfl := Except.ok.inj hlisted
    simpa using (List.mem_filter.mp hname).2
  · cases hlisted
  · cases hlisted

-- ---------------------------------------------------------------------------
-- Trees with the same directories
-- ---------------------------------------------------------------------------

structure Keeps (before after : Files) : Prop where
  home : after.home = before.home
  directory : ∀ place, before.entry? place = some .directory → after.entry? place = some .directory

theorem Keeps.refl (files : Files) : Keeps files files :=
  ⟨rfl, fun _ h => h⟩

theorem Keeps.trans (hfirst : Keeps files before) (hsecond : Keeps before after) :
    Keeps files after :=
  ⟨hsecond.home.trans hfirst.home, fun place h => hsecond.directory place (hfirst.directory place h)⟩

theorem Keeps.start (h : Keeps before after) (path : String) :
    after.start path = before.start path := by
  rw [Files.start, h.home]
  rfl

theorem Keeps.walks (h : Keeps before after) (hwalks : before.Walks place names found) :
    after.Walks place names found := by
  induction hwalks with
  | arrives => exact .arrives
  | skips hskipped _ ih => exact .skips hskipped ih
  | rises _ ih => exact .rises ih
  | ends hname => exact .ends hname
  | enters hname hentry _ ih => exact .enters hname (h.directory _ hentry) ih

theorem Keeps.walk (h : Keeps before after) (hwalk : before.walk place names = .ok found) :
    after.walk place names = .ok found :=
  walk_of_walks (h.walks (walks_of_walk hwalk))

theorem Keeps.inside (h : Keeps before after) (hinside : before.inside directory = .ok place) :
    after.inside directory = .ok place := by
  unfold Files.inside
  rw [h.start]
  exact h.walk hinside

theorem Keeps.locate {path : String} (h : Keeps before after)
    (hlocate : before.locate path = .ok place) : after.locate path = .ok place := by
  obtain ⟨_, hcheck, hwalk⟩ := bind_ok.mp hlocate
  rw [Files.locate, hcheck, h.start]
  exact h.walk hwalk

-- ---------------------------------------------------------------------------
-- Grounded trees
-- ---------------------------------------------------------------------------

/-- Every entry of the tree lies in a directory. -/
def Grounded (files : Files) : Prop :=
  ∀ (place : Place) (name : String), '/' ∉ name.toList →
    (files.entry? (place ++ [name])).isSome = true → files.entry? place = some .directory

theorem Grounded.directory_append (h : files.Grounded) (hnames : ∀ name ∈ names, '/' ∉ name.toList)
    (hentry : files.entry? (place ++ names) = some .directory) :
    files.entry? place = some .directory := by
  induction names generalizing place with
  | nil => simpa using hentry
  | cons first rest ih =>
    rw [List.append_cons] at hentry
    have hfirst := ih (fun name hname => hnames name (List.mem_cons_of_mem first hname)) hentry
    exact h place first (hnames first List.mem_cons_self) (by rw [hfirst]; rfl)

/-- A walk that never steps back only adds names to its place. -/
theorem Walks.eq_append (h : files.Walks place names found) (hdown : ".." ∉ names) :
    ∃ more, more ⊆ names ∧ found = place ++ more := by
  induction h with
  | arrives => exact ⟨[], List.nil_subset _, (List.append_nil _).symm⟩
  | skips _ _ ih =>
    obtain ⟨more, hmore, rfl⟩ := ih (mt (List.mem_cons_of_mem _) hdown)
    exact ⟨more, List.subset_cons_of_subset _ hmore, rfl⟩
  | rises => exact absurd List.mem_cons_self hdown
  | ends => exact ⟨_, List.Subset.refl _, rfl⟩
  | enters _ _ _ ih =>
    obtain ⟨more, hmore, rfl⟩ := ih (mt (List.mem_cons_of_mem _) hdown)
    exact ⟨_, List.cons_subset_cons _ hmore, (List.append_cons ..).symm⟩

/-- A directory that is there is found by every walk to it that goes only down. -/
theorem Grounded.walks (h : files.Grounded) (hwalks : after.Walks place names found)
    (hdown : ".." ∉ names) (hnames : ∀ name ∈ names, '/' ∉ name.toList)
    (hfound : files.entry? found = some .directory) : files.Walks place names found := by
  induction hwalks with
  | arrives => exact .arrives
  | skips hskipped _ ih =>
    exact .skips hskipped (ih (mt (List.mem_cons_of_mem _) hdown)
      (fun name hname => hnames name (List.mem_cons_of_mem _ hname)) hfound)
  | rises => exact absurd List.mem_cons_self hdown
  | ends hname => exact .ends hname
  | enters hname _ hrest ih =>
    have hdown' := mt (List.mem_cons_of_mem _) hdown
    have hnames' := fun name hname => hnames name (List.mem_cons_of_mem _ hname)
    obtain ⟨more, hmore, rfl⟩ := hrest.eq_append hdown'
    -- the directory that is entered lies on the way to the one that is found
    have hentry := h.directory_append (fun name hname => hnames' name (hmore hname)) hfound
    exact .enters hname hentry (ih hdown' hnames' hfound)

end Files

end FeatureFlow
