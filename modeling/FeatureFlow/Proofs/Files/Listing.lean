import FeatureFlow.Proofs.Files.Making
import Mathlib.Data.List.Nodup

/-!
# Listing a directory

In a tree whose home is there (`Housed`), a directory to which names can be joined can also
be listed, and what can be read in it is in the listing, once (`list_of_content?`,
`nodup_of_list`). The empty path is the exception: names are joined to it, but it cannot be
listed.
-/

namespace FeatureFlow

namespace Files

open FeatureFlow.Path (IsName)
open Fallible (bind_ok)

variable {files before after made : Files} {place found : Place} {names listed : List String}
  {directory name key : String} {content : ByteArray}

-- ---------------------------------------------------------------------------
-- Trees with a home
-- ---------------------------------------------------------------------------

def Standing (files : Files) (place : Place) : Prop :=
  ∀ above, above <+: place → files.entry? above = some .directory

/-- The home directory and all above it are there. -/
def Housed (files : Files) : Prop :=
  files.Standing files.home

theorem Standing.append (h : files.Standing place)
    (hentry : files.entry? (place ++ [name]) = some .directory) :
    files.Standing (place ++ [name]) := by
  intro above habove
  rcases List.prefix_concat_iff.mp habove with rfl | habove
  · exact hentry
  · exact h above habove

theorem Housed.keeps (h : before.Housed) (hkeeps : Keeps before after) : after.Housed :=
  fun above habove => hkeeps.directory above (h above (hkeeps.home ▸ habove))

theorem mem_along {rest above : Place} (habove : above <+: rest) (hnil : above ≠ []) :
    place ++ above ∈ along place rest := by
  induction rest generalizing place above with
  | nil => exact absurd (List.prefix_nil.mp habove) hnil
  | cons name rest ih =>
    obtain ⟨first, above, rfl⟩ := List.exists_cons_of_ne_nil hnil
    obtain ⟨rfl, hrest⟩ := List.cons_prefix_cons.mp habove
    rw [along, List.mem_cons, List.append_cons]
    by_cases hlast : above = []
    · exact .inl (by simp [hlast])
    · exact .inr (ih hrest hlast)

theorem isSome_get?_of_mem_keys {fields : Fields α} (h : key ∈ fields.keys) :
    (Fields.get? key fields).isSome = true := by
  induction fields with
  | nil => cases h
  | cons field rest ih =>
    obtain ⟨k, value⟩ := field
    rw [Fields.get?]
    split
    · rfl
    · rename_i hne
      exact ih ((List.mem_cons.mp h).resolve_left (Ne.symm hne))

theorem housed_ofHome (home : Place) : (ofHome home).Housed := by
  intro above habove
  by_cases hnil : above = []
  · exact hnil ▸ rfl
  · have hknown : Place.key above ∈ Fields.keys
        ((along [] home).map fun place => (Place.key place, FileEntry.directory)).reverse := by
      rw [Fields.keys, List.map_reverse, List.mem_reverse, List.map_map]
      exact List.mem_map.mpr ⟨above, mem_along habove hnil, rfl⟩
    rw [entry?_of_ne_nil _ hnil, ofHome, Table.get?_ofList]
    -- all entries are directories
    obtain ⟨entry, hentry⟩ := Option.isSome_iff_exists.mp (isSome_get?_of_mem_keys hknown)
    obtain ⟨_, -, h⟩ := List.mem_map.mp (List.mem_reverse.mp (Fields.mem_of_get? hentry))
    rw [hentry, ← (Prod.mk.inj h).2]

-- ---------------------------------------------------------------------------
-- Walks into directories
-- ---------------------------------------------------------------------------

theorem walk_of_walk_into (h : files.walk place (names ++ ["."]) = .ok found) :
    files.walk place names = .ok found := by
  induction names generalizing place with
  | nil => simpa [walk] using h
  | cons name rest ih =>
    have hdot : (rest ++ ["."]).isEmpty = false := by simp
    rw [List.cons_append, walk, hdot] at h
    rw [walk]
    split at h
    · rename_i hskipped
      rw [if_pos hskipped]
      exact ih h
    · rename_i hnamed
      rw [if_neg hnamed]
      split at h
      · rename_i habove
        rw [if_pos habove]
        exact ih h
      · rename_i hdown
        rw [if_neg hdown]
        split at h
        · cases h
        · rename_i hshort
          rw [if_neg hshort]
          simp only [Bool.false_eq_true, if_false] at h
          split at h
          · rename_i hentry
            have hrest := ih h
            cases rest with
            | nil => exact hrest
            | cons next rest => simpa [hentry] using hrest
          · cases h
          · cases h

theorem Walks.standing (h : files.Walks place names found) (hplace : files.Standing place)
    (hlast : ∀ name, names.getLast? = some name → name = ".") : files.Standing found := by
  have hrest {name : String} {rest : List String}
      (hlast : ∀ last, (name :: rest).getLast? = some last → last = ".") :
      ∀ last, rest.getLast? = some last → last = "." :=
    fun last h => hlast last (by rw [List.getLast?_cons, h, Option.getD_some])
  induction h with
  | arrives => exact hplace
  | skips _ _ ih => exact ih hplace (hrest hlast)
  | rises _ ih => exact ih (fun _ h => hplace _ (h.trans (List.dropLast_prefix _))) (hrest hlast)
  | ends hname => exact absurd (.inr (hlast _ rfl)) hname.named
  | enters _ hentry _ ih => exact ih (hplace.append hentry) (hrest hlast)

theorem Housed.start (h : files.Housed) (path : String) : files.Standing (files.start path) := by
  unfold Files.start
  split
  · rintro above habove
    rw [List.prefix_nil.mp habove]
    rfl
  · exact h

theorem Housed.inside (h : files.Housed) (hinside : files.inside directory = .ok place) :
    files.entry? place = some .directory := by
  refine (walks_of_walk hinside).standing (h.start directory) (fun name hname => ?_) place
    (List.prefix_refl place)
  simpa [eq_comm] using hname

-- ---------------------------------------------------------------------------
-- Listings
-- ---------------------------------------------------------------------------

theorem below?_eq_some : below? place key = some name ↔ key = Place.key (place ++ [name]) := by
  unfold below?
  split
  · rw [List.nil_append, Place.key_singleton, Option.some_inj]
  · rename_i hplace
    rw [Place.key_append hplace, Option.map_eq_some_iff]
    constructor
    · rintro ⟨rest, hrest, rfl⟩
      exact String.toList_inj.mp (by simpa using Text.after?_eq_some hrest)
    · rintro rfl
      exact ⟨name.toList, by simp [Text.after?], String.ofList_toList⟩

/-- The entries of a directory with a name of their own. -/
def listing (files : Files) (place : Place) : List String :=
  (files.entries.keys.filterMap (below? place)).filter fun name => !name.toList.contains '/'

theorem mem_listing :
    name ∈ files.listing place ↔
      '/' ∉ name.toList ∧ (files.entry? (place ++ [name])).isSome = true := by
  rw [entry?_append, ← Table.mem_keys_iff]
  simp [listing, below?_eq_some, and_comm]

theorem nodup_listing (files : Files) (place : Place) : (files.listing place).Nodup := by
  refine (files.entries.nodup_keys.filterMap fun a b name ha hb => ?_).filter _
  exact (below?_eq_some.mp ha).trans (below?_eq_some.mp hb).symm

theorem list_of_inside (h : files.Housed) (hdirectory : directory ≠ "")
    (hcheck : checkPath directory = .ok ()) (hinside : files.inside directory = .ok place) :
    files.list directory = .ok (files.listing place) := by
  have hwalk : files.walk (files.start directory) (Path.names directory) = .ok place := by
    rcases Path.names_eq_above hdirectory with hnames | hnames <;> rw [hnames]
    · exact walk_of_walk_into hinside
    · -- the empty name at the end counts as little as the dot
      rw [walk_append _ _ _ (List.cons_ne_nil _ _)]
      exact bind_ok.mpr ⟨place, hinside, rfl⟩
  have hlocate : files.locate directory = .ok place := bind_ok.mpr ⟨(), hcheck, hwalk⟩
  refine bind_ok.mpr ⟨place, hlocate, ?_⟩
  rw [h.inside hinside]
  rfl

theorem join_eq_append (hdirectory : directory ≠ "") (hsingle : '/' ∉ name.toList) :
    ∃ rest, Path.join directory name = directory ++ rest := by
  have hname := Path.not_isPrefixOf_of_not_mem hsingle
  unfold Path.join
  rw [if_neg (not_or.mpr ⟨hname, hdirectory⟩)]
  split
  · exact ⟨name, rfl⟩
  · exact ⟨"/" ++ name, String.append_assoc ..⟩

theorem checkPath_of_join (hdirectory : directory ≠ "") (hsingle : '/' ∉ name.toList)
    (h : checkPath (Path.join directory name) = .ok ()) : checkPath directory = .ok () := by
  obtain ⟨rest, hjoin⟩ := join_eq_append hdirectory hsingle
  rw [hjoin, checkPath] at h
  split at h
  · cases h
  rename_i hnul
  split at h
  · cases h
  split at h
  · cases h
  rename_i hlength
  rw [String.utf8ByteSize_append] at hlength
  have hnul' : ¬directory.toList.contains '\x00' = true := by
    simp only [String.toList_append, List.contains_iff_mem, List.mem_append, not_or] at hnul ⊢
    exact hnul.1
  rw [checkPath, if_neg hnul', if_neg hdirectory, if_neg (by omega)]

theorem list_of_content? (h : files.Housed) (hdirectory : directory ≠ "") (hname : IsName name)
    (hcontent : (files.content? (Path.join directory name)).isSome = true) :
    ∃ listed, files.list directory = .ok listed ∧ name ∈ listed := by
  cases hlocate : files.locate (Path.join directory name) with
  | error e => simp [content?_of_error hlocate] at hcontent
  | ok found =>
    obtain ⟨place, hinside, rfl⟩ := inside_of_locate hname hlocate
    obtain ⟨_, hcheck, -⟩ := bind_ok.mp hlocate
    have hlist := list_of_inside h hdirectory (checkPath_of_join hdirectory hname.single hcheck)
      hinside
    refine ⟨_, hlist, mem_listing.mpr ⟨hname.single, ?_⟩⟩
    rw [content?_of_locate hlocate] at hcontent
    cases hentry : files.entry? (place ++ [name]) with
    | none => simp [hentry] at hcontent
    | some entry => rfl

theorem nodup_of_list (h : files.list directory = .ok listed) : listed.Nodup := by
  obtain ⟨place, -, h⟩ := bind_ok.mp h
  split at h
  · obtain rfl := Except.ok.inj h
    exact files.nodup_listing place
  · cases h
  · cases h

end Files

end FeatureFlow
