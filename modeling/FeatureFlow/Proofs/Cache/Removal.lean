import FeatureFlow.Proofs.Cache.Contents
import FeatureFlow.Proofs.Files.Listing

/-!
# Clean-ups of the cache

A clean-up removes the files that are named like another version of the feature, in which
there is no underscore, and no others, and counts them (`removeStale_outcome`). So of the
manifests that were stored it takes the stale versions of the feature (`removeStale_exact`).
A file does not tell a feature with an underscore from a version with one: the manifest of
such a version stays, and goes when it is named like a stale version of another feature
(`removeStale_other_pair`).
-/

namespace FeatureFlow

namespace Files

open Fallible (bind_ok)

/-- What can be read can be removed. -/
theorem isOk_remove (files : Files) (path : String) :
    (files.remove path).isOk = (files.content? path).isSome := by
  simp only [remove, content?, read, bind, Except.bind]
  cases files.locate path with
  | error e => rfl
  | ok place =>
    simp only
    cases files.entry? place with
    | none => rfl
    | some entry => cases entry <;> rfl

theorem Grown.content?_of_isSome {before after : Files} {path : String} (h : Grown before after)
    (hcontent : (before.content? path).isSome = true) : (after.content? path).isSome = true := by
  cases hlocate : before.locate path with
  | error e => simp [content?_of_error hlocate] at hcontent
  | ok place =>
    rw [content?_of_locate hlocate] at hcontent
    rw [content?_of_locate (h.keeps.locate hlocate), h.content?]
    exact hcontent

end Files

namespace Cache

open FeatureFlow.Path (IsName)

variable {c : Cache} {files after : Files} {feature version keep name body : String}
  {names : List String} {writes : List Write}

-- ---------------------------------------------------------------------------
-- Stale names
-- ---------------------------------------------------------------------------

/-- Named like another version of the feature, in which there is no underscore. -/
def Stale (feature keep name : String) : Prop :=
  ∃ version, '_' ∉ version.toList ∧ version ≠ keep ∧ name = fileName feature version

theorem versionOf?_fileName (feature : String) (h : '_' ∉ version.toList) :
    versionOf? feature (fileName feature version) = some version := by
  have hstart : Text.after? (feature ++ "_").toList (fileName feature version).toList =
      some (version.toList ++ ".json".toList) := by
    simp [Text.after?, toList_fileName]
  have hfinish : Text.before? ".json".toList (version.toList ++ ".json".toList) =
      some version.toList := by
    simp [Text.before?]
  rw [versionOf?, hstart, Option.bind_eq_bind, Option.bind_some, hfinish, Option.bind_some]
  simp [h]

theorem isStale_iff : isStale feature keep name = true ↔ Stale feature keep name := by
  constructor
  · intro h
    obtain ⟨version, hname, hsingle, hne⟩ := eq_fileName_of_isStale h
    exact ⟨version, hsingle, hne, hname⟩
  · rintro ⟨version, hsingle, hne, rfl⟩
    simpa [isStale, versionOf?_fileName feature hsingle] using hne

theorem stale_fileName_iff :
    Stale feature keep (fileName feature version) ↔
      version ≠ keep ∧ '_' ∉ version.toList := by
  constructor
  · rintro ⟨other, hsingle, hne, hname⟩
    have hversion : version = other :=
      String.toList_inj.mp (by simpa [toList_fileName] using congrArg String.toList hname)
    exact hversion ▸ ⟨hne, hsingle⟩
  · rintro ⟨hne, hsingle⟩
    exact ⟨version, hsingle, hne, rfl⟩

theorem stale_fileName_of_plain {other : String} (h : '_' ∉ version.toList) :
    Stale feature keep (fileName other version) ↔ other = feature ∧ version ≠ keep := by
  constructor
  · rintro ⟨found, hsingle, hne, hname⟩
    obtain ⟨rfl, rfl⟩ := (fileName_inj h hsingle).mp hname
    exact ⟨rfl, hne⟩
  · rintro ⟨rfl, hne⟩
    exact ⟨version, h, hne, rfl⟩

theorem isName_fileName (h : '/' ∉ feature.toList ∧ '/' ∉ version.toList) :
    IsName (fileName feature version) := by
  refine isName_of_underscore ?_ ?_ <;> simp [toList_fileName, h]

-- ---------------------------------------------------------------------------
-- Removing one after another
-- ---------------------------------------------------------------------------

def holds (c : Cache) (files : Files) (name : String) : Bool :=
  (files.content? (Path.join c.directory name)).isSome

/-- One step of a removal: the count and the files before it become those after it. -/
def removeOne (c : Cache) (found : Nat × Files) (name : String) : Nat × Files :=
  match found.2.remove (Path.join c.directory name) with
  | .ok after => (found.1 + 1, after)
  | .error _ => found

theorem count_removeOne (c : Cache) (found : Nat × Files) (name : String) :
    (c.removeOne found name).1 = found.1 + if c.holds found.2 name then 1 else 0 := by
  unfold removeOne holds
  rw [← Files.isOk_remove]
  cases found.2.remove (Path.join c.directory name) <;> rfl

theorem content?_removeOne {other : String} (found : Nat × Files) (hother : IsName other)
    (hname : IsName name) :
    (c.removeOne found other).2.content? (Path.join c.directory name) =
      if name = other then none else found.2.content? (Path.join c.directory name) := by
  unfold removeOne
  cases h : found.2.remove (Path.join c.directory other) with
  | ok after =>
    by_cases heq : name = other
    · rw [if_pos heq, heq]
      exact Files.content?_remove_self h
    · rw [if_neg heq]
      exact Files.content?_remove_of_ne hother hname heq h
  | error e =>
    by_cases heq : name = other
    · have hnone := found.2.isOk_remove (Path.join c.directory other)
      rw [h] at hnone
      rw [if_pos heq, heq]
      exact Option.not_isSome_iff_eq_none.mp (ne_true_of_eq_false hnone.symm)
    · rw [if_neg heq]

theorem foldl_removeOne (hnames : ∀ name ∈ names, IsName name) (hnodup : names.Nodup)
    (found : Nat × Files) :
    (names.foldl c.removeOne found).1 = found.1 + names.countP (c.holds found.2) ∧
      ∀ name, IsName name →
        (names.foldl c.removeOne found).2.content? (Path.join c.directory name) =
          if name ∈ names then none else found.2.content? (Path.join c.directory name) := by
  induction names generalizing found with
  | nil => simp
  | cons first rest ih =>
    obtain ⟨hfirst, hrest⟩ := List.forall_mem_cons.mp hnames
    obtain ⟨hnew, hnodup⟩ := List.nodup_cons.mp hnodup
    obtain ⟨hcount, hcontent⟩ := ih hrest hnodup (c.removeOne found first)
    -- the first removal leaves the files of the other names
    have hsame : rest.countP (c.holds (c.removeOne found first).2) =
        rest.countP (c.holds found.2) := by
      refine List.countP_congr fun name hname => ?_
      have hne : name ≠ first := fun heq => hnew (heq ▸ hname)
      simp only [holds, content?_removeOne found hfirst (hrest name hname), if_neg hne]
    rw [List.foldl_cons]
    constructor
    · rw [hcount, hsame, count_removeOne, List.countP_cons, Nat.add_assoc, Nat.add_comm (ite ..)]
    · intro name hname
      rw [hcontent name hname, content?_removeOne found hfirst hname]
      by_cases heq : name = first <;> simp [heq]

theorem listed_of_stale (hdirectory : c.directory ≠ "") (hhoused : files.Housed)
    (hsingle : '/' ∉ name.toList) (hstale : Stale feature keep name)
    (hholds : c.holds files name = true) :
    ∃ listed, files.list c.directory = .ok listed ∧ name ∈ listed :=
  Files.list_of_content? hhoused hdirectory (isName_of_isStale hsingle (isStale_iff.mpr hstale))
    hholds

theorem removeStale_of_list {listed : List String} (h : files.list c.directory = .ok listed)
    (feature keep : String) :
    c.removeStale files feature keep =
      (listed.filter (isStale feature keep)).foldl c.removeOne (0, files) := by
  rw [removeStale, h]
  rfl

/-- A clean-up of any tree removes the files with stale names, counts them, and leaves those
of all other names. -/
theorem removeStale_outcome (hdirectory : c.directory ≠ "") (hhoused : files.Housed)
    (feature keep : String) :
    ∃ removed : List String, removed.Nodup ∧
      (∀ name, name ∈ removed ↔
        '/' ∉ name.toList ∧ Stale feature keep name ∧ c.holds files name = true) ∧
      (c.removeStale files feature keep).1 = removed.length ∧
      ∀ name, IsName name →
        (c.removeStale files feature keep).2.content? (Path.join c.directory name) =
          if name ∈ removed then none else files.content? (Path.join c.directory name) := by
  cases hlist : files.list c.directory with
  | error e =>
    have hnothing : c.removeStale files feature keep = (0, files) := by
      rw [removeStale, hlist]
    rw [hnothing]
    refine ⟨[], .nil, fun name => ⟨nofun, ?_⟩, rfl, fun name _ => rfl⟩
    rintro ⟨hsingle, hstale, hholds⟩
    obtain ⟨listed, h, -⟩ := listed_of_stale hdirectory hhoused hsingle hstale hholds
    cases hlist.symm.trans h
  | ok listed =>
    have hnames : ∀ name ∈ listed.filter (isStale feature keep), IsName name := by
      intro name hname
      obtain ⟨hmem, hstale⟩ := List.mem_filter.mp hname
      exact isName_of_isStale (Files.not_mem_of_mem_list hlist hmem) hstale
    have hnodup := (Files.nodup_of_list hlist).filter (isStale feature keep)
    obtain ⟨hcount, hcontent⟩ := foldl_removeOne (c := c) hnames hnodup (0, files)
    refine ⟨(listed.filter (isStale feature keep)).filter (c.holds files), hnodup.filter _,
      fun name => ?_, ?_, fun name hname => ?_⟩
    · rw [List.mem_filter, List.mem_filter, isStale_iff]
      constructor
      · rintro ⟨⟨hmem, hstale⟩, hholds⟩
        exact ⟨Files.not_mem_of_mem_list hlist hmem, hstale, hholds⟩
      · rintro ⟨hsingle, hstale, hholds⟩
        obtain ⟨_, h, hmem⟩ := listed_of_stale hdirectory hhoused hsingle hstale hholds
        obtain rfl := Except.ok.inj (hlist.symm.trans h)
        exact ⟨⟨hmem, hstale⟩, hholds⟩
    · rw [removeStale_of_list hlist, hcount, List.countP_eq_length_filter, Nat.zero_add]
    · rw [removeStale_of_list hlist, hcontent name hname]
      -- a stale name without a file reads as little afterwards
      by_cases hholds : c.holds files name = true
      · simp [hholds]
      · have hnone : files.content? (Path.join c.directory name) = none := by
          simpa [holds] using hholds
        simp [hnone]

-- ---------------------------------------------------------------------------
-- Manifests that were stored
-- ---------------------------------------------------------------------------

theorem keeps_write (hok : (c.write files feature version body).1 = .ok ()) :
    Files.Keeps files (c.write files feature version body).2 := by
  obtain ⟨_, -, hedits, -⟩ := Files.write_outcome (write_outcome hok)
  exact (files.grown_makeDirectories c.directory).keeps.trans hedits.keeps

theorem Stored.keeps (h : c.Stored files writes after) : Files.Keeps files after := by
  induction h with
  | none => exact .refl files
  | write _ w hok ih => exact ih.trans (keeps_write hok)

theorem holds_write (hname : IsName name) (hwritten : IsName (fileName feature version))
    (hok : (c.write files feature version body).1 = .ok ())
    (h : c.holds files name = true ∨ name = fileName feature version) :
    c.holds (c.write files feature version body).2 name = true := by
  have houtcome := write_outcome hok
  by_cases heq : name = fileName feature version
  · rw [holds, heq]
    exact congrArg Option.isSome (Files.content?_write_self houtcome)
  · have hopened : c.holds (c.opened files) name = true :=
      (files.grown_makeDirectories c.directory).content?_of_isSome (h.resolve_right heq)
    rw [holds, Files.content?_write_of_ne hwritten hname heq houtcome]
    exact hopened

/-- The invariant of a sequence of writes: the files of all that was written are there. -/
theorem Stored.holds (h : c.Stored files writes after)
    (hslash : ∀ w ∈ writes, '/' ∉ w.feature.toList ∧ '/' ∉ w.version.toList) :
    ∀ w ∈ writes, c.holds after (fileName w.feature w.version) = true := by
  induction h with
  | none => simp
  | @write writes before _ w hok ih =>
    intro x hx
    have hw : w ∈ writes ++ [w] := List.mem_append_right writes List.mem_cons_self
    refine holds_write (isName_fileName (hslash x hx)) (isName_fileName (hslash w hw)) hok ?_
    rcases List.mem_append.mp hx with hx | hx
    · exact .inl (ih (fun w hw => hslash w (List.mem_append_left _ hw)) x hx)
    · obtain rfl := List.mem_singleton.mp hx
      exact .inr rfl

/-- Of the manifests that were stored, a clean-up takes those of the feature whose version is
another one and has no underscore. It leaves what is stored for other features, unless the
version has an underscore and the file is named like such a version of the feature. The count
is that of the files that are gone, and all other files of the directory stay as they are. -/
theorem removeStale_exact (h : c.Stored files writes after) (hdirectory : c.directory ≠ "")
    (hhoused : files.Housed)
    (hslash : ∀ w ∈ writes, '/' ∉ w.feature.toList ∧ '/' ∉ w.version.toList)
    (feature keep : String) :
    ∃ removed : List String, removed.Nodup ∧
      (c.removeStale after feature keep).1 = removed.length ∧
      (∀ name, name ∈ removed ↔
        '/' ∉ name.toList ∧ Stale feature keep name ∧ c.holds after name = true) ∧
      (∀ name, IsName name →
        (c.removeStale after feature keep).2.content? (Path.join c.directory name) =
          if name ∈ removed then none else after.content? (Path.join c.directory name)) ∧
      fileName feature keep ∉ removed ∧
      ∀ w ∈ writes, c.holds after (fileName w.feature w.version) = true ∧
        (fileName w.feature w.version ∈ removed ↔
          Stale feature keep (fileName w.feature w.version)) ∧
        (w.feature = feature → (fileName w.feature w.version ∈ removed ↔
          w.version ≠ keep ∧ '_' ∉ w.version.toList)) ∧
        ('_' ∉ w.version.toList → (fileName w.feature w.version ∈ removed ↔
          w.feature = feature ∧ w.version ≠ keep)) := by
  obtain ⟨removed, hnodup, hremoved, hcount, hcontent⟩ :=
    removeStale_outcome hdirectory (hhoused.keeps h.keeps) feature keep
  refine ⟨removed, hnodup, hcount, hremoved, hcontent, fun hkept => ?_, fun w hw => ?_⟩
  · exact (stale_fileName_iff.mp ((hremoved _).mp hkept).2.1).1 rfl
  · have hholds := h.holds hslash w hw
    have hgone : fileName w.feature w.version ∈ removed ↔
        Stale feature keep (fileName w.feature w.version) :=
      (hremoved _).trans ⟨fun h => h.2.1, fun hstale =>
        ⟨(isName_fileName (hslash w hw)).single, hstale, hholds⟩⟩
    refine ⟨hholds, hgone, ?_, fun hsingle => hgone.trans (stale_fileName_of_plain hsingle)⟩
    rintro rfl
    exact hgone.trans stale_fileName_iff

/-- Of three versions of a feature the two old ones go, and the only version of a feature
that begins alike stays. -/
theorem removeStale_versions :
    let c : Cache := ⟨"cache"⟩
    let files := Files.ofHome ["home"]
    let writes : List Write := [⟨"checkout", "1", "\x7b\x7d"⟩, ⟨"checkout", "2", "\x7b\x7d"⟩,
      ⟨"checkout", "3", "\x7b\x7d"⟩, ⟨"checkout_v2", "1", "\x7b\x7d"⟩]
    ∃ after, c.Stored files writes after ∧ c.directory ≠ "" ∧ files.Housed ∧
      (∀ w ∈ writes, '/' ∉ w.feature.toList ∧ '/' ∉ w.version.toList) ∧
      (c.removeStale after "checkout" "3").1 = 2 ∧
      ∃ removed : List String, removed.length = 2 ∧ "checkout_1.json" ∈ removed ∧
        "checkout_2.json" ∈ removed ∧ "checkout_v2_1.json" ∉ removed := by
  intro c files writes
  have hstored : c.Stored files writes _ :=
    (((Stored.none.write _ (by decide +kernel)).write _ (by decide +kernel)).write _
      (by decide +kernel)).write _ (by decide +kernel)
  have hslash : ∀ w ∈ writes, '/' ∉ w.feature.toList ∧ '/' ∉ w.version.toList := by decide
  obtain ⟨removed, -, hcount, -, -, -, hwrites⟩ :=
    removeStale_exact hstored (by decide) (Files.housed_ofHome _) hslash "checkout" "3"
  have htwo : removed.length = 2 := hcount.symm.trans (by decide +kernel)
  refine ⟨_, hstored, by decide, Files.housed_ofHome _, hslash, hcount.trans htwo, removed, htwo,
    ?_, ?_, ?_⟩
  · exact ((hwrites writes[0] (by simp [writes])).2.2.1 rfl).mpr (by decide)
  · exact ((hwrites writes[1] (by simp [writes])).2.2.1 rfl).mpr (by decide)
  · exact mt ((hwrites writes[3] (by simp [writes])).2.2.2 (by decide)).mp (by decide)

/-- A stale version with an underscore is left, and a manifest of another feature goes when
it is named like a stale version, by an underscore in its version or by a path. In the
directory of the empty path nothing is removed. -/
theorem removeStale_other_pair :
    (¬ ∀ (c : Cache) (files after : Files) (writes : List Write) (feature keep : String),
      c.Stored files writes after → files.Housed → c.directory ≠ "" →
        (∀ w ∈ writes, '/' ∉ w.feature.toList ∧ '/' ∉ w.version.toList) →
          ∀ w ∈ writes, w.feature = feature → w.version ≠ keep →
            c.holds (c.removeStale after feature keep).2 (fileName w.feature w.version) = false) ∧
      (¬ ∀ (c : Cache) (files after : Files) (writes : List Write) (feature keep : String),
        c.Stored files writes after → files.Housed → c.directory ≠ "" →
          (∀ w ∈ writes, '/' ∉ w.feature.toList ∧ '/' ∉ w.version.toList) →
            ∀ w ∈ writes, w.feature ≠ feature →
              c.holds (c.removeStale after feature keep).2 (fileName w.feature w.version) = true) ∧
      (¬ ∀ (c : Cache) (files after : Files) (writes : List Write) (feature keep : String),
        c.Stored files writes after → files.Housed → c.directory ≠ "" →
          (∀ w ∈ writes, '_' ∉ w.version.toList) →
            ∀ w ∈ writes, w.feature ≠ feature →
              c.holds (c.removeStale after feature keep).2 (fileName w.feature w.version) = true) ∧
      ¬ ∀ (c : Cache) (files after : Files) (writes : List Write) (feature keep : String),
        c.Stored files writes after → files.Housed →
          (∀ w ∈ writes, '/' ∉ w.feature.toList ∧ '/' ∉ w.version.toList) →
            (∀ w ∈ writes, '_' ∉ w.version.toList) →
              ∀ w ∈ writes, w.feature = feature → w.version ≠ keep →
                c.holds (c.removeStale after feature keep).2 (fileName w.feature w.version) =
                  false := by
  have hstored (directory : String) (w : Write)
      (hok : ((⟨directory⟩ : Cache).write (.ofHome ["home"]) w.feature w.version w.body).1 =
        .ok ()) : (⟨directory⟩ : Cache).Stored (.ofHome ["home"]) [w] _ := Stored.none.write w hok
  have hhoused := Files.housed_ofHome ["home"]
  refine ⟨fun h => ?left, fun h => ?taken, fun h => ?path, fun h => ?empty⟩
  case left =>
    have hgone := h _ _ _ _ "f" "2" (hstored "cache" ⟨"f", "1_0", "\x7b\x7d"⟩ (by decide +kernel))
      hhoused (by decide) (by decide) _ List.mem_cons_self rfl (by decide)
    revert hgone
    decide +kernel
  case taken =>
    have hkept := h _ _ _ _ "a_b" "2" (hstored "cache" ⟨"a", "b_1", "\x7b\x7d"⟩ (by decide +kernel))
      hhoused (by decide) (by decide) _ List.mem_cons_self (by decide)
    revert hkept
    decide +kernel
  case path =>
    have hkept := h _ _ _ _ "b" "2" (hstored "cache" ⟨"./b", "1", "\x7b\x7d"⟩ (by decide +kernel))
      hhoused (by decide) (by decide) _ List.mem_cons_self (by decide)
    revert hkept
    decide +kernel
  case empty =>
    have hgone := h _ _ _ _ "f" "2" (hstored "" ⟨"f", "1", "\x7b\x7d"⟩ (by decide +kernel))
      hhoused (by decide) (by decide) _ List.mem_cons_self rfl (by decide)
    revert hgone
    decide +kernel

end Cache

end FeatureFlow
