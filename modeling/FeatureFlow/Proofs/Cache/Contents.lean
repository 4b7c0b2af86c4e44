import FeatureFlow.Cache
import FeatureFlow.Proofs.Files.Making

/-!
# What the cache holds

The file of a feature and a version is named by both, and where neither holds a slash and
the version no underscore, both can be read off the name again (`fileName_inj`). So a
lookup, a removal and a write change what is read for no other such pair, and after any
writes a pair reads what was written for it last (`read_stored`).
-/

namespace FeatureFlow

namespace Cache

open FeatureFlow.Path (IsName)

variable {c : Cache} {files before after : Files} {feature version keep body name other : String}

-- ---------------------------------------------------------------------------
-- The names of the files
-- ---------------------------------------------------------------------------

/-- The file of the feature and the version lies in the directory of the cache, and is the
file of no other such pair. -/
structure Plain (feature version : String) : Prop where
  noSlash : '/' ∉ feature.toList ∧ '/' ∉ version.toList
  noUnderscore : '_' ∉ version.toList

instance : Decidable (Plain feature version) :=
  decidable_of_iff (('/' ∉ feature.toList ∧ '/' ∉ version.toList) ∧ '_' ∉ version.toList)
    ⟨fun h => ⟨h.1, h.2⟩, fun h => ⟨h.noSlash, h.noUnderscore⟩⟩

theorem toList_fileName (feature version : String) :
    (fileName feature version).toList =
      feature.toList ++ '_' :: (version.toList ++ ".json".toList) := by
  simp [fileName]

theorem isName_of_underscore (hsingle : '/' ∉ name.toList) (h : '_' ∈ name.toList) :
    IsName name := by
  have hne (other : String) (hother : '_' ∉ other.toList) : name ≠ other :=
    fun heq => hother (heq ▸ h)
  exact ⟨hsingle, hne "" (by decide), hne "." (by decide), hne ".." (by decide)⟩

theorem Plain.isName (h : Plain feature version) : IsName (fileName feature version) := by
  refine isName_of_underscore ?_ ?_ <;> simp [toList_fileName, h.noSlash]

theorem fileName_inj {feature' version' : String} (h : '_' ∉ version.toList)
    (h' : '_' ∉ version'.toList) :
    fileName feature version = fileName feature' version' ↔
      feature = feature' ∧ version = version' := by
  constructor
  case mpr =>
    rintro ⟨rfl, rfl⟩
    rfl
  intro heq
  have hlists := congrArg String.toList heq
  rw [toList_fileName, toList_fileName] at hlists
  -- what stands after the last underscore is the version with the ending
  have hending (version : String) (h : '_' ∉ version.toList) :
      Text.afterLast? '_' (version.toList ++ ".json".toList) = none :=
    Text.afterLast?_of_not_mem (by simp [h])
  have hlast := congrArg (Text.afterLast? '_') hlists
  simp only [Text.afterLast?_append, hending _ h, hending _ h', Option.getD_none,
    Option.some.injEq] at hlast
  rw [hlast] at hlists
  exact ⟨String.toList_inj.mp (List.append_cancel_right hlists),
    String.toList_inj.mp (List.append_cancel_right hlast)⟩

theorem eq_fileName_of_versionOf? (h : versionOf? feature name = some version) :
    name = fileName feature version ∧ '_' ∉ version.toList := by
  simp only [versionOf?, Option.bind_eq_bind, Option.bind_eq_some_iff] at h
  obtain ⟨rest, hrest, cs, hversion, h⟩ := h
  split at h
  · cases h
  · rename_i hsingle
    obtain rfl := Option.some.inj h
    refine ⟨String.toList_inj.mp ?_, by simpa using hsingle⟩
    rw [Text.after?_eq_some hrest, Text.before?_eq_some hversion, toList_fileName]
    simp

-- ---------------------------------------------------------------------------
-- Lookups
-- ---------------------------------------------------------------------------

def body? (c : Cache) (files : Files) (name : String) : Option String :=
  ((files.content? (Path.join c.directory name)).bind String.fromUTF8?).filter isManifest

theorem read_eq_body? (c : Cache) (files : Files) (feature version : String) :
    (c.read files feature version).1 = c.body? files (fileName feature version) := by
  simp only [read, body?, Files.content?, path]
  cases files.read (Path.join c.directory (fileName feature version)) with
  | error e => rfl
  | ok content =>
    simp only [Except.toOption, Option.bind_some]
    cases String.fromUTF8? content with
    | none => rfl
    | some text => cases hgood : isManifest text <;> simp [hgood, Option.filter]

theorem read_files (c : Cache) (files : Files) (feature version : String) :
    (c.read files feature version).2 = files ∨
      c.body? files (fileName feature version) = none ∧
        (c.read files feature version).2 = discard files (c.path feature version) := by
  rw [← read_eq_body?]
  simp only [read]
  cases files.read (c.path feature version) with
  | error e => exact .inl rfl
  | ok content =>
    simp only
    cases String.fromUTF8? content with
    | none => exact .inl rfl
    | some text => cases hgood : isManifest text <;> simp [hgood]

-- ---------------------------------------------------------------------------
-- Removals
-- ---------------------------------------------------------------------------

theorem discard_outcome (files : Files) (path : String) :
    discard files path = files ∨ files.remove path = .ok (discard files path) := by
  unfold discard
  cases h : files.remove path with
  | error e => exact .inl rfl
  | ok after => exact .inr rfl

theorem opens_discard (hname : IsName name) (h : files.Opens c.directory) :
    (discard files (Path.join c.directory name)).Opens c.directory := by
  rcases discard_outcome files (Path.join c.directory name) with hsame | hremoved
  · rwa [hsame]
  · obtain ⟨found, hlocate, hedits, -⟩ := Files.remove_outcome hremoved
    obtain ⟨place, hinside, rfl⟩ := Files.inside_of_locate hname hlocate
    exact .of_edits hedits hinside

theorem body?_discard_of_ne (hother : IsName other) (hname : IsName name) (hne : name ≠ other) :
    c.body? (discard files (Path.join c.directory other)) name = c.body? files name := by
  rcases discard_outcome files (Path.join c.directory other) with hsame | hremoved
  · rw [hsame]
  · rw [body?, Files.content?_remove_of_ne hother hname hne hremoved, body?]

theorem body?_discard_self (hname : c.body? files name = none) :
    c.body? (discard files (Path.join c.directory name)) name = none := by
  rcases discard_outcome files (Path.join c.directory name) with hsame | hremoved
  · rwa [hsame]
  · rw [body?, Files.content?_remove_self hremoved]
    rfl

theorem opens_read (hplain : Plain feature version) (h : files.Opens c.directory) :
    (c.read files feature version).2.Opens c.directory := by
  rcases c.read_files files feature version with hsame | ⟨-, hdiscarded⟩
  · rwa [hsame]
  · rw [hdiscarded]
    exact opens_discard hplain.isName h

theorem body?_read (hplain : Plain feature version) (hname : IsName name) :
    c.body? (c.read files feature version).2 name = c.body? files name := by
  rcases c.read_files files feature version with hsame | ⟨hnone, hdiscarded⟩
  · rw [hsame]
  · rw [hdiscarded]
    by_cases hne : name = fileName feature version
    · subst hne
      exact (body?_discard_self hnone).trans hnone.symm
    · exact body?_discard_of_ne hplain.isName hname hne

-- ---------------------------------------------------------------------------
-- Clean-ups
-- ---------------------------------------------------------------------------

def staleFiles (c : Cache) (files : Files) (feature keep : String) : List String :=
  match files.list c.directory with
  | .error _ => []
  | .ok names => names.filter (isStale feature keep)

theorem of_mem_staleFiles (h : name ∈ c.staleFiles files feature keep) :
    '/' ∉ name.toList ∧ isStale feature keep name = true := by
  unfold staleFiles at h
  split at h
  · cases h
  · rename_i names hnames
    obtain ⟨hmem, hstale⟩ := List.mem_filter.mp h
    exact ⟨Files.not_mem_of_mem_list hnames hmem, hstale⟩

theorem eq_fileName_of_isStale (h : isStale feature keep name = true) :
    ∃ version, name = fileName feature version ∧ '_' ∉ version.toList ∧ version ≠ keep := by
  unfold isStale at h
  split at h
  · rename_i version hversion
    obtain ⟨hname, hsingle⟩ := eq_fileName_of_versionOf? hversion
    exact ⟨version, hname, hsingle, by simpa using h⟩
  · cases h

theorem isName_of_isStale (hsingle : '/' ∉ name.toList)
    (hstale : isStale feature keep name = true) : IsName name := by
  obtain ⟨version, rfl, -, -⟩ := eq_fileName_of_isStale hstale
  exact isName_of_underscore hsingle (by simp [toList_fileName])

theorem removeAll_files (c : Cache) (files : Files) (names : List String) :
    (c.removeAll files names).2 =
      names.foldl (fun files name => discard files (Path.join c.directory name)) files := by
  unfold removeAll
  refine (List.foldl_hom Prod.snd ?_).symm
  rintro ⟨count, files⟩ name
  simp only [discard]
  cases files.remove (Path.join c.directory name) <;> rfl

theorem removeStale_files (c : Cache) (files : Files) (feature keep : String) :
    (c.removeStale files feature keep).2 =
      (c.staleFiles files feature keep).foldl
        (fun files name => discard files (Path.join c.directory name)) files := by
  unfold removeStale staleFiles
  cases files.list c.directory with
  | error e => rfl
  | ok names => exact c.removeAll_files ..

-- ---------------------------------------------------------------------------
-- Writes
-- ---------------------------------------------------------------------------

/-- The tree with the directory of the cache made, as every write leaves it. -/
def opened (c : Cache) (files : Files) : Files :=
  (files.makeDirectories c.directory).2

theorem write_outcome (hok : (c.write files feature version body).1 = .ok ()) :
    (c.opened files).writeText (c.path feature version) body =
      .ok (c.write files feature version body).2 := by
  simp only [write, opened] at hok ⊢
  cases hmade : files.makeDirectories c.directory with
  | mk result made =>
    cases result with
    | error e => simp [hmade] at hok
    | ok =>
      simp only [hmade] at hok ⊢
      cases hwritten : made.writeText (c.path feature version) body with
      | ok after => rfl
      | error e => simp [hwritten] at hok

theorem opens_write (hplain : Plain feature version)
    (hok : (c.write files feature version body).1 = .ok ()) :
    (c.write files feature version body).2.Opens c.directory := by
  obtain ⟨found, hlocate, hedits, -⟩ := Files.write_outcome (write_outcome hok)
  obtain ⟨place, hinside, rfl⟩ := Files.inside_of_locate hplain.isName hlocate
  exact .of_edits hedits hinside

theorem body?_write_self (hok : (c.write files feature version body).1 = .ok ())
    (hbody : isManifest body = true) :
    c.body? (c.write files feature version body).2 (fileName feature version) = some body := by
  have hcontent := Files.content?_write_self (write_outcome hok)
  have htext : String.fromUTF8? body.toUTF8 = some body := dif_pos body.isValidUTF8
  unfold path at hcontent
  rw [body?, hcontent, Option.bind_some, htext]
  exact Option.filter_eq_some_iff.mpr ⟨rfl, hbody⟩

theorem body?_write_of_ne (hplain : Plain feature version)
    (hok : (c.write files feature version body).1 = .ok ()) (hname : IsName name)
    (hne : name ≠ fileName feature version) :
    c.body? (c.write files feature version body).2 name = c.body? (c.opened files) name := by
  have hcontent := Files.content?_write_of_ne hplain.isName hname hne (write_outcome hok)
  rw [body?, hcontent, body?]

theorem body?_opened (hopens : files.Opens c.directory) (hname : IsName name) :
    c.body? (c.opened files) name = c.body? files name := by
  have hcontent := hopens.content?_grown (files.grown_makeDirectories c.directory) hname
  rw [body?, opened, hcontent, body?]

-- ---------------------------------------------------------------------------
-- Sequences of writes
-- ---------------------------------------------------------------------------

structure Write where
  feature : String
  version : String
  body : String

def lastBody? (feature version : String) (writes : List Write) : Option String :=
  (writes.filter fun w => w.feature = feature ∧ w.version = version).getLast?.map (·.body)

variable {writes : List Write}

theorem lastBody?_append (feature version : String) (writes : List Write) (w : Write) :
    lastBody? feature version (writes ++ [w]) =
      if w.feature = feature ∧ w.version = version then some w.body
      else lastBody? feature version writes := by
  unfold lastBody?
  split <;> simp [List.filter_append, *]

theorem isSome_lastBody?_iff :
    (lastBody? feature version writes).isSome = true ↔
      ∃ w ∈ writes, w.feature = feature ∧ w.version = version := by
  simp [lastBody?]

/-- What writes leave that all succeed, in their order. -/
inductive Stored (c : Cache) (files : Files) : List Write → Files → Prop
  | none : Stored c files [] files
  | write {writes : List Write} {before : Files} (hbefore : Stored c files writes before)
      (w : Write) (hok : (c.write before w.feature w.version w.body).1 = .ok ()) :
      Stored c files (writes ++ [w]) (c.write before w.feature w.version w.body).2

/-- The invariant of a sequence of writes: with the directory made, each pair reads its
last body, or what it read without any of the writes. -/
theorem Stored.body? (h : c.Stored files writes after)
    (hplain : ∀ w ∈ writes, Plain w.feature w.version)
    (hbodies : ∀ w ∈ writes, isManifest w.body = true) (hread : Plain feature version) :
    (writes ≠ [] → after.Opens c.directory) ∧
      c.body? (c.opened after) (fileName feature version) =
        (lastBody? feature version writes).or
          (c.body? (c.opened files) (fileName feature version)) := by
  induction h with
  | none => exact ⟨absurd rfl, rfl⟩
  | @write writes before _ w hok ih =>
    have hw : w ∈ writes ++ [w] := List.mem_append_right writes List.mem_cons_self
    have hearlier := ih (fun x hx => hplain x (List.mem_append_left _ hx))
      (fun x hx => hbodies x (List.mem_append_left _ hx))
    have hopens := opens_write (hplain w hw) hok
    refine ⟨fun _ => hopens, ?_⟩
    rw [body?_opened hopens hread.isName, lastBody?_append]
    split
    · rename_i hsame
      rw [← hsame.1, ← hsame.2, body?_write_self hok (hbodies w hw)]
      rfl
    · rename_i hother
      have hne : fileName feature version ≠ fileName w.feature w.version := by
        intro heq
        obtain ⟨hfeature, hversion⟩ :=
          (fileName_inj hread.noUnderscore (hplain w hw).noUnderscore).mp heq
        exact hother ⟨hfeature.symm, hversion.symm⟩
      rw [body?_write_of_ne (hplain w hw) hok hread.isName hne, hearlier.2]

/-- The body that was written last for a feature and a version is read for them, and where
none was, what would be read without the writes: writes for other such pairs change
nothing. The directory that the writes make brings no manifest to light, unless it was
missing and its path steps back. -/
theorem read_stored (h : c.Stored files writes after)
    (hplain : ∀ w ∈ writes, Plain w.feature w.version)
    (hbodies : ∀ w ∈ writes, isManifest w.body = true) (hread : Plain feature version) :
    (writes ≠ [] → (c.read after feature version).1 =
        (lastBody? feature version writes).or (c.read (c.opened files) feature version).1) ∧
      ((lastBody? feature version writes).isSome = true ↔
        ∃ w ∈ writes, w.feature = feature ∧ w.version = version) ∧
      (files.Opens c.directory →
        (c.read (c.opened files) feature version).1 = (c.read files feature version).1) := by
  obtain ⟨hopens, hbody⟩ := h.body? hplain hbodies hread
  refine ⟨fun hwrites => ?_, isSome_lastBody?_iff, fun hfiles => ?_⟩
  · rw [read_eq_body?, read_eq_body?, ← hbody, body?_opened (hopens hwrites) hread.isName]
  · rw [read_eq_body?, read_eq_body?, body?_opened hfiles hread.isName]

/-- Two features are written that begin alike, one of them twice, in a directory that has to
be made. -/
theorem read_stored_alike :
    let c : Cache := ⟨"cache"⟩
    let files := Files.ofHome ["home"]
    let writes : List Write :=
      [⟨"a_b", "1", "\x7b\x7d"⟩, ⟨"a", "1", "\x7b\x7d"⟩, ⟨"a_b", "1", "\x7b \x7d"⟩]
    ∃ after, c.Stored files writes after ∧ files.Opens c.directory ∧
      (c.read after "a_b" "1").1 = some "\x7b \x7d" ∧ (c.read after "a" "2").1 = none := by
  intro c files writes
  have hstored : c.Stored files writes _ :=
    ((Stored.none.write _ (by decide +kernel)).write _ (by decide +kernel)).write _
      (by decide +kernel)
  have hplain : ∀ w ∈ writes, Plain w.feature w.version := by decide
  have hbodies : ∀ w ∈ writes, isManifest w.body = true := by decide +kernel
  have hopens : files.Opens c.directory :=
    .inr ⟨Files.grounded_ofHome (by decide), by decide +kernel⟩
  obtain ⟨htwice, -, -⟩ :=
    read_stored hstored hplain hbodies (by decide : Plain "a_b" "1")
  obtain ⟨hnever, -, hsame⟩ :=
    read_stored hstored hplain hbodies (by decide : Plain "a" "2")
  have hwrites : writes ≠ [] := List.cons_ne_nil _ _
  refine ⟨_, hstored, hopens, (htwice hwrites).trans rfl, (hnever hwrites).trans ?_⟩
  rw [hsame hopens]
  decide +kernel

/-- A version with an underscore, or a feature with a slash, can have the file of another
pair, so that one reads what was written for the other. -/
theorem read_other_pair :
    (¬ ∀ (c : Cache) (files after : Files) (writes : List Write) (feature version : String),
      c.Stored files writes after → (∀ w ∈ writes, isManifest w.body = true) →
        (∀ w ∈ writes, '/' ∉ w.feature.toList ∧ '/' ∉ w.version.toList) →
          '/' ∉ feature.toList ∧ '/' ∉ version.toList →
            (∀ w ∈ writes, ¬(w.feature = feature ∧ w.version = version)) →
              (c.read after feature version).1 = (c.read files feature version).1) ∧
      ¬ ∀ (c : Cache) (files after : Files) (writes : List Write) (feature version : String),
        c.Stored files writes after → (∀ w ∈ writes, isManifest w.body = true) →
          (∀ w ∈ writes, '_' ∉ w.version.toList) → '_' ∉ version.toList →
            (∀ w ∈ writes, ¬(w.feature = feature ∧ w.version = version)) →
              (c.read after feature version).1 = (c.read files feature version).1 := by
  have hstored (w : Write)
      (hok : ((⟨"cache"⟩ : Cache).write (.ofHome ["home"]) w.feature w.version w.body).1 = .ok ()) :
      (⟨"cache"⟩ : Cache).Stored (.ofHome ["home"]) [w] _ := Stored.none.write w hok
  refine ⟨fun h => ?underscore, fun h => ?slash⟩
  case underscore =>
    have hother := h _ _ _ _ "a_b" "1" (hstored ⟨"a", "b_1", "\x7b\x7d"⟩ (by decide +kernel))
      (by decide +kernel) (by decide) (by decide) (by decide)
    revert hother
    decide +kernel
  case slash =>
    have hother := h _ _ _ _ "b" "1" (hstored ⟨"./b", "1", "\x7b\x7d"⟩ (by decide +kernel))
      (by decide +kernel) (by decide) (by decide) (by decide)
    revert hother
    decide +kernel

end Cache

end FeatureFlow
