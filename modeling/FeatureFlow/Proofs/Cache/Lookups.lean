import FeatureFlow.Proofs.Cache.Removal

/-!
# Lookups in the cache

A lookup gives the content of a file that is the text of a JSON object, and leaves the file as it
is. A file with any other text it removes, and it touches no other file (`read_outcome`). A file
that is no text at all is left there as well, and is met again by the next lookup
(`read_illegible`).
-/

namespace FeatureFlow

theorem fromUTF8?_eq_some {content : ByteArray} {text : String} :
    String.fromUTF8? content = some text ↔ content = text.toUTF8 := by
  constructor
  · intro h
    unfold String.fromUTF8? at h
    split at h
    · obtain rfl := Option.some.inj h
      rfl
    · cases h
  · rintro rfl
    exact dif_pos text.isValidUTF8

namespace Cache

variable {c : Cache} {files : Files} {feature version path text : String}

def IsObject (text : String) : Prop :=
  ∃ fields, Json.parse? text = some (.object fields)

theorem isManifest_iff : isManifest text = true ↔ IsObject text := by
  unfold isManifest IsObject
  cases Json.parse? text with
  | none => simp
  | some value => cases value <;> simp [Json.object?]

/-- The file was there, is gone, and is all that has changed. -/
def Removes (before after : Files) (path : String) : Prop :=
  ∃ place, before.locate path = .ok place ∧ Files.Edits before after place ∧
    after.entry? place = none

/-- What can be read can be removed. -/
theorem remove_eq_discard (h : (files.content? path).isSome = true) :
    files.remove path = .ok (discard files path) := by
  rw [← files.isOk_remove path] at h
  unfold discard
  cases hremoved : files.remove path with
  | error e => simp [hremoved, Except.isOk, Except.toBool] at h
  | ok after => rfl

theorem read_eq (c : Cache) (files : Files) (feature version : String) :
    c.read files feature version =
      match (files.content? (c.path feature version)).bind String.fromUTF8? with
      | none => (none, files)
      | some text =>
        if isManifest text then (some text, files)
        else (none, discard files (c.path feature version)) := by
  simp only [read, Files.content?]
  cases files.read (c.path feature version) with
  | error e => rfl
  | ok content => rfl

theorem text_eq_some : (files.content? path).bind String.fromUTF8? = some text ↔
    files.content? path = some text.toUTF8 := by
  simp only [Option.bind_eq_some_iff, fromUTF8?_eq_some]
  exact ⟨fun ⟨_, hcontent, htext⟩ => htext ▸ hcontent, fun h => ⟨_, h, rfl⟩⟩

theorem text_eq_none : (files.content? path).bind String.fromUTF8? = none ↔
    ∀ text : String, files.content? path ≠ some text.toUTF8 := by
  simp only [Option.eq_none_iff_forall_ne_some, ne_eq, text_eq_some]

theorem read_fst_eq_some : (c.read files feature version).1 = some text ↔
    files.content? (c.path feature version) = some text.toUTF8 ∧ IsObject text := by
  rw [read_eq, ← text_eq_some, ← isManifest_iff]
  cases (files.content? (c.path feature version)).bind String.fromUTF8? with
  | none => simp
  | some found =>
    cases hgood : isManifest found with
    | false =>
      simp only [hgood, Bool.false_eq_true, if_false, Option.some.injEq, reduceCtorEq, false_iff]
      rintro ⟨rfl, hmanifest⟩
      exact Bool.false_ne_true (hgood.symm.trans hmanifest)
    | true =>
      simp only [hgood, if_true, Option.some.injEq]
      exact ⟨fun h => ⟨h, h ▸ hgood⟩, And.left⟩

theorem read_object (h : files.content? (c.path feature version) = some text.toUTF8)
    (hobject : IsObject text) : c.read files feature version = (some text, files) := by
  rw [read_eq, text_eq_some.mpr h]
  exact if_pos (isManifest_iff.mpr hobject)

theorem read_none
    (h : ∀ text : String, files.content? (c.path feature version) ≠ some text.toUTF8) :
    c.read files feature version = (none, files) := by
  rw [read_eq, text_eq_none.mpr h]

theorem read_other (h : files.content? (c.path feature version) = some text.toUTF8)
    (hother : ¬IsObject text) :
    ∃ after, c.read files feature version = (none, after) ∧
      after.content? (c.path feature version) = none ∧
      Removes files after (c.path feature version) := by
  have hcontent : (files.content? (c.path feature version)).isSome = true := by simp [h]
  have hremoved := remove_eq_discard hcontent
  refine ⟨_, ?_, Files.content?_remove_self hremoved, Files.remove_outcome hremoved⟩
  rw [read_eq, text_eq_some.mpr h]
  exact if_neg (mt isManifest_iff.mp hother)

/-- The next lookup gives the same, also when this one has removed the file. -/
theorem read_again (c : Cache) (files : Files) (feature version : String) :
    c.read (c.read files feature version).2 feature version = c.read files feature version := by
  by_cases htext : ∃ text : String,
      files.content? (c.path feature version) = some text.toUTF8
  · obtain ⟨text, htext⟩ := htext
    by_cases hobject : IsObject text
    · rw [read_object htext hobject]
      exact read_object htext hobject
    · obtain ⟨after, hread, hgone, -⟩ := read_other htext hobject
      rw [hread]
      exact read_none (by simp [hgone])
  · have hnone := read_none (not_exists.mp htext)
    rw [hnone]
    exact hnone

/-- A lookup gives a body exactly where the file is the text of a JSON object, and then changes
nothing. A file that is another text it removes, and nothing else. Where there is no file, or one
that is no text, it gives nothing and leaves everything as it was. The next lookup gives the same
and changes nothing. -/
theorem read_outcome (c : Cache) (files : Files) (feature version : String) :
    let path := c.path feature version
    let result := c.read files feature version
    (∀ body, result.1 = some body ↔ files.content? path = some body.toUTF8 ∧ IsObject body) ∧
    (result.1.isSome = true → result.2 = files) ∧
    (∀ text : String, files.content? path = some text.toUTF8 → ¬IsObject text →
      result.2.content? path = none ∧ Removes files result.2 path) ∧
    ((∀ text : String, files.content? path ≠ some text.toUTF8) → result.2 = files) ∧
    c.read result.2 feature version = result := by
  intro path result
  refine ⟨fun body => read_fst_eq_some, fun h => ?kept, fun text htext hother => ?removed,
    fun h => congrArg Prod.snd (read_none h), c.read_again files feature version⟩
  case kept =>
    obtain ⟨body, hbody⟩ := Option.isSome_iff_exists.mp h
    obtain ⟨htext, hobject⟩ := read_fst_eq_some.mp hbody
    exact congrArg Prod.snd (read_object htext hobject)
  case removed =>
    obtain ⟨after, hread, hremoved⟩ := read_other htext hother
    have hresult : result = (none, after) := hread
    rw [hresult]
    exact hremoved

/-- A file that is no text gives nothing and stays, though it could be removed. -/
theorem read_illegible :
    ¬ ∀ (c : Cache) (files : Files) (feature version : String),
      (files.remove (c.path feature version)).isOk = true →
        (c.read files feature version).1 = none →
          (c.read files feature version).2.content? (c.path feature version) = none := by
  intro h
  have hgone := h ⟨"cache"⟩
    ⟨[], .ofList [("cache", .directory), ("cache/f_1.json", .file ⟨#[0xff]⟩)]⟩ "f" "1"
    (by decide +kernel) (by decide +kernel)
  revert hgone
  decide +kernel

end Cache

end FeatureFlow
