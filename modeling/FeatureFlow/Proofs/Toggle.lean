import FeatureFlow.Toggle
import FeatureFlow.Proofs.Cutting

/-!
# Reading toggles

The short form of a toggle is cut at its first equals sign, and both parts lose the blanks around
them (`Text.Trims`). Both must have a character before that, so a part of blanks alone becomes an
empty name or version (`parse?_blank`). The toggles in which neither is empty are read exactly
from the texts with something to read on both sides, and each of them is read back from its own
short form (`parse?_outcome`).
-/

namespace FeatureFlow

namespace Text

variable {cs kept before after : List Char}

-- ---------------------------------------------------------------------------
-- Trimming
-- ---------------------------------------------------------------------------

def Trimmed (cs : List Char) : Prop :=
  (∀ c ∈ cs.head?, isBlank c = false) ∧ ∀ c ∈ cs.getLast?, isBlank c = false

def Trims (cs kept : List Char) : Prop :=
  Trimmed kept ∧ ∃ before after, cs = before ++ kept ++ after ∧
    (∀ c ∈ before, isBlank c = true) ∧ ∀ c ∈ after, isBlank c = true

/-- Something is left of the text without its blanks. -/
def Legible (cs : List Char) : Prop :=
  ∃ c ∈ cs, isBlank c = false

theorem dropWhile_of_head? (h : ∀ c ∈ cs.head?, isBlank c = false) :
    cs.dropWhile isBlank = cs := by
  cases cs with
  | nil => rfl
  | cons c rest => exact List.dropWhile_cons_of_neg (by simp [h c rfl])

theorem head?_dropWhile (cs : List Char) :
    ∀ c ∈ (cs.dropWhile isBlank).head?, isBlank c = false := by
  intro c hc
  have hhead := List.head?_dropWhile_not isBlank cs
  rw [Option.mem_def.mp hc] at hhead
  exact hhead

theorem exists_dropWhile (cs : List Char) :
    ∃ before, cs = before ++ cs.dropWhile isBlank ∧ ∀ c ∈ before, isBlank c = true :=
  ⟨cs.takeWhile isBlank, List.takeWhile_append_dropWhile.symm,
    List.all_eq_true.mp List.all_takeWhile⟩

theorem trims_trim (cs : List Char) : Trims cs (trim cs) := by
  obtain ⟨before, hbefore, hblank⟩ := exists_dropWhile cs
  obtain ⟨after, hafter, hblank'⟩ := exists_dropWhile (cs.dropWhile isBlank).reverse
  have hmiddle : cs.dropWhile isBlank = trim cs ++ after.reverse := by
    rw [trim, ← List.reverse_append, ← hafter, List.reverse_reverse]
  refine ⟨⟨fun c hc => ?first, fun c hc => ?last⟩, before, after.reverse, ?_, hblank,
    fun c hc => hblank' c (List.mem_reverse.mp hc)⟩
  case first =>
    refine head?_dropWhile cs c ?_
    rw [hmiddle, List.head?_append, Option.mem_def.mp hc]
    rfl
  case last =>
    rw [trim, List.getLast?_reverse] at hc
    exact head?_dropWhile _ c hc
  · rw [List.append_assoc, ← hmiddle]
    exact hbefore

theorem trim_eq (h : Trims cs kept) : trim cs = kept := by
  obtain ⟨⟨hfirst, hlast⟩, before, after, rfl, hbefore, hafter⟩ := h
  rw [trim, List.append_assoc, List.dropWhile_append_of_pos hbefore]
  rcases List.eq_nil_or_concat kept with rfl | ⟨_, _, hkept⟩
  · have hnone : after.dropWhile isBlank = [] := by
      rw [← List.append_nil after, List.dropWhile_append_of_pos hafter, List.dropWhile_nil]
    rw [List.nil_append, hnone]
    rfl
  · have hhead : ∀ c ∈ (kept ++ after).head?, isBlank c = false := by
      cases kept with
      | nil => simp at hkept
      | cons c rest => exact hfirst
    have hafter' : ∀ c ∈ after.reverse, isBlank c = true :=
      fun c hc => hafter c (List.mem_reverse.mp hc)
    rw [dropWhile_of_head? hhead, List.reverse_append, List.dropWhile_append_of_pos hafter',
      dropWhile_of_head? (by rwa [List.head?_reverse]), List.reverse_reverse]

theorem trims_iff : Trims cs kept ↔ trim cs = kept :=
  ⟨trim_eq, fun h => h ▸ trims_trim cs⟩

theorem trims_self (h : Trimmed cs) : Trims cs cs :=
  ⟨h, [], [], by simp, nofun, nofun⟩

theorem ne_nil_iff_legible (h : Trims cs kept) : kept ≠ [] ↔ Legible cs := by
  obtain ⟨⟨hfirst, -⟩, before, after, rfl, hbefore, hafter⟩ := h
  constructor
  · intro hkept
    obtain ⟨c, rest, rfl⟩ := List.exists_cons_of_ne_nil hkept
    exact ⟨c, by simp, hfirst c rfl⟩
  · rintro ⟨c, hc, hlegible⟩ rfl
    rw [List.append_nil] at hc
    rcases List.mem_append.mp hc with hc | hc
    · exact Bool.false_ne_true (hlegible.symm.trans (hbefore c hc))
    · exact Bool.false_ne_true (hlegible.symm.trans (hafter c hc))

end Text

namespace Toggle

open Text (Trims Trimmed Legible)

variable {text : String} {t : Toggle}

-- ---------------------------------------------------------------------------
-- The short form
-- ---------------------------------------------------------------------------

def Cut (text : String) (name version : List Char) : Prop :=
  text.toList = name ++ '=' :: version ∧ '=' ∉ name

theorem parse?_eq_some : parse? text = some t ↔ ∃ name version, Cut text name version ∧
    name ≠ [] ∧ version ≠ [] ∧ Trims name t.name.toList ∧ Trims version t.version.toList ∧
    t.inExperiment = true := by
  simp only [parse?, Option.bind_eq_bind, Option.bind_eq_some_iff, Prod.exists,
    Text.cut?_eq_some, Text.trims_iff]
  refine exists_congr fun name => exists_congr fun version => and_congr_right fun _ => ?_
  cases name with
  | nil => simp
  | cons c name =>
    cases version with
    | nil => simp
    | cons d version =>
      obtain ⟨first, inExperiment, last⟩ := t
      simp only [List.isEmpty_cons, Bool.or_self, Bool.false_eq_true, if_false, Option.some.injEq,
        enabled, mk.injEq, ← String.toList_inj, String.toList_ofList, ne_eq, reduceCtorEq,
        not_false_eq_true, true_and]
      constructor
      · rintro ⟨hname, rfl, hversion⟩
        exact ⟨hname, hversion, rfl⟩
      · rintro ⟨hname, hversion, rfl⟩
        exact ⟨hname, rfl, hversion⟩

theorem cut_append {name : String} (h : '=' ∉ name.toList) (version : String) :
    Cut (name ++ "=" ++ version) name.toList version.toList :=
  ⟨by simp, h⟩

theorem parse?_append {name version : String} (hequals : '=' ∉ name.toList) (hname : name ≠ "")
    (hversion : version ≠ "") (htrimmed : Trimmed name.toList)
    (htrimmed' : Trimmed version.toList) :
    parse? (name ++ "=" ++ version) = some (enabled name version) :=
  parse?_eq_some.mpr ⟨name.toList, version.toList, cut_append hequals version,
    mt String.toList_eq_nil_iff.mp hname, mt String.toList_eq_nil_iff.mp hversion,
    Text.trims_self htrimmed, Text.trims_self htrimmed', rfl⟩

theorem exists_parse?_iff : (∃ t, parse? text = some t ∧ t.name ≠ "" ∧ t.version ≠ "") ↔
    ∃ name version, Cut text name version ∧ Legible name ∧ Legible version := by
  have hempty (s : String) : s ≠ "" ↔ s.toList ≠ [] := not_congr String.toList_eq_nil_iff.symm
  constructor
  · rintro ⟨t, ht, hname, hversion⟩
    obtain ⟨name, version, hcut, -, -, htrims, htrims', -⟩ := parse?_eq_some.mp ht
    exact ⟨name, version, hcut, (Text.ne_nil_iff_legible htrims).mp ((hempty _).mp hname),
      (Text.ne_nil_iff_legible htrims').mp ((hempty _).mp hversion)⟩
  · rintro ⟨name, version, hcut, hname, hversion⟩
    have htrims := Text.trims_trim name
    have htrims' := Text.trims_trim version
    refine ⟨enabled (.ofList (Text.trim name)) (.ofList (Text.trim version)), ?_, ?_, ?_⟩
    · refine parse?_eq_some.mpr ⟨name, version, hcut, ?_, ?_, ?_, ?_, rfl⟩
      · rintro rfl
        exact nomatch hname
      · rintro rfl
        exact nomatch hversion
      · simpa [enabled] using htrims
      · simpa [enabled] using htrims'
    · simpa [enabled, hempty] using (Text.ne_nil_iff_legible htrims).mpr hname
    · simpa [enabled, hempty] using (Text.ne_nil_iff_legible htrims').mpr hversion

/-- A text is read as a toggle exactly if there are characters on both sides of its first equals
sign, and then as the enabled toggle of both parts without the blanks around them. The toggle has
a name and a version exactly if neither part is all blanks. A name without equals signs and a
version, both with no blanks around them, are what their short form is read as. -/
theorem parse?_outcome (text : String) :
    (∀ t, parse? text = some t ↔ ∃ name version, Cut text name version ∧
      name ≠ [] ∧ version ≠ [] ∧ Trims name t.name.toList ∧ Trims version t.version.toList ∧
      t.inExperiment = true) ∧
    ((∃ t, parse? text = some t ∧ t.name ≠ "" ∧ t.version ≠ "") ↔
      ∃ name version, Cut text name version ∧ Legible name ∧ Legible version) ∧
    (∀ name version : String, text = name ++ "=" ++ version → '=' ∉ name.toList → name ≠ "" →
      version ≠ "" → Trimmed name.toList → Trimmed version.toList →
      parse? text = some (enabled name version)) := by
  refine ⟨fun _ => parse?_eq_some, exists_parse?_iff, ?_⟩
  rintro name version rfl
  exact parse?_append

/-- Blanks of several kinds around both parts, and a version that holds an equals sign. -/
theorem parse?_outcome_padded :
    '=' ∉ "a b".toList ∧ Trimmed "a b".toList ∧ Trimmed "1=2".toList ∧
      parse? ("a b" ++ "=" ++ "1=2") = some (enabled "a b" "1=2") ∧
      ∃ t, parse? "\u00a0a b\t= 1=2\n" = some t ∧ t.name ≠ "" ∧ t.version ≠ "" := by
  have hname : Trimmed "a b".toList := by simp [Trimmed, Text.isBlank]
  have hversion : Trimmed "1=2".toList := by simp [Trimmed, Text.isBlank]
  obtain ⟨-, -, hshort⟩ := parse?_outcome ("a b" ++ "=" ++ "1=2")
  obtain ⟨-, hlegible, -⟩ := parse?_outcome "\u00a0a b\t= 1=2\n"
  refine ⟨by decide, hname, hversion,
    hshort "a b" "1=2" rfl (by decide) (by decide) (by decide) hname hversion, hlegible.mpr
      ⟨"\u00a0a b\t".toList, " 1=2\n".toList, ⟨rfl, by decide⟩, ?_, ?_⟩⟩
  · exact ⟨'a', by decide, rfl⟩
  · exact ⟨'1', by decide, rfl⟩

/-- A name that is all blanks is read as an empty one. -/
theorem parse?_blank :
    ¬ ∀ text t, parse? text = some t → t.name ≠ "" ∧ t.version ≠ "" := by
  intro h
  exact (h " =3" (enabled "" "3") (by decide)).1 rfl

end Toggle

end FeatureFlow
