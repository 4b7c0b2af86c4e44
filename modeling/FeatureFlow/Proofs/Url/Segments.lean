import FeatureFlow.Fetch
import FeatureFlow.Proofs.Cutting
import FeatureFlow.Proofs.Url.Percent

/-!
# The addresses of manifests

A name that is added to a path becomes one segment, which decodes to the name without its tabs and
line ends, unless it is then a dot or two (`addSegment_of_isName`). So below one base the manifests
of different features and versions have different addresses, as far as their names are of this
kind (`manifestUrl_outcome`). Nothing but the path of the base changes.
-/

namespace FeatureFlow

theorem Text.toNat_asciiLower {c : Char} (h : 'A' ≤ c ∧ c ≤ 'Z') :
    (asciiLower c).toNat = c.toNat + 32 := by
  have hleast : 65 ≤ c.toNat := h.1
  have hmost : c.toNat ≤ 90 := h.2
  have hletters : ∀ n < 26, (Char.ofNat (65 + n + 32)).toNat = 65 + n + 32 := by decide
  have hletter := hletters (c.toNat - 65) (by omega)
  rw [show 65 + (c.toNat - 65) = c.toNat by omega] at hletter
  rwa [asciiLower, if_pos h]

namespace UrlPath

variable {reserved segment cs : List Char} {c d : Char}

-- ---------------------------------------------------------------------------
-- Dots
-- ---------------------------------------------------------------------------

/-- Without its tabs and line ends the segment is neither a dot nor two. -/
def IsName (segment : List Char) : Prop :=
  counted segment ≠ ['.'] ∧ counted segment ≠ ['.', '.']

instance : Decidable (IsName segment) :=
  inferInstanceAs (Decidable (_ ∧ _))

theorem eq_of_asciiLower (h : Text.asciiLower c = d) (hd : d.toNat < 'a'.toNat) : c = d := by
  by_cases hupper : 'A' ≤ c ∧ c ≤ 'Z'
  · have hlower := Text.toNat_asciiLower hupper
    have hleast : 65 ≤ c.toNat := hupper.1
    rw [h] at hlower
    change d.toNat < 97 at hd
    omega
  · rwa [Text.asciiLower, if_neg hupper] at h

theorem eq_or_eq_of_asciiLower (h : Text.asciiLower c = 'e') : c = 'e' ∨ c = 'E' := by
  by_cases hupper : 'A' ≤ c ∧ c ≤ 'Z'
  · have hlower := Text.toNat_asciiLower hupper
    rw [h] at hlower
    refine .inr (Char.toNat_inj.mp ?_)
    change 101 = c.toNat + 32 at hlower
    change c.toNat = 69
    omega
  · rw [Text.asciiLower, if_neg hupper] at h
    exact .inl h

theorem decodeBytes_dot (h : Text.asciiLower c = '.') (rest : List Char) :
    Percent.decodeBytes (c :: rest) = 0x2E :: Percent.decodeBytes rest := by
  obtain rfl := eq_of_asciiLower h (by decide)
  exact Percent.decodeBytes_cons (by decide) rest

theorem decodeBytes_dotTriplet {x y z : Char} (hx : Text.asciiLower x = '%')
    (hy : Text.asciiLower y = '2') (hz : Text.asciiLower z = 'e') (rest : List Char) :
    Percent.decodeBytes (x :: y :: z :: rest) = 0x2E :: Percent.decodeBytes rest := by
  obtain rfl := eq_of_asciiLower hx (by decide)
  obtain rfl := eq_of_asciiLower hy (by decide)
  rcases eq_or_eq_of_asciiLower hz with rfl | rfl <;> simp [Percent.decodeBytes, Text.hexDigit?]

theorem isDot_iff : isDot cs = true ↔
    cs.map Text.asciiLower = ['.'] ∨ cs.map Text.asciiLower = ['%', '2', 'e'] := by
  simp [isDot, ← String.toList_inj]

theorem isDoubleDot_iff : isDoubleDot cs = true ↔
    cs.map Text.asciiLower = ['.', '.'] ∨ cs.map Text.asciiLower = ['.', '%', '2', 'e'] ∨
      cs.map Text.asciiLower = ['%', '2', 'e', '.'] ∨
      cs.map Text.asciiLower = ['%', '2', 'e', '%', '2', 'e'] := by
  simp [isDoubleDot, ← String.toList_inj]

theorem decodeBytes_of_isDot (h : isDot cs = true) :
    Percent.decodeBytes cs = ['.'].flatMap Percent.bytes := by
  simp only [isDot_iff, List.map_eq_cons_iff, List.map_eq_nil_iff] at h
  rcases h with ⟨_, _, rfl, hdot, rfl⟩ | ⟨_, _, rfl, hx, _, _, rfl, hy, _, _, rfl, hz, rfl⟩
  · rw [decodeBytes_dot hdot]
    rfl
  · rw [decodeBytes_dotTriplet hx hy hz]
    rfl

theorem decodeBytes_of_isDoubleDot (h : isDoubleDot cs = true) :
    Percent.decodeBytes cs = ['.', '.'].flatMap Percent.bytes := by
  simp only [isDoubleDot_iff, List.map_eq_cons_iff, List.map_eq_nil_iff] at h
  rcases h with ⟨_, _, rfl, hdot, _, _, rfl, hdot', rfl⟩ |
    ⟨_, _, rfl, hdot, _, _, rfl, hx, _, _, rfl, hy, _, _, rfl, hz, rfl⟩ |
    ⟨_, _, rfl, hx, _, _, rfl, hy, _, _, rfl, hz, _, _, rfl, hdot, rfl⟩ |
    ⟨_, _, rfl, hx, _, _, rfl, hy, _, _, rfl, hz, _, _, rfl, hx', _, _, rfl, hy', _, _, rfl, hz',
      rfl⟩
  · rw [decodeBytes_dot hdot, decodeBytes_dot hdot']
    rfl
  · rw [decodeBytes_dot hdot, decodeBytes_dotTriplet hx hy hz]
    rfl
  · rw [decodeBytes_dotTriplet hx hy hz, decodeBytes_dot hdot]
    rfl
  · rw [decodeBytes_dotTriplet hx hy hz, decodeBytes_dotTriplet hx' hy' hz']
    rfl

theorem eq_of_decodeBytes_encode (hpercent : '%' ∈ reserved)
    (h : Percent.decodeBytes (Percent.encode reserved cs) = segment.flatMap Percent.bytes) :
    cs = segment := by
  rw [Percent.decodeBytes_encode hpercent] at h
  have hsame := congrArg Percent.ofUtf8? h
  rw [Percent.ofUtf8?_bytes, Percent.ofUtf8?_bytes] at hsame
  exact String.ofList_injective (Option.some.inj hsame)

-- ---------------------------------------------------------------------------
-- Names
-- ---------------------------------------------------------------------------

theorem Reading.push_of_isName {r : Reading} (hpercent : '%' ∈ r.reserved)
    (h : IsName segment) {walked : Walked} (hplace : (r.file && walked.segments.isEmpty) = false)
    (final : Bool) :
    r.push final walked segment =
      { walked with segments := walked.segments ++ [.ofList (r.written segment)] } := by
  have hdouble : isDoubleDot (r.written segment) = false :=
    Bool.eq_false_iff.mpr fun hdots =>
      h.2 (eq_of_decodeBytes_encode hpercent (decodeBytes_of_isDoubleDot hdots))
  have hdot : isDot (r.written segment) = false :=
    Bool.eq_false_iff.mpr fun hdots =>
      h.1 (eq_of_decodeBytes_encode hpercent (decodeBytes_of_isDot hdots))
  simp [push, hdouble, hdot, hplace]

end UrlPath

namespace Url

open UrlPath (counted IsName Reading)

variable {scheme name feature version : String} {segments : List String} {base : Url}

def segmentOf (scheme name : String) : String :=
  .ofList (Percent.encode (segmentReserved scheme) (counted name.toList))

theorem mem_segmentReserved (scheme : String) {c : Char} (h : c ∈ ['/', '?', '#', '%']) :
    c ∈ segmentReserved scheme := by
  refine List.mem_append_left _ ?_
  revert h
  simp only [List.mem_cons, List.not_mem_nil, or_false]
  rintro (rfl | rfl | rfl | rfl) <;> decide

theorem decode?_segmentOf (scheme name : String) :
    Percent.decode? (segmentOf scheme name).toList = some (counted name.toList) := by
  rw [segmentOf, String.toList_ofList]
  exact Percent.decode?_encode (mem_segmentReserved scheme (by decide)) _

theorem not_mem_segmentOf (scheme name : String) {c : Char} (h : c ∈ ['/', '?', '#']) :
    c ∉ (segmentOf scheme name).toList := by
  rw [segmentOf, String.toList_ofList]
  refine Percent.not_mem_encode (mem_segmentReserved scheme ?_) ?_ ?_ _ <;>
  · simp only [List.mem_cons, List.not_mem_nil, or_false] at h ⊢
    rcases h with rfl | rfl | rfl <;> decide

theorem addSegment_of_isName (h : IsName name.toList) (hsegments : ∃ s ∈ segments, s ≠ "") :
    addSegment scheme segments name = segments ++ [segmentOf scheme name] := by
  have hdots : ¬(name = "." ∨ name = "..") := by
    rintro (rfl | rfl)
    · exact h.1 rfl
    · exact h.2 rfl
  have hroot : segments ≠ [""] := by
    rintro rfl
    simp at hsegments
  have hplace : segments.isEmpty = false := by
    obtain ⟨s, hs, -⟩ := hsegments
    exact List.isEmpty_eq_false_iff.mpr (List.ne_nil_of_mem hs)
  rw [addSegment, if_neg hdots]
  simp only [if_neg hroot]
  rw [Reading.push_of_isName (mem_segmentReserved scheme (by decide)) h (by simp [hplace])]
  rfl

theorem addSegment_dot (scheme : String) (segments : List String) :
    addSegment scheme segments "." = segments :=
  if_pos (.inl rfl)

theorem segmentOf_proton (scheme : String) : segmentOf scheme "Proton" = "Proton" := by
  unfold segmentOf segmentReserved
  cases isSpecial scheme <;> decide

/-- The first of the new segments stands alone below the bare root, where it would be taken for the
drive of a file if it looked like one. -/
theorem addSegment_proton (scheme : String) (segments : List String) :
    addSegment scheme segments "Proton" =
      (if segments = [""] then [] else segments) ++ ["Proton"] := by
  rw [addSegment, if_neg (by decide)]
  generalize (if segments = [""] then [] else segments) = before
  have hwritten : String.ofList (Percent.encode (segmentReserved scheme) "Proton".toList) =
      "Proton" := segmentOf_proton scheme
  by_cases hplace : (isFile scheme && before.isEmpty) = false
  · simp only
    rw [Reading.push_of_isName (mem_segmentReserved scheme (by decide)) (by decide) hplace]
    exact congrArg (fun s => before ++ [s]) (segmentOf_proton scheme)
  · simp only [Bool.not_eq_false, Bool.and_eq_true, List.isEmpty_iff, isFile, beq_iff_eq] at hplace
    obtain ⟨rfl, rfl⟩ := hplace
    decide

-- ---------------------------------------------------------------------------
-- Addresses
-- ---------------------------------------------------------------------------

/-- The segments that stay in front of new ones: all but an empty last one. The bare root, which is
one empty segment, gives way as a whole. -/
def stem (segments : List String) : List String :=
  let kept := if segments.getLast? = some "" then segments.dropLast else segments
  if kept = [""] then [] else kept

theorem addSegment_kept (scheme : String) (segments : List String) :
    addSegment scheme
      (if 1 < segments.length ∧ segments.getLast? = some "" then segments.dropLast else segments)
      "Proton" = stem segments ++ ["Proton"] := by
  rw [addSegment_proton]
  match segments with
  | [] => rfl
  | [only] => by_cases honly : only = "" <;> simp [stem, honly]
  | first :: second :: rest => simp [stem]

theorem extend_manifest (hbase : base.path = .segments segments)
    (hfeature : IsName feature.toList) (hversion : IsName version.toList) :
    base.extend ["Proton", feature, version] =
      some { base with path := .segments (stem segments ++
        ["Proton", segmentOf base.scheme feature, segmentOf base.scheme version]) } := by
  simp only [extend, hbase, List.foldl_cons, List.foldl_nil]
  rw [addSegment_kept, addSegment_of_isName hfeature ⟨"Proton", by simp, by decide⟩,
    addSegment_of_isName hversion ⟨"Proton", by simp, by decide⟩]
  simp only [List.append_assoc, List.cons_append, List.nil_append]

theorem segmentOf_inj {other : String} :
    segmentOf scheme name = segmentOf scheme other ↔
      counted name.toList = counted other.toList := by
  refine ⟨fun h => ?_, fun h => ?_⟩
  · exact Percent.eq_of_encode_eq (mem_segmentReserved scheme (by decide))
      (String.ofList_injective h)
  · rw [segmentOf, segmentOf, h]

theorem exists_text (base : Url) (front : List String) :
    ∃ before after : List Char, ∀ first last : String,
      ({ base with path := .segments (front ++ ["Proton", first, last]) } : Url).text.toList =
        before ++ (first.toList ++ '/' :: (last.toList ++ after)) := by
  refine ⟨(base.scheme ++ ":" ++ base.authorityText ++ ((if base.apart then "/." else "") ++
    String.join (front.map ("/" ++ ·)) ++ "/Proton/")).toList,
    ((base.query.map ("?" ++ ·)).getD "" ++ (base.fragment.map ("#" ++ ·)).getD "").toList,
    fun first last => ?_⟩
  simp [text, pathText, authorityText, userText, String.join_append, String.join_cons]

theorem eq_of_text_eq {front : List String} {first last first' last' : String}
    (hfirst : '/' ∉ first.toList) (hfirst' : '/' ∉ first'.toList)
    (h : ({ base with path := .segments (front ++ ["Proton", first, last]) } : Url).text =
      ({ base with path := .segments (front ++ ["Proton", first', last']) } : Url).text) :
    first = first' ∧ last = last' := by
  obtain ⟨before, after, htext⟩ := exists_text base front
  have hsame := congrArg String.toList h
  rw [htext, htext, List.append_cancel_left_eq] at hsame
  have hcut := Text.cut?_eq_some.mpr ⟨hsame, hfirst'⟩
  rw [Text.cut?_eq_some.mpr ⟨rfl, hfirst⟩] at hcut
  obtain ⟨hfirsts, hlasts⟩ := Prod.mk.inj (Option.some.inj hcut)
  exact ⟨String.toList_inj.mp hfirsts, String.toList_inj.mp (List.append_cancel_right hlasts)⟩

end Url

namespace Fetch

open Url (stem segmentOf)
open UrlPath (counted IsName)

variable {base : Url} {segments : List String} {feature version : String}

theorem manifestUrl_of_isName (hbase : base.path = .segments segments)
    (hfeature : IsName feature.toList) (hversion : IsName version.toList) :
    manifestUrl base feature version = .ok { base with path := .segments (stem segments ++
      ["Proton", segmentOf base.scheme feature, segmentOf base.scheme version]) } := by
  rw [manifestUrl, Url.extend_manifest hbase hfeature hversion]

/-- Below a base that takes segments every feature and version has an address, which differs from
the base in its path only. Where the two are names, the path is that of the base and three more
segments, of which the last two decode to the feature and the version without their tabs and line
ends. Two such pairs have one address only if they are the same up to tabs and line ends. -/
theorem manifestUrl_outcome (hbase : base.path = .segments segments) :
    (∀ feature version, ∃ path,
      manifestUrl base feature version = .ok { base with path := .segments path }) ∧
    (∀ feature version, IsName feature.toList → IsName version.toList →
      ∃ first last, manifestUrl base feature version =
          .ok { base with path := .segments (stem segments ++ ["Proton", first, last]) } ∧
        Percent.decode? first.toList = some (counted feature.toList) ∧
        Percent.decode? last.toList = some (counted version.toList) ∧
        ∀ c ∈ ['/', '?', '#'], c ∉ first.toList ∧ c ∉ last.toList) ∧
    (∀ feature version feature' version' u u',
      IsName feature.toList → IsName version.toList →
      IsName feature'.toList → IsName version'.toList →
      manifestUrl base feature version = .ok u → manifestUrl base feature' version' = .ok u' →
      (u.text = u'.text ↔ counted feature.toList = counted feature'.toList ∧
        counted version.toList = counted version'.toList)) := by
  refine ⟨fun feature version => ?every, fun feature version hfeature hversion => ?names,
    fun feature version feature' version' u u' hfeature hversion hfeature' hversion' hu hu' =>
      ?pairs⟩
  case every =>
    rw [manifestUrl, Url.extend, hbase]
    exact ⟨_, rfl⟩
  case names =>
    exact ⟨_, _, manifestUrl_of_isName hbase hfeature hversion, Url.decode?_segmentOf _ _,
      Url.decode?_segmentOf _ _, fun c hc =>
        ⟨Url.not_mem_segmentOf _ _ hc, Url.not_mem_segmentOf _ _ hc⟩⟩
  case pairs =>
    obtain rfl := Except.ok.inj ((manifestUrl_of_isName hbase hfeature hversion).symm.trans hu)
    obtain rfl := Except.ok.inj ((manifestUrl_of_isName hbase hfeature' hversion').symm.trans hu')
    constructor
    · intro htext
      obtain ⟨hfirst, hlast⟩ := Url.eq_of_text_eq (Url.not_mem_segmentOf _ _ (by decide))
        (Url.not_mem_segmentOf _ _ (by decide)) htext
      exact ⟨Url.segmentOf_inj.mp hfirst, Url.segmentOf_inj.mp hlast⟩
    · rintro ⟨hfirst, hlast⟩
      rw [Url.segmentOf_inj.mpr hfirst, Url.segmentOf_inj.mpr hlast]

/-- Slashes, percent signs and tabs in the names, below a path that ends in two slashes. -/
theorem manifestUrl_outcome_slashes :
    let base : Url := .bare "https" (some "h.example") (.segments ["api", "", ""]) (some "q") none
    base.path = .segments ["api", "", ""] ∧
      IsName "a/\tb".toList ∧ IsName "%2e".toList ∧ IsName "a".toList ∧ IsName "b/%2e".toList ∧
      (∃ first last, manifestUrl base "a/\tb" "%2e" =
          .ok { base with path := .segments ["api", "", "Proton", first, last] } ∧
        Percent.decode? first.toList = some "a/b".toList ∧
        Percent.decode? last.toList = some "%2e".toList) ∧
      ∃ u u', manifestUrl base "a/\tb" "%2e" = .ok u ∧ manifestUrl base "a" "b/%2e" = .ok u' ∧
        u.text ≠ u'.text := by
  intro base
  have hnames : IsName "a/\tb".toList ∧ IsName "%2e".toList ∧ IsName "a".toList ∧
      IsName "b/%2e".toList := by decide
  obtain ⟨ha, hb, hc, hd⟩ := hnames
  obtain ⟨hevery, hsegments, hpairs⟩ := manifestUrl_outcome (rfl : base.path = _)
  obtain ⟨path, hu⟩ := hevery "a/\tb" "%2e"
  obtain ⟨path', hu'⟩ := hevery "a" "b/%2e"
  refine ⟨rfl, ha, hb, hc, hd, ?_, _, _, hu, hu', fun htext => ?_⟩
  · obtain ⟨first, last, hfirst⟩ := hsegments "a/\tb" "%2e" ha hb
    exact ⟨first, last, hfirst.1, hfirst.2.1, hfirst.2.2.1⟩
  · exact absurd ((hpairs _ _ _ _ _ _ ha hb hc hd hu hu').mp htext).1 (by decide)

/-- A dot is left out, so what it stood beside takes its place. -/
theorem manifestUrl_dots :
    ¬ ∀ (base : Url) (feature version feature' version' : String), base.takesSegments = true →
      manifestUrl base feature version = manifestUrl base feature' version' →
      feature = feature' ∧ version = version' := by
  intro h
  let base : Url := .bare "https" (some "h.example") (.segments ["api"]) none none
  have hsame : manifestUrl base "." "3" = manifestUrl base "3" "." := by
    simp [manifestUrl, base, Url.bare, Url.extend, Url.addSegment_dot]
  exact absurd (h base "." "3" "3" "." rfl hsame).1 (by decide)

end Fetch

end FeatureFlow
