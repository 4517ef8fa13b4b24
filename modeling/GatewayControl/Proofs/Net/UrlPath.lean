import GatewayControl.Net.Url
import GatewayControl.Proofs.Except
import GatewayControl.Proofs.Net.Percent
import GatewayControl.Proofs.Text.Case

/-!
# `GatewayControl.Proofs.Net.UrlPath` -- pushing a segment to the path of a URL

A pushed text becomes one segment that decodes to it, with exceptions: the texts `.` and `..` are ignored,
and of the others tabs and line ends are dropped, so that a dot segment can come about that the first check
did not see (`pushSegment_of_not_dots`). No other text is a dot segment when it is encoded, in any of its
spellings (`isDoubleDot_encode`, `isSingleDot_encode`).

The path of a file that is parsed does not start with an empty segment, unless it is the root, which gives
way to what is pushed (`head_stem_of_parse`).
-/

namespace GatewayControl.Url

/-! ## Dot segments -/

/-- A dot, or its encoding in either case, decodes to a dot. -/
theorem decode_of_lower_dot {s rest : List Char}
    (h : s.map Char.toLower = '.' :: rest ∨ s.map Char.toLower = '%' :: '2' :: 'e' :: rest) :
    ∃ rest', rest'.map Char.toLower = rest ∧ Percent.decode s = 46 :: Percent.decode rest' := by
  rcases h with h | h
  · obtain ⟨c, rest', rfl, hc, rfl⟩ := List.map_eq_cons_iff.1 h
    obtain rfl := Text.eq_of_toLower_eq (by decide) hc
    exact ⟨rest', rfl, Percent.decode_cons_of_ne (by decide) rest'⟩
  · obtain ⟨a, s, rfl, ha, h⟩ := List.map_eq_cons_iff.1 h
    obtain ⟨b, s, rfl, hb, h⟩ := List.map_eq_cons_iff.1 h
    obtain ⟨c, rest', rfl, hc, rfl⟩ := List.map_eq_cons_iff.1 h
    obtain rfl := Text.eq_of_toLower_eq (by decide) ha
    obtain rfl := Text.eq_of_toLower_eq (by decide) hb
    have hdigit : Percent.value? c = some 14 := by
      rcases Text.eq_or_of_toLower_eq hc with rfl | ⟨-, -, hval⟩
      · rfl
      · have hc : c.toNat = 'E'.toNat := Nat.add_right_cancel (m := 32) hval
        rw [Char.toNat_inj.1 hc]
        rfl
    refine ⟨rest', rfl, ?_⟩
    rw [Percent.decode, hdigit]
    rfl

/-- A segment that climbs decodes to two dots, in whatever spelling. -/
theorem decode_of_isDoubleDot {s : List Char} (h : isDoubleDot s = true) :
    Percent.decode s = Bytes.ofText ".." := by
  have hspelled : ∃ rest, (rest = ['.'] ∨ rest = ['%', '2', 'e']) ∧
      (s.map Char.toLower = '.' :: rest ∨ s.map Char.toLower = '%' :: '2' :: 'e' :: rest) := by
    simp only [isDoubleDot, List.contains_eq_mem, decide_eq_true_eq, List.mem_cons, List.not_mem_nil,
      or_false, ← String.toList_inj, String.toList_ofList] at h
    rcases h with h | h | h | h
    · exact ⟨_, .inl rfl, .inl h⟩
    · exact ⟨_, .inr rfl, .inr h⟩
    · exact ⟨_, .inr rfl, .inl h⟩
    · exact ⟨_, .inl rfl, .inr h⟩
  obtain ⟨rest, hrest, hs⟩ := hspelled
  obtain ⟨s', hs', hdecode⟩ := decode_of_lower_dot hs
  have hlast : s'.map Char.toLower = '.' :: [] ∨ s'.map Char.toLower = '%' :: '2' :: 'e' :: [] := hs' ▸ hrest
  obtain ⟨s'', hs'', hdecode'⟩ := decode_of_lower_dot hlast
  rw [hdecode, hdecode', List.map_eq_nil_iff.1 hs'']
  rfl

/-- A segment that stays decodes to a dot, in whatever spelling. -/
theorem decode_of_isSingleDot {s : List Char} (h : isSingleDot s = true) :
    Percent.decode s = Bytes.ofText "." := by
  have hspelled : s.map Char.toLower = ['.'] ∨ s.map Char.toLower = ['%', '2', 'e'] := by
    simp only [isSingleDot, List.contains_eq_mem, decide_eq_true_eq, List.mem_cons, List.not_mem_nil,
      or_false, ← String.toList_inj, String.toList_ofList] at h
    exact h
  obtain ⟨rest, hrest, hdecode⟩ := decode_of_lower_dot hspelled
  rw [hdecode, List.map_eq_nil_iff.1 hrest]
  rfl

section Segment

variable (kind : SchemeKind)

theorem segmentEscapes_percent : segmentEscapes kind '%' = true := by
  cases kind <;> decide

/-- Of all texts only the two dots climb when they are encoded. -/
theorem isDoubleDot_encode (cs : List Char) :
    isDoubleDot (Percent.encode (segmentEscapes kind) cs) = true ↔ cs = ['.', '.'] := by
  constructor
  · intro h
    have hdecode := decode_of_isDoubleDot h
    rw [Percent.decode_encode (segmentEscapes_percent kind), Bytes.ofText_inj] at hdecode
    exact String.ofList_injective hdecode
  · rintro rfl
    cases kind <;> rfl

/-- Of all texts only the dot stays when it is encoded. -/
theorem isSingleDot_encode (cs : List Char) :
    isSingleDot (Percent.encode (segmentEscapes kind) cs) = true ↔ cs = ['.'] := by
  constructor
  · intro h
    have hdecode := decode_of_isSingleDot h
    rw [Percent.decode_encode (segmentEscapes_percent kind), Bytes.ofText_inj] at hdecode
    exact String.ofList_injective hdecode
  · rintro rfl
    cases kind <;> rfl

end Segment

/-! ## Pushing -/

/-- What a pushed segment comes after: the root gives way. -/
def stem (segments : List (List Char)) : List (List Char) := if segments = [[]] then [] else segments

section Push

variable {kind : SchemeKind} {segments : List (List Char)} {s : String}

theorem pushSegment_dots (h : s = "." ∨ s = "..") : pushSegment kind segments s = segments := if_pos h

/-- Of any other text it matters what is left of it without tabs and line ends. -/
theorem pushSegment_of_not_dots (h : ¬ (s = "." ∨ s = "..")) :
    pushSegment kind segments s = settleFile kind (
      let kept := s.toList.filter fun c => !isDropped c
      if kept = ['.', '.'] then shorten kind (stem segments) ++ [[]]
      else if kept = ['.'] then stem segments ++ [[]]
      else stem segments ++ [settleDrive kind (stem segments) (Percent.encode (segmentEscapes kind) kept)]) := by
  unfold pushSegment
  rw [if_neg h]
  simp only [walk, isDoubleDot_encode, isSingleDot_encode, stem]

end Push

/-! ## Paths of files -/

/-- A path that does not start with an empty segment is left as it is. -/
theorem settleFile_of_head {kind : SchemeKind} {segments : List (List Char)} (hne : segments ≠ [])
    (h : kind = .file → segments.head? ≠ some []) : settleFile kind segments = segments := by
  unfold settleFile
  split
  · next hfile =>
    obtain ⟨s, rest, rfl⟩ := List.exists_cons_of_ne_nil hne
    have hs : ¬ s.isEmpty = true := fun hs => h hfile (by rw [List.isEmpty_iff.1 hs]; rfl)
    rw [List.dropWhile_cons_of_neg hs]
  · rfl

/-- After pushing made way, the path of a file does not start with an empty segment. -/
theorem head_stem_settleFile (segments : List (List Char)) :
    (stem (popIfEmpty (settleFile .file segments))).head? ≠ some [] := by
  unfold settleFile
  rw [if_pos rfl]
  cases hdrop : segments.dropWhile List.isEmpty with
  | nil => exact fun h => absurd h (by decide)
  | cons s rest =>
    have hs : s ≠ [] := by
      rintro rfl
      have hhead := List.head_dropWhile_not List.isEmpty (l := segments) (by simp [hdrop])
      simp [hdrop] at hhead
    have hstem : ∀ rest, (stem (s :: rest)).head? ≠ some [] := fun rest => by
      unfold stem
      rw [if_neg (by simp [hs])]
      simpa using hs
    simp only
    unfold popIfEmpty
    split
    · next hlong =>
      cases rest with
      | nil => exact absurd hlong.1 (by simp)
      | cons t rest => exact hstem _
    · exact hstem rest

theorem exists_settleFile_pathOf (kind : SchemeKind) (cs : List Char) :
    ∃ segments, pathOf kind cs = settleFile kind segments := by
  cases cs with
  | nil =>
    cases kind with
    | file => exact ⟨[[]], rfl⟩
    | special => exact ⟨[[]], rfl⟩
    | other => exact ⟨[], rfl⟩
  | cons c rest => exact ⟨_, rfl⟩

/-- A path is opaque, or read from what follows the authority. -/
theorem path_of_hierarchyOf {scheme : String} {bare : Bool} {body : List Char}
    {authority : Option UrlAuthority} {path : UrlPath}
    (h : hierarchyOf scheme bare body = .ok (authority, path)) :
    (∃ text, path = .fixed text) ∨ ∃ cs, path = .segments (pathOf (SchemeKind.of scheme) cs) := by
  unfold hierarchyOf at h
  extract_lets kind withAuthority at h
  have hwith : ∀ cs, withAuthority cs = .ok (authority, path) →
      ∃ cs, path = .segments (pathOf kind cs) := by
    intro cs hcs
    simp only [withAuthority] at hcs
    split at hcs
    · split at hcs
      · cases hcs
        exact ⟨_, rfl⟩
      · obtain ⟨a, -, ha⟩ := Except.map_eq_ok.1 hcs
        cases ha
        exact ⟨_, rfl⟩
    · obtain ⟨a, -, ha⟩ := Except.map_eq_ok.1 hcs
      cases ha
      exact ⟨_, rfl⟩
  -- the kind of the scheme is now any one of the three
  change _ ∨ ∃ cs, path = .segments (pathOf kind cs)
  clear_value withAuthority kind
  split at h
  · exact .inr (hwith _ h)
  · split at h
    · split at h
      · exact .inr (hwith _ h)
      · cases h
        exact .inr ⟨_, rfl⟩
    · cases h
      exact .inr ⟨_, rfl⟩
  · split at h
    · exact .inr (hwith _ h)
    · cases h
      exact .inr ⟨_, rfl⟩
    · cases h
      exact .inl ⟨_, rfl⟩

/-- The segments of a parsed URL are read from some text, as its scheme has them read. -/
theorem exists_pathOf_of_parse {text : String} {url : Url} {segments : List (List Char)}
    (h : parse text = .ok url) (hsegments : url.segments? = some segments) :
    ∃ cs, segments = pathOf (SchemeKind.of url.scheme) cs := by
  unfold parse at h
  simp only at h
  split at h
  · cases h
  · next scheme rest _ =>
    obtain ⟨⟨authority, path⟩, hhierarchy, rfl⟩ := Except.map_eq_ok.1 h
    rcases path_of_hierarchyOf hhierarchy with ⟨t, rfl⟩ | ⟨cs, rfl⟩
    · cases hsegments
    · exact ⟨cs, (Option.some.inj hsegments).symm⟩

/-- **The path of a parsed file** does not start with an empty segment where others are pushed to it. -/
theorem head_stem_of_parse {text : String} {url : Url} {segments : List (List Char)}
    (h : parse text = .ok url) (hsegments : url.segments? = some segments)
    (hfile : SchemeKind.of url.scheme = .file) : (stem (popIfEmpty segments)).head? ≠ some [] := by
  obtain ⟨cs, rfl⟩ := exists_pathOf_of_parse h hsegments
  obtain ⟨unsettled, hsettled⟩ := exists_settleFile_pathOf (SchemeKind.of url.scheme) cs
  rw [hsettled, hfile]
  exact head_stem_settleFile unsettled

end GatewayControl.Url
