import GatewayControl.Directory
import GatewayControl.Proofs.Net.UrlPath

/-!
# `GatewayControl.Proofs.Net.UserUrl` -- which users share an address at an explorer

The address of a user shows an identifier in full if it is not a dot segment and has no tabs and line ends
in it (`Addressable`); no two such users share an address. Of any other identifier it shows less: nothing
of `.` and `..`, and of the others what is left without the dropped characters, which can be a dot segment
in turn. `UserEntry.ofUser` says what is shown, and two users have the same address exactly if the same
is shown of them. So there is no user without another one at the same address.

The main statement is `Directory.shared_addresses`.
-/

namespace GatewayControl

/-- An identifier that an address shows in full. -/
structure Addressable (user : String) : Prop where
  ne_dot : user ≠ "."
  ne_dots : user ≠ ".."
  kept : ∀ c ∈ user.toList, Url.isDropped c = false

/-- What the address of a user shows of the identifier. -/
inductive UserEntry where
  /-- Nothing: it is the address of all users. -/
  | all
  /-- Two dots that were not seen as such: the address is the one above. -/
  | above
  /-- A text, in a segment of its own. -/
  | segment (text : List Char)

namespace UserEntry

/-- What is shown of an identifier. -/
def ofUser (user : String) : UserEntry :=
  let kept := user.toList.filter fun c => !Url.isDropped c
  if user = "." ∨ user = ".." then all
  else if kept = ['.', '.'] then above
  else if kept = ['.'] then segment []
  else segment kept

/-- The segments of an entry, after those of the explorer. -/
def pushed (kind : SchemeKind) : UserEntry → List (List Char)
  | all => ["users".toList]
  | above => [[]]
  | segment text => ["users".toList, Percent.encode (Url.segmentEscapes kind) text]

variable {kind : SchemeKind} {user : String} {e e' : UserEntry}

/-- Addressable identifiers are shown in full, and no others are. -/
theorem ofUser_eq_segment_iff : ofUser user = segment user.toList ↔ Addressable user := by
  unfold ofUser
  constructor
  · intro h
    simp only at h
    split at h
    · cases h
    · next hdots =>
      rw [not_or] at hdots
      split at h
      · cases h
      · split at h
        · next hdot =>
          rw [← segment.inj h] at hdot
          exact absurd hdot (by decide)
        · refine ⟨hdots.1, hdots.2, fun c hc => ?_⟩
          simpa using List.filter_eq_self.1 (segment.inj h) c hc
  · rintro ⟨hdot, hdots, hkept⟩
    have hfilter : user.toList.filter (fun c => !Url.isDropped c) = user.toList :=
      List.filter_eq_self.2 fun c hc => by simp [hkept c hc]
    have hne : user.toList ≠ ['.'] := fun h => hdot (String.toList_inj.1 h)
    have hne' : user.toList ≠ ['.', '.'] := fun h => hdots (String.toList_inj.1 h)
    simp only [hfilter, hdot, hdots, hne, hne', or_self, if_false]

/-- The text of the path tells the entry. -/
theorem pathChars_pushed_inj :
    Url.pathChars (.segments (e.pushed kind)) = Url.pathChars (.segments (e'.pushed kind)) ↔ e = e' := by
  refine ⟨fun h => ?_, fun h => h ▸ rfl⟩
  have hall : Url.pathChars (.segments (all.pushed kind)) = "/users".toList := rfl
  have habove : Url.pathChars (.segments (above.pushed kind)) = "/".toList := rfl
  have hsegment : ∀ text, Url.pathChars (.segments ((segment text).pushed kind)) =
      "/users/".toList ++ Percent.encode (Url.segmentEscapes kind) text := fun text => by
    simp [Url.pathChars, pushed]
  cases e with
  | all => cases e' <;> simp [hall, habove, hsegment] at h ⊢
  | above => cases e' <;> simp [hall, habove, hsegment] at h ⊢
  | segment text =>
    cases e' with
    | all => simp [hall, hsegment] at h
    | above => simp [habove, hsegment] at h
    | segment text' =>
      rw [hsegment, hsegment, List.append_cancel_left_eq,
        Percent.encode_inj (Url.segmentEscapes_percent kind)] at h
      rw [h]

theorem pushed_inj : e.pushed kind = e'.pushed kind ↔ e = e' :=
  ⟨fun h => pathChars_pushed_inj.1 (congrArg (fun s => Url.pathChars (.segments s)) h), fun h => h ▸ rfl⟩

end UserEntry

namespace Url

/-! ## Pushing an entry -/

variable {kind : SchemeKind} {base : List (List Char)}

theorem settleDrive_of_not {before : List (List Char)} {s : List Char} (h : isDriveLetter s = false) :
    settleDrive kind before s = s := by
  unfold settleDrive
  rw [if_neg (by simp [h])]

/-- After the first segment there is no drive. -/
theorem settleDrive_of_ne_nil {before : List (List Char)} (h : before ≠ []) (s : List Char) :
    settleDrive kind before s = s := by
  unfold settleDrive
  rw [if_neg (by simp [h])]

/-- Appended segments do not come first, or are not empty. -/
theorem settleFile_append (h : kind = .file → base.head? ≠ some []) {s : List Char} (hs : s ≠ [])
    (rest : List (List Char)) : settleFile kind (base ++ s :: rest) = base ++ s :: rest := by
  refine settleFile_of_head (by simp) fun hfile => ?_
  cases base with
  | nil => simpa using hs
  | cons t base => simpa using h hfile

theorem stem_ne (segments : List (List Char)) : stem segments ≠ [[]] := by
  unfold stem
  split
  · exact fun h => absurd h (by decide)
  · next h => exact h

/-- The segment `users` is pushed as it is. -/
theorem pushSegment_users {segments : List (List Char)}
    (h : kind = .file → (stem segments).head? ≠ some []) :
    pushSegment kind segments "users" = stem segments ++ ["users".toList] := by
  have hkept : "users".toList.filter (fun c => !isDropped c) = "users".toList := by decide
  have hencoded : Percent.encode (segmentEscapes kind) "users".toList = "users".toList := by
    cases kind <;> rfl
  rw [pushSegment_of_not_dots (by decide)]
  simp only [hkept]
  rw [if_neg (by decide), if_neg (by decide), hencoded, settleDrive_of_not (by decide),
    settleFile_append h (by decide)]

theorem shorten_users : shorten kind (base ++ ["users".toList]) = base := by
  unfold shorten
  split
  · next s hs =>
    obtain ⟨rfl, rfl⟩ : base = [] ∧ "users".toList = s := by
      cases base with
      | nil => exact ⟨rfl, by simpa using hs⟩
      | cons t base => simp at hs
    rw [if_neg (by simp [isDriveLetter])]
  · exact List.dropLast_concat

/-- An encoded segment has nothing in it that ends a segment. -/
theorem encode_stays {text : List Char} {c : Char}
    (h : c ∈ Percent.encode (segmentEscapes kind) text) : kind.isSlash c = false ∧ c ≠ '?' ∧ c ≠ '#' := by
  have hdigits : ∀ n : Fin 16, kind.isSlash (Percent.digit n.val) = false ∧
      Percent.digit n.val ≠ '?' ∧ Percent.digit n.val ≠ '#' := by
    cases kind <;> decide
  rcases Percent.mem_encode h with rfl | ⟨n, hn, rfl⟩ | hkept
  · cases kind <;> decide
  · exact hdigits ⟨n, hn⟩
  · simp only [segmentEscapes, pathEscapes, Bool.or_eq_false_iff, List.contains_eq_mem,
      decide_eq_false_iff_not, List.mem_cons, List.not_mem_nil, or_false, not_or] at hkept
    obtain ⟨⟨⟨⟨-, hhash, hmark, -⟩, hslash⟩, -⟩, hback⟩ := hkept
    refine ⟨?_, hmark, hhash⟩
    rw [SchemeKind.isSlash, hslash, hback, Bool.or_self]

/-- **A user is pushed as an entry** after the segment `users`. -/
theorem pushSegment_user (h : kind = .file → base.head? ≠ some []) (user : String) :
    pushSegment kind (base ++ ["users".toList]) user = base ++ (UserEntry.ofUser user).pushed kind := by
  have hstem : stem (base ++ ["users".toList]) = base ++ ["users".toList] := by
    unfold stem
    rw [if_neg]
    cases base <;> simp
  unfold UserEntry.ofUser
  by_cases hdots : user = "." ∨ user = ".."
  · rw [pushSegment_dots hdots]
    simp only [hdots, if_true, UserEntry.pushed]
  · rw [pushSegment_of_not_dots hdots, hstem, shorten_users]
    simp only [hdots, if_false]
    split
    · -- the path of a file may come down to its root
      cases base with
      | nil => cases kind <;> rfl
      | cons s base => exact settleFile_of_head (by simp) fun hfile => by simpa using h hfile
    · split
      · rw [List.append_assoc]
        exact settleFile_append h (by decide) [[]]
      · rw [settleDrive_of_ne_nil (by simp), List.append_assoc]
        exact settleFile_append h (by decide) _

theorem pathChars_append (segments rest : List (List Char)) :
    pathChars (.segments (segments ++ rest)) =
      pathChars (.segments segments) ++ pathChars (.segments rest) :=
  List.flatMap_append

/-- Two slashes at the start of a path come from the segments of the explorer. -/
theorem isPrefixOf_pathChars (hbase : base ≠ [[]]) (e : UserEntry) :
    "//".toList.isPrefixOf
        (pathChars (.segments base) ++ pathChars (.segments (e.pushed kind))) =
      "//".toList.isPrefixOf (pathChars (.segments base)) := by
  cases base with
  | nil => cases e <;> rfl
  | cons s base =>
    cases s with
    | cons c s => rfl
    | nil =>
      cases base with
      | nil => exact absurd rfl hbase
      | cons t base => rfl

/-- The text of a URL tells the entry. -/
theorem text_entry_inj (url : Url) (hbase : base ≠ [[]]) {e e' : UserEntry} :
    ({ url with path := .segments (base ++ e.pushed kind) } : Url).text =
      ({ url with path := .segments (base ++ e'.pushed kind) } : Url).text ↔ e = e' := by
  refine ⟨fun h => ?_, fun h => h ▸ rfl⟩
  unfold text at h
  simp only [pathChars_append, isPrefixOf_pathChars hbase, ← String.toList_inj, String.toList_append,
    String.toList_ofList, List.append_cancel_left_eq, List.append_cancel_right_eq, List.cons_append,
    List.cons.injEq, true_and] at h
  exact UserEntry.pathChars_pushed_inj.1 h

end Url

namespace UserEntry

/-- There is no identifier of which something else is shown than of all others. -/
theorem exists_ofUser_eq (user : String) : ∃ other, other ≠ user ∧ ofUser other = ofUser user := by
  by_cases hdots : user = "." ∨ user = ".."
  · rcases hdots with rfl | rfl
    · exact ⟨"..", by decide, rfl⟩
    · exact ⟨".", by decide, rfl⟩
  · -- a tab more makes no difference
    have hlist : (user ++ "\t").toList = user.toList ++ ['\t'] := String.toList_append
    have hother : user ++ "\t" ≠ user := fun h => by
      simpa [hlist] using congrArg String.toList h
    have hnot : ¬ (user ++ "\t" = "." ∨ user ++ "\t" = "..") := by
      rintro (h | h)
      all_goals
        have hmem : '\t' ∈ (user ++ "\t").toList := by simp [hlist]
        rw [h] at hmem
        exact absurd hmem (by decide)
    have hkept : (user ++ "\t").toList.filter (fun c => !Url.isDropped c) =
        user.toList.filter fun c => !Url.isDropped c := by
      rw [hlist, List.filter_append]
      exact List.append_nil _
    refine ⟨user ++ "\t", hother, ?_⟩
    unfold ofUser
    simp only [hkept, hdots, hnot, if_false]

end UserEntry

namespace Directory

variable {text : String} {base : Url} {segments : List (List Char)}

/-- The address of a user is made of what is shown of the identifier. -/
theorem userUrl_eq (h : Url.parse text = .ok base) (hsegments : base.segments? = some segments)
    (user : String) :
    userUrl base user = .ok { base with
      path := .segments (Url.stem (Url.popIfEmpty segments) ++
        (UserEntry.ofUser user).pushed (SchemeKind.of base.scheme)) } := by
  have hhead := Url.head_stem_of_parse h hsegments
  unfold userUrl
  rw [hsegments]
  simp only
  rw [Url.pushSegment_users hhead, Url.pushSegment_user hhead]

theorem userUrl_eq_iff (h : Url.parse text = .ok base) (hsegments : base.segments? = some segments)
    {u v : String} :
    userUrl base u = userUrl base v ↔ UserEntry.ofUser u = UserEntry.ofUser v := by
  rw [userUrl_eq h hsegments, userUrl_eq h hsegments]
  simp only [Except.ok.injEq, Url.mk.injEq, UrlPath.segments.injEq, List.append_cancel_left_eq,
    UserEntry.pushed_inj, true_and, and_true]

/-- An address shows exactly the addressable identifiers. -/
theorem addressable_iff (h : Url.parse text = .ok base) (hsegments : base.segments? = some segments)
    {user : String} :
    Addressable user ↔ ∃ segment,
      userUrl base user = .ok { base with
        path := .segments (Url.stem (Url.popIfEmpty segments) ++ ["users".toList, segment]) } ∧
      Percent.decode segment = Bytes.ofText user ∧
      ∀ c ∈ segment, (SchemeKind.of base.scheme).isSlash c = false ∧ c ≠ '?' ∧ c ≠ '#' := by
  rw [← UserEntry.ofUser_eq_segment_iff, userUrl_eq h hsegments]
  constructor
  · intro hentry
    rw [hentry]
    refine ⟨_, rfl, ?_, fun c => Url.encode_stays⟩
    rw [Percent.decode_encode (Url.segmentEscapes_percent _), String.ofList_toList]
  · rintro ⟨segment, hurl, hdecode, -⟩
    simp only [Except.ok.injEq, Url.mk.injEq, UrlPath.segments.injEq, List.append_cancel_left_eq,
      true_and, and_true] at hurl
    cases hentry : UserEntry.ofUser user with
    | all => simp [hentry, UserEntry.pushed] at hurl
    | above => simp [hentry, UserEntry.pushed] at hurl
    | segment shown =>
      rw [hentry] at hurl
      obtain ⟨-, hurl⟩ := List.cons.inj hurl
      rw [← List.head_eq_of_cons_eq hurl, Percent.decode_encode (Url.segmentEscapes_percent _),
        Bytes.ofText_inj] at hdecode
      rw [← hdecode, String.toList_ofList]

/-- **Users share addresses.** Take an explorer at any URL that can be a base. Every user has an address; it
is the URL with the entry of the user after `users`, where `users` stands in place of an empty last segment. The
entry is one segment that decodes to the identifier, and has nothing in it that would end the segment, exactly
if the identifier is addressable: not `.` or `..`, and without tabs and line ends. Two users have the same
address exactly if the same is shown of both, and addresses that differ differ in their texts. So no two
addressable users share one, but every user shares one with someone. -/
theorem shared_addresses (h : Url.parse text = .ok base) (hsegments : base.segments? = some segments) :
    (∀ user, userUrl base user = .ok { base with
      path := .segments (Url.stem (Url.popIfEmpty segments) ++
        (UserEntry.ofUser user).pushed (SchemeKind.of base.scheme)) }) ∧
    (∀ user, Addressable user ↔ ∃ segment,
      userUrl base user = .ok { base with
        path := .segments (Url.stem (Url.popIfEmpty segments) ++ ["users".toList, segment]) } ∧
      Percent.decode segment = Bytes.ofText user ∧
      ∀ c ∈ segment, (SchemeKind.of base.scheme).isSlash c = false ∧ c ≠ '?' ∧ c ≠ '#') ∧
    (∀ u v, userUrl base u = userUrl base v ↔ UserEntry.ofUser u = UserEntry.ofUser v) ∧
    (∀ u v, ∃ url url', userUrl base u = .ok url ∧ userUrl base v = .ok url' ∧
      (url.text = url'.text ↔ url = url')) ∧
    (∀ u v, Addressable u → Addressable v → u ≠ v → userUrl base u ≠ userUrl base v) ∧
    ∀ u, ∃ v, v ≠ u ∧ userUrl base v = userUrl base u := by
  refine ⟨userUrl_eq h hsegments, fun user => addressable_iff h hsegments,
    fun u v => userUrl_eq_iff h hsegments, fun u v => ?_, fun u v hu hv hne => ?_, fun u => ?_⟩
  · refine ⟨_, _, userUrl_eq h hsegments u, userUrl_eq h hsegments v, ?_⟩
    rw [Url.text_entry_inj base (Url.stem_ne _)]
    simp only [Url.mk.injEq, UrlPath.segments.injEq, List.append_cancel_left_eq, UserEntry.pushed_inj,
      true_and, and_true]
  · rw [Ne, userUrl_eq_iff h hsegments, UserEntry.ofUser_eq_segment_iff.2 hu,
      UserEntry.ofUser_eq_segment_iff.2 hv, UserEntry.segment.injEq, String.toList_inj]
    exact hne
  · obtain ⟨v, hne, hv⟩ := UserEntry.exists_ofUser_eq u
    exact ⟨v, hne, (userUrl_eq_iff h hsegments).2 hv⟩

/-- An explorer with a path, asked for a user with a tab in the name and for one without it. -/
theorem shared_addresses_tab :
    ∃ base, Url.parse "grid://explorer/api" = .ok base ∧ base.segments? = some ["api".toList] ∧
      userUrl base "a\tb" = userUrl base "ab" ∧ (userUrl base "ab").map Url.text =
        .ok "grid://explorer/api/users/ab" := by
  have hparse : Url.parse "grid://explorer/api" =
      .ok ⟨"grid", some ⟨[], none, "explorer".toList, none⟩, .segments ["api".toList], none, none⟩ := rfl
  exact ⟨_, hparse, rfl, ((shared_addresses hparse rfl).2.2.1 "a\tb" "ab").2 rfl, rfl⟩

/-- Different users do not always have different addresses. -/
theorem not_userUrl_injective : ¬ ∀ (text : String) (base : Url) (segments : List (List Char)),
    Url.parse text = .ok base → base.segments? = some segments →
    ∀ u v, u ≠ v → userUrl base u ≠ userUrl base v := by
  intro hall
  have hparse : Url.parse "grid://explorer/api" =
      .ok ⟨"grid", some ⟨[], none, "explorer".toList, none⟩, .segments ["api".toList], none, none⟩ := rfl
  exact hall _ _ _ hparse rfl "a\tb" "ab" (by decide) rfl

end Directory

end GatewayControl
