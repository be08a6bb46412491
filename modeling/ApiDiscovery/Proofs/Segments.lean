import ApiDiscovery.Proofs.QueryString
import ApiDiscovery.Url
import Mathlib

/-!
# Segments of paths

The path of a URL is brought into normal form in two steps, and slashes are left alone by both: dots are resolved
among its segments, then each segment is encoded by itself. What comes of the segments is therefore

    `(dropDots (segments path)).map onWire`

unless the path vanishes, when one slash is requested (`Url.sentPath`). No segment of dots is left; so the segments
are those of the path, encoded, exactly if there is a path and none of its segments is one of dots.

Main statement: `segments_sentPath_eq_iff`.
-/

namespace ApiDiscovery

/-! ## Parts between separators -/

theorem Query.splitAt_eq_splitOn (sep : Char) (s : List Char) : Query.splitAt sep s = s.splitOn sep := by
  induction s with
  | nil => rfl
  | cons c rest ih =>
      rw [List.splitOn_cons_eq_if_modifyHead]
      by_cases hc : c = sep
      · rw [hc, Query.splitAt_sep, ih, if_pos (beq_self_eq_true sep)]
      · rw [if_neg (by simpa using hc)]
        cases hrest : rest.splitOn sep with
        | nil => exact absurd hrest (List.splitOn_ne_nil sep rest)
        | cons p parts => exact Query.splitAt_cons_of_ne hc (ih.trans hrest)

section

variable {α : Type} [DecidableEq α] {sep : α}

theorem splitOn_append_of_not_mem {p : List α} (h : sep ∉ p) (rest : List α) :
    (p ++ rest).splitOn sep = (rest.splitOn sep).modifyHead (p ++ ·) := by
  induction p with
  | nil => cases hrest : rest.splitOn sep <;> simp [hrest]
  | cons c p ih =>
      rw [List.mem_cons, not_or] at h
      rw [List.cons_append, List.splitOn_cons_eq_if_modifyHead, if_neg (by simpa using Ne.symm h.1), ih h.2]
      cases rest.splitOn sep <;> rfl

theorem sep_not_mem_of_mem_splitOn {s part : List α} (h : part ∈ s.splitOn sep) : sep ∉ part := by
  induction s generalizing part with
  | nil =>
      obtain rfl : part = [] := by simpa using h
      exact List.not_mem_nil
  | cons c rest ih =>
      rw [List.splitOn_cons_eq_if_modifyHead] at h
      by_cases hc : c = sep
      · rw [if_pos (by simpa using hc)] at h
        rcases List.mem_cons.1 h with rfl | h
        · exact List.not_mem_nil
        · exact ih h
      · rw [if_neg (by simpa using hc)] at h
        cases hrest : rest.splitOn sep with
        | nil => exact absurd hrest (List.splitOn_ne_nil sep rest)
        | cons p parts =>
            rw [hrest] at h ih
            rcases List.mem_cons.1 h with rfl | h
            · rw [List.mem_cons, not_or]
              exact ⟨Ne.symm hc, ih List.mem_cons_self⟩
            · exact ih (List.mem_cons_of_mem _ h)

/-- Where each element is written on its own, and only a separator is written with one, splitting comes before
writing or after it. -/
theorem splitOn_flatMap {β : Type} [DecidableEq β] {f : β → List α} {b : β} (hb : f b = [sep])
    (h : ∀ x, x ≠ b → sep ∉ f x) (l : List β) :
    (l.flatMap f).splitOn sep = (l.splitOn b).map (·.flatMap f) := by
  induction l with
  | nil => rfl
  | cons x rest ih =>
      rw [List.flatMap_cons, List.splitOn_cons_eq_if_modifyHead]
      by_cases hx : x = b
      · subst hx
        rw [if_pos (by simp), hb, List.singleton_append, List.splitOn_cons_eq_if_modifyHead, if_pos (by simp), ih]
        rfl
      · rw [if_neg (by simpa using hx), splitOn_append_of_not_mem (h x hx), ih]
        cases rest.splitOn b <;> rfl

end

/-! ## Resolving dots -/

namespace Url

/-- The parts of a path between its slashes. -/
def segments (path : List Char) : List (List Char) := Query.splitAt '/' path

/-- A segment that stands for the place itself, or the place above it. -/
def isDots (s : List Char) : Bool := s == ['.'] || s == ['.', '.']

/-- The segments that are kept, the last one first, with one segment more. -/
def dotStep (kept : List (List Char)) (s : List Char) : List (List Char) :=
  if s == ['.'] then kept
  else if s == ['.', '.'] then if kept.isEmpty || kept == [[]] then kept else kept.drop 1
  else s :: kept

theorem dropDots_eq (ss : List (List Char)) : dropDots ss = (ss.foldl dotStep []).reverse := rfl

theorem dotStep_of_not_isDots {s : List Char} (h : isDots s = false) (kept : List (List Char)) :
    dotStep kept s = s :: kept := by
  obtain ⟨hone, htwo⟩ := Bool.or_eq_false_iff.1 h
  rw [dotStep, if_neg (by simp [hone]), if_neg (by simp [htwo])]

theorem mem_dotStep {kept : List (List Char)} {s x : List Char} (h : x ∈ dotStep kept s) :
    x ∈ kept ∨ (x = s ∧ isDots x = false) := by
  unfold dotStep at h
  split at h
  · exact .inl h
  · next hone =>
      split at h
      · split at h
        · exact .inl h
        · exact .inl (List.mem_of_mem_drop h)
      · next htwo =>
          rcases List.mem_cons.1 h with rfl | h
          · exact .inr ⟨rfl, by simp [isDots, hone, htwo]⟩
          · exact .inl h

/-- The empty segment at the front is never taken back. -/
theorem getLast?_dotStep {kept : List (List Char)} (h : kept.getLast? = some []) (s : List Char) :
    (dotStep kept s).getLast? = some [] := by
  cases kept with
  | nil => cases h
  | cons k rest =>
      unfold dotStep
      split
      · exact h
      · split
        · split
          · exact h
          · next hkept =>
              cases rest with
              | nil => simp_all
              | cons k' rest => rwa [List.getLast?_cons_cons] at h
        · rwa [List.getLast?_cons_cons]

theorem mem_foldl_dotStep {ss kept : List (List Char)} {x : List Char} (h : x ∈ ss.foldl dotStep kept) :
    x ∈ kept ∨ (x ∈ ss ∧ isDots x = false) := by
  induction ss generalizing kept with
  | nil => exact .inl h
  | cons s rest ih =>
      rcases ih h with h | ⟨h, hx⟩
      · rcases mem_dotStep h with h | ⟨rfl, hx⟩
        · exact .inl h
        · exact .inr ⟨List.mem_cons_self, hx⟩
      · exact .inr ⟨List.mem_cons_of_mem _ h, hx⟩

/-- What is left are segments that are not of dots. -/
theorem mem_dropDots {ss : List (List Char)} {x : List Char} (h : x ∈ dropDots ss) :
    x ∈ ss ∧ isDots x = false := by
  rw [dropDots_eq, List.mem_reverse] at h
  exact (mem_foldl_dotStep h).resolve_left List.not_mem_nil

theorem dropDots_of_not_isDots {ss : List (List Char)} (h : ∀ s ∈ ss, isDots s = false) : dropDots ss = ss := by
  have hrun : ∀ kept, ss.foldl dotStep kept = ss.reverse ++ kept := by
    induction ss with
    | nil => exact fun _ => rfl
    | cons s rest ih =>
        intro kept
        rw [List.foldl_cons, dotStep_of_not_isDots (h s List.mem_cons_self),
          ih (fun s hs => h s (List.mem_cons_of_mem _ hs)), List.reverse_cons, List.append_assoc,
          List.singleton_append]
  rw [dropDots_eq, hrun, List.append_nil, List.reverse_reverse]

theorem dropDots_ne_nil (ss : List (List Char)) : dropDots ([] :: ss) ≠ [] := by
  have hrun : ∀ kept : List (List Char), kept.getLast? = some [] →
      (ss.foldl dotStep kept).getLast? = some [] := by
    induction ss with
    | nil => exact fun _ h => h
    | cons s rest ih => exact fun kept h => ih _ (getLast?_dotStep h s)
  intro h
  have hlast := hrun [[]] rfl
  rw [dropDots_eq, List.reverse_eq_nil_iff] at h
  rw [show ss.foldl dotStep [[]] = [] from h] at hlast
  cases hlast

/-! ## Encoding -/

/-- A segment as it goes over the wire. -/
def onWire (s : List Char) : List Char := Percent.encode keptInPath s

theorem segments_encode {keep : Char → Bool} (hkeep : keep '/' = true) (path : List Char) :
    segments (Percent.encode keep path) = (segments path).map (Percent.encode keep) := by
  unfold segments
  rw [Query.splitAt_eq_splitOn, Query.splitAt_eq_splitOn]
  refine splitOn_flatMap (b := '/') (by rw [if_pos hkeep]) (fun c hc => ?_) path
  cases keep c with
  | true => simpa using Ne.symm hc
  | false => exact (Percent.encoded_flatMap_byte _).not_mem (by decide) (by decide)

/-- What is not kept is written with percent signs. -/
theorem encode_of_percent_not_mem {keep : Char → Bool} {s : List Char} (h : '%' ∉ Percent.encode keep s) :
    Percent.encode keep s = s := by
  induction s with
  | nil => rfl
  | cons c rest ih =>
      rw [Percent.encode_cons, List.mem_append, not_or] at h
      rw [Percent.encode_cons, ih h.2]
      cases hc : keep c with
      | true => rfl
      | false =>
          rw [hc] at h
          obtain ⟨b, bs, hchar, -⟩ := Text.Utf8.piece_encodeChar c []
          refine absurd ?_ h.1
          rw [if_neg (by simp), Percent.char, hchar]
          exact List.mem_cons_self

theorem toNat_lt_of_isAlphanum {c : Char} (h : c.isAlphanum = true) : c.toNat < 128 := by
  simp only [Char.isAlphanum, Char.isAlpha, Char.isUpper, Char.isLower, Char.isDigit, Bool.or_eq_true,
    Bool.and_eq_true, decide_eq_true_eq, UInt32.le_iff_toNat_le, ge_iff_le] at h
  have hchar : c.toNat = c.val.toNat := rfl
  have hupper : 'Z'.val.toNat = 90 := rfl
  have hlower : 'z'.val.toNat = 122 := rfl
  have hdigit : '9'.val.toNat = 57 := rfl
  omega

theorem toNat_lt_of_isUnreserved {c : Char} (h : Percent.isUnreserved c = true) : c.toNat < 128 := by
  simp only [Percent.isUnreserved, Bool.or_eq_true, beq_iff_eq] at h
  rcases h with (((h | rfl) | rfl) | rfl) | rfl
  · exact toNat_lt_of_isAlphanum h
  all_goals decide

theorem keptInPath_of_isUnreserved {c : Char} (h : Percent.isUnreserved c = true) : keptInPath c = true := by
  have hascii : ∀ n < 128, Percent.isUnreserved (Char.ofNat n) = true → keptInPath (Char.ofNat n) = true := by
    decide +kernel
  have hc := hascii c.toNat (toNat_lt_of_isUnreserved h)
  rw [Char.ofNat_toNat] at hc
  exact hc h

/-- What has been encoded is not encoded again. -/
theorem onWire_of_encoded {s : List Char} (h : Percent.Encoded s) : onWire s = s := by
  have hkept : ∀ c ∈ s, keptInPath c = true := by
    intro c hc
    rcases h.unreserved_or_percent c hc with hu | rfl
    · exact keptInPath_of_isUnreserved hu
    · decide
  unfold onWire Percent.encode
  refine (List.flatMap_congr fun c hc => ?_).trans (List.flatMap_singleton' s)
  rw [if_pos (hkept c hc)]

theorem isDots_onWire (s : List Char) : isDots (onWire s) = isDots s := by
  rw [Bool.eq_iff_iff]
  constructor
  · intro h
    have hpercent : '%' ∉ onWire s := by
      rcases Bool.or_eq_true_iff.1 h with h | h <;> rw [eq_of_beq h] <;> decide
    rwa [onWire, encode_of_percent_not_mem hpercent] at h
  · intro h
    rcases Bool.or_eq_true_iff.1 h with h | h <;> rw [eq_of_beq h] <;> decide

/-! ## The path that is requested -/

/-- The path that is requested, that of the root if the URL has none. -/
def sentPath (u : Url) : String := if u.path.isEmpty then "/" else u.path

theorem segments_ne_nil (path : List Char) : segments path ≠ [] := by
  rw [segments, Query.splitAt_eq_splitOn]
  exact List.splitOn_ne_nil _ _

theorem sep_not_mem_segments {path s : List Char} (h : s ∈ segments path) : '/' ∉ s := by
  rw [segments, Query.splitAt_eq_splitOn] at h
  exact sep_not_mem_of_mem_splitOn h

theorem intercalate_segments (path : List Char) : ['/'].intercalate (segments path) = path := by
  rw [segments, Query.splitAt_eq_splitOn, List.intercalate_splitOn]

/-- Behind an authority, a path is empty or begins with a slash. -/
theorem segments_eq_cons {path : List Char} (h : ∀ c ∈ path.head?, c = '/') :
    ∃ rest, segments path = [] :: rest := by
  cases path with
  | nil => exact ⟨[], rfl⟩
  | cons c rest =>
      obtain rfl := h c rfl
      refine ⟨segments rest, ?_⟩
      rw [segments, segments, Query.splitAt_eq_splitOn, Query.splitAt_eq_splitOn,
        List.splitOn_cons_eq_if_modifyHead, if_pos (by simp)]

theorem segments_normalizePath {path : List Char} (h : ∀ c ∈ path.head?, c = '/') :
    segments (normalizePath path) = dropDots (segments path) := by
  have hne : dropDots (segments path) ≠ [] := by
    obtain ⟨rest, hrest⟩ := segments_eq_cons h
    rw [hrest]
    exact dropDots_ne_nil rest
  have hsplit : (['/'].intercalate (dropDots (segments path))).splitOn '/' = dropDots (segments path) :=
    List.splitOn_intercalate '/' (fun s hs => sep_not_mem_segments (mem_dropDots hs).1) hne
  rwa [← Query.splitAt_eq_splitOn] at hsplit

section

variable {u : Url} {path : List Char} (hu : u.path.toList = Percent.encode keptInPath (normalizePath path))
include hu

theorem not_isDots_of_mem_sentPath (h : ∀ c ∈ path.head?, c = '/') :
    ∀ s ∈ segments u.sentPath.toList, isDots s = false := by
  rw [sentPath]
  split
  · decide
  · rw [hu, segments_encode (by decide), segments_normalizePath h]
    intro s hs
    obtain ⟨k, hk, rfl⟩ := List.mem_map.1 hs
    exact (isDots_onWire k).trans (mem_dropDots hk).2

/-- The segments of a path are requested as they are but for their encoding exactly if there is a path, and no
segment is one of dots. -/
theorem segments_sentPath_eq_iff (h : ∀ c ∈ path.head?, c = '/') :
    segments u.sentPath.toList = (segments path).map onWire ↔
      path ≠ [] ∧ ∀ s ∈ segments path, isDots s = false := by
  constructor
  · intro heq
    refine ⟨?_, fun s hs => ?_⟩
    · rintro rfl
      rw [sentPath, if_pos (by rw [String.isEmpty_iff, ← String.toList_eq_nil_iff, hu]; rfl)] at heq
      exact absurd heq (by decide)
    · rw [← isDots_onWire]
      refine not_isDots_of_mem_sentPath hu h _ ?_
      rw [heq]
      exact List.mem_map_of_mem hs
  · rintro ⟨hpath, hdots⟩
    have hnormal : normalizePath path = path := by
      show ['/'].intercalate (dropDots (segments path)) = path
      rw [dropDots_of_not_isDots hdots, intercalate_segments]
    have hne : ¬ u.path.isEmpty = true := by
      rw [String.isEmpty_iff, ← String.toList_eq_nil_iff, hu, hnormal, Percent.encode_eq_nil]
      exact hpath
    rw [sentPath, if_neg hne, hu, hnormal]
    exact segments_encode (by decide) path

end

end Url

end ApiDiscovery
